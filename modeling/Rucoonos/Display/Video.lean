/-
Drawing on the frame buffer (`video.rs`).

The two statics `INFO` and `BUFFER` are set once, by `init`, and are the fields of the
state here.  The coordinates and the fields of the description are `usize`, and every
sum and product over them is checked.
-/
import Rucoonos.Lib.Slice

namespace Rucoonos.Video

open Slice

/-- What the boot loader says about the frame buffer; `stride` is in pixels. -/
structure FrameBufferInfo where
  byteLen : UInt64
  horizontalResolution : UInt64
  verticalResolution : UInt64
  bytesPerPixel : UInt64
  stride : UInt64
  deriving DecidableEq, Repr

structure Color where
  red : UInt8
  green : UInt8
  blue : UInt8
  deriving DecidableEq, Repr

/-- `INFO` and `BUFFER`. -/
structure Screen where
  info : Option FrameBufferInfo
  buffer : Option (List UInt8)
  deriving DecidableEq, Repr

/-- Before `init` was called. -/
def Screen.unset : Screen := ⟨none, none⟩

/-- `call_once`: what was set first stays. -/
def Screen.init (s : Screen) (info : FrameBufferInfo) (buffer : List UInt8) : Screen :=
  ⟨s.info <|> some info, s.buffer <|> some buffer⟩

/-- `*(locked.get_mut(i).unwrap()) = value`. -/
def setByte (locked : List UInt8) (i : UInt64) (value : UInt8) : Exec (List UInt8) :=
  if i.toNat < locked.length then .ok (locked.set i.toNat value) else .error .unwrap

/-- The first byte of the pixel, as `draw` computes it. -/
def startOf (info : FrameBufferInfo) (x y : UInt64) : Exec UInt64 := do
  let lines ← mulU64 y info.horizontalResolution
  let lines ← mulU64 lines info.bytesPerPixel
  let column ← mulU64 x info.bytesPerPixel
  addU64 lines column

/-- The part of `draw` that runs with the buffer locked. -/
def drawLocked (locked : List UInt8) (start : UInt64) (color : Color) : Exec (List UInt8) := do
  let locked ← setByte locked start color.red
  let green ← addU64 start 1
  let locked ← setByte locked green color.green
  let blue ← addU64 start 2
  setByte locked blue color.blue

def Screen.draw (s : Screen) (x y : UInt64) (color : Color) : Exec Screen :=
  match s.buffer with
  | none => return s
  | some locked => do
      let info ← unwrap s.info
      let start ← startOf info x y
      let next ← addU64 start info.bytesPerPixel
      if info.byteLen ≤ next then
        return s
      let locked ← drawLocked locked start color
      return { s with buffer := some locked }

end Rucoonos.Video
