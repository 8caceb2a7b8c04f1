/-
The VGA text buffer (`vga.rs`).

The screen is an array of rows of cells, read and written cell by cell, and a write
outside it panics.  A new line moves the rows up one cell after the other, in the screen
itself.  A string is its bytes.
-/
import Rucoonos.Lib.Slice

namespace Rucoonos.Vga

open Slice

structure ColorCode where
  code : UInt8
  deriving DecidableEq, Repr

structure ScreenChar where
  asciiCharacter : UInt8
  colorCode : ColorCode
  deriving DecidableEq, Repr

abbrev bufferHeight : Nat := 25
abbrev bufferWidth : Nat := 80

abbrev Row := Vector ScreenChar bufferWidth

@[ext] structure Buffer where
  chars : Vector Row bufferHeight
  deriving DecidableEq

/-- `self.buffer.chars[row][col].read()`. -/
def Buffer.read (b : Buffer) (row col : Nat) : Exec ScreenChar :=
  if h : row < bufferHeight ∧ col < bufferWidth then .ok b.chars[row][col] else .error .bounds

/-- `self.buffer.chars[row][col].write(c)`. -/
def Buffer.write (b : Buffer) (row col : Nat) (c : ScreenChar) : Exec Buffer :=
  if h : row < bufferHeight ∧ col < bufferWidth then
    .ok ⟨b.chars.set row (b.chars[row].set col c)⟩
  else .error .bounds

structure Writer where
  columnPosition : Nat
  colorCode : ColorCode
  buffer : Buffer
  deriving DecidableEq

/-- `b'\n'`. -/
def newline : UInt8 := 10

def Writer.clearRow (w : Writer) (row : Nat) : Exec Writer := do
  let blank : ScreenChar := ⟨32, w.colorCode⟩
  let buffer ← forRange 0 bufferWidth (fun buffer col => buffer.write row col blank) w.buffer
  return { w with buffer }

/-- The body of the loop over the rows. -/
def Buffer.copyUp (b : Buffer) (row : Nat) : Exec Buffer :=
  forRange 0 bufferWidth (fun buffer col => do
    let character ← buffer.read row col
    buffer.write (row - 1) col character) b

def Writer.newLine (w : Writer) : Exec Writer := do
  let buffer ← forRange 1 bufferHeight Buffer.copyUp w.buffer
  let w ← { w with buffer }.clearRow (bufferHeight - 1)
  return { w with columnPosition := 0 }

def Writer.writeByte (w : Writer) (byte : UInt8) : Exec Writer :=
  if byte = newline then w.newLine
  else do
    let w ← if w.columnPosition ≥ bufferWidth then w.newLine else pure w
    let row := bufferHeight - 1
    let col := w.columnPosition
    let buffer ← w.buffer.write row col ⟨byte, w.colorCode⟩
    return { w with buffer, columnPosition := w.columnPosition + 1 }

def Writer.writeString (w : Writer) (s : List UInt8) : Exec Writer :=
  s.foldlM (fun w byte =>
    if 0x20 ≤ byte ∧ byte ≤ 0x7e ∨ byte = newline then w.writeByte byte
    else w.writeByte 0xfe) w

/-- One call of `write_string` after the other. -/
def Writer.writeStrings (w : Writer) (strings : List (List UInt8)) : Exec Writer :=
  strings.foldlM Writer.writeString w

end Rucoonos.Vga
