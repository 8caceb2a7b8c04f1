/-
The packet buffer: `extensions/networking/protocols/buffer.rs`.

A buffer owns 2048 bytes whatever it holds, and a length that nothing ties to them:
`Buffer::new` copies as many bytes as fit and records the length of its argument
either way.
-/
import Mathlib.Data.List.Basic

namespace Rucoonos

abbrev Bytes := List UInt8

/-- `Buffer`.  `data` is a `Box<[u8; 2048]>`, so its length is part of its type. -/
structure Buffer where
  data : Bytes
  len : Nat
  size : data.length = 2048
  deriving DecidableEq, Repr

namespace Buffer

/-- `Buffer::new`: the bytes that fit are copied over the zeroes. -/
def new (data : Bytes) : Buffer where
  data := data.take 2048 ++ List.replicate (2048 - data.length) 0
  len := data.length
  size := by
    rw [List.length_append, List.length_take, List.length_replicate]
    omega

/-- `AsRef<[u8]>`: all 2048 bytes, not just the first `len`. -/
def asRef (b : Buffer) : Bytes := b.data

@[simp] theorem new_len (data : Bytes) : (new data).len = data.length := rfl

/-- A slice that fits is found again at the front of the buffer. -/
theorem take_new {data : Bytes} (h : data.length ≤ 2048) :
    (new data).data.take (new data).len = data := by
  show (data.take 2048 ++ _).take data.length = data
  rw [List.take_of_length_le h, List.take_left]

end Buffer

/-- `RawPacket`: a frame as a card hands it to the handler, with the card's id. -/
structure RawPacket where
  id : Nat
  buffer : Buffer
  deriving DecidableEq, Repr

/-- The bytes of the frame. -/
def RawPacket.frame (m : RawPacket) : Bytes := m.buffer.data.take m.buffer.len

end Rucoonos
