/-
Ethernet frames: `extensions/networking/protocols/ethernet.rs`.

The accessors read the 2048 bytes of the buffer, so the header can be read out of a
frame that is too short for it; only `content` looks at the recorded length.

A builder takes the payload from a closure that writes into the slice it is handed.
`Writer` is such a closure: it may panic or fail, and it cannot change the length of
the slice.  A second closure gives the size of the payload.  The builders call it several
times, and nothing says that it returns the same every time; a `Nat` stands for one that
does.
-/
import Rucoonos.Lib.Slice
import Rucoonos.Net.Buffer

namespace Rucoonos

open Slice

/-- `[u8; 6]`. -/
abbrev Mac := Vector UInt8 6

/-- `[u8; 4]`. -/
abbrev Ip := Vector UInt8 4

def broadcastMac : Mac := Vector.replicate 6 0xff

/-- The address of a device that has none. -/
def noIp : Ip := #v[0, 0, 0, 0]

/-- `FnOnce(&mut [u8]) -> Result<usize, ()>`: what the slice holds afterwards, and the
result. -/
structure Writer where
  run : Bytes → Exec (Bytes × Option Nat)
  length_eq : ∀ b b' r, run b = .ok (b', r) → b'.length = b.length

/-- The closure that does some writes and returns `Ok(n)`. -/
def Writer.ofWrites (ws : List (Write UInt8)) (n : Nat) : Writer where
  run b := do
    let b ← writeAll b ws
    return (b, some n)
  length_eq := by
    intro b b' r h
    obtain ⟨mid, hmid, h⟩ := bind_eq_ok.mp h
    cases h
    exact length_of_writeAll hmid

/-- `Fn() -> usize`: what its calls return, one after the other. -/
structure Sizes where
  call : Nat → Nat

/-- The closure that always returns `n`. -/
@[coe] def Sizes.always (n : Nat) : Sizes := ⟨fun _ => n⟩

instance Sizes.instCoe : Coe Nat Sizes := ⟨Sizes.always⟩

instance Sizes.instOfNat (n : Nat) : OfNat Sizes n := ⟨.always n⟩

/-- The calls of a builder's own closure, when the layer below has made the first one. -/
def Sizes.inner (s : Sizes) : Sizes := ⟨fun k => s.call (k + 1)⟩

/-- What a builder with a header of `header` bytes hands to the layer below, whose second
call comes after `calls` calls of the builder's own closure. -/
def Sizes.outer (s : Sizes) (header calls : Nat) : Sizes :=
  ⟨fun k => header + s.call (if k = 0 then 0 else k + calls)⟩

@[simp] theorem Sizes.call_always (n k : Nat) : (Sizes.always n).call k = n := rfl

namespace Ethernet

inductive EthType
  | ipv4
  | ipv6
  | arp
  | wakeOnLan
  | unknown (raw : Vector UInt8 2)
  deriving DecidableEq, Repr

/-- `impl From<[u8; 2]> for EthType`. -/
def EthType.ofBytes (raw : Vector UInt8 2) : EthType :=
  if raw = #v[0x08, 0x00] then .ipv4
  else if raw = #v[0x08, 0x06] then .arp
  else if raw = #v[0x08, 0x42] then .wakeOnLan
  else if raw = #v[0x86, 0xdd] then .ipv6
  else .unknown raw

/-- `impl Into<[u8; 2]> for EthType`. -/
def EthType.toBytes : EthType → Vector UInt8 2
  | .ipv4 => #v[0x08, 0x00]
  | .arp => #v[0x08, 0x06]
  | .wakeOnLan => #v[0x08, 0x42]
  | .ipv6 => #v[0x86, 0xdd]
  | .unknown u => u

structure Packet where
  buffer : Buffer
  deriving DecidableEq, Repr

def Packet.destinationMac (p : Packet) : Exec Mac := arrayAt 6 p.buffer.asRef 0 6

def Packet.sourceMac (p : Packet) : Exec Mac := arrayAt 6 p.buffer.asRef 6 12

def Packet.etherType (p : Packet) : Exec EthType := do
  let bytes ← arrayAt 2 p.buffer.asRef 12 14
  return EthType.ofBytes bytes

def Packet.content (p : Packet) : Exec Bytes := range p.buffer.asRef 14 p.buffer.len

/-- `PacketBuilder<EtherTypeState>`. -/
structure PacketBuilder where
  source : Mac
  destination : Mac
  etherTy : Vector UInt8 2

/-- The content of a frame, with the header and no payload. -/
def PacketBuilder.start (b : PacketBuilder) : Exec Bytes :=
  writeAll (zeros 1500) [
    ⟨0, 6, b.destination.toList⟩, ⟨6, 12, b.source.toList⟩, ⟨12, 14, b.etherTy.toList⟩]

/-- `PacketBuilder::finish`. -/
def PacketBuilder.finish (b : PacketBuilder) (payload : Writer) : Exec (Option Packet) := do
  let content ← b.start
  let (content, writtenLen) ← onRange content 14 content.length payload.run
  match writtenLen with
  | none => return none
  | some writtenLen =>
      let len := max writtenLen 46
      let frame ← range content 0 (len + 14)
      return some ⟨Buffer.new frame⟩

end Ethernet

end Rucoonos
