/-
ICMP messages: `extensions/networking/protocols/icmp.rs`.
-/
import Rucoonos.Net.Ipv4

namespace Rucoonos.Icmp

open Slice BigEndian

/-- `Type`. -/
inductive Kind
  | echoRequest (identifier sequence : UInt16)
  | echoReply (identifier sequence : UInt16)
  | unknown (raw : Vector UInt8 2)
  deriving DecidableEq, Repr

/-- `impl From<&[u8]> for Type`. -/
def Kind.ofBytes (raw : Bytes) : Exec Kind := do
  let ty ← index raw 0
  let subTy ← index raw 1
  if ty = 0 ∧ subTy = 0 then
    let identifier ← u16At raw 4 6
    let sequence ← u16At raw 6 8
    return .echoReply identifier sequence
  else if ty = 8 ∧ subTy = 0 then
    let identifier ← u16At raw 4 6
    let sequence ← u16At raw 6 8
    return .echoRequest identifier sequence
  else
    return .unknown (pair ty subTy)

/-- `impl Into<([u8; 2], [u8; 4])> for Type`. -/
def Kind.toBytes : Kind → Bytes × Bytes
  | .echoReply identifier sequence => ([0, 0], u16ToBe identifier ++ u16ToBe sequence)
  | .echoRequest identifier sequence => ([8, 0], u16ToBe identifier ++ u16ToBe sequence)
  | .unknown d => (d.toList, [0, 0, 0, 0])

structure Packet where
  ipPacket : Ipv4.Packet
  deriving DecidableEq, Repr

/-- `Packet::get_type`. -/
def Packet.getType (p : Packet) : Exec Kind := do
  let rawData ← p.ipPacket.payload
  Kind.ofBytes rawData

/-- The header size, the same for every type. -/
def Kind.headerSize : Kind → Nat
  | .echoReply .. => 8
  | .echoRequest .. => 8
  | .unknown _ => 8

/-- `Packet::payload`. -/
def Packet.payload (p : Packet) : Exec Bytes := do
  let rawPayload ← p.ipPacket.payload
  let offset := (← p.getType).headerSize
  range rawPayload offset rawPayload.length

/-- `PacketBuilder<TypeState>`. -/
structure PacketBuilder where
  ty : Kind

/-- The header, with the checksum left zero. -/
def PacketBuilder.writes (b : PacketBuilder) : List (Write UInt8) :=
  [⟨0, 2, b.ty.toBytes.1⟩, ⟨2, 4, [0, 0]⟩, ⟨4, 8, b.ty.toBytes.2⟩]

/-- What the closure of `finish` writes.  The result of `payload_func` is dropped. -/
def PacketBuilder.write (b : PacketBuilder) (payloadFunc : Writer) (payloadSize : Sizes)
    (payload : Bytes) : Exec (Bytes × Option Nat) := do
  let payload ← writeAll payload b.writes
  let (payload, _) ← onRange payload 8 payload.length payloadFunc.run
  let size ← addUsize b.ty.headerSize (payloadSize.call 0)
  let rawChecksum ← sumWords ((words payload).take (size / 2))
  let sum ← addU16 rawChecksum.toUInt16 (rawChecksum >>> 16).toUInt16
  let checksum := ~~~sum
  let payload ← copyFromSlice payload 2 4 (u16ToBe checksum)
  let written ← addUsize b.ty.headerSize (payloadSize.call 1)
  return (payload, some written)

theorem PacketBuilder.length_write {b : PacketBuilder} {payload : Writer} {payloadSize : Sizes}
    {s s' : Bytes} {r : Option Nat} (hrun : b.write payload payloadSize s = .ok (s', r)) :
    s'.length = s.length := by
  obtain ⟨s₁, h₁, hrun⟩ := bind_eq_ok.mp hrun
  obtain ⟨⟨s₂, written⟩, h₂, hrun⟩ := bind_eq_ok.mp hrun
  obtain ⟨size, -, hrun⟩ := bind_eq_ok.mp hrun
  obtain ⟨raw, -, hrun⟩ := bind_eq_ok.mp hrun
  obtain ⟨sum, -, hrun⟩ := bind_eq_ok.mp hrun
  obtain ⟨s₃, h₃, hrun⟩ := bind_eq_ok.mp hrun
  obtain ⟨total, -, hrun⟩ := bind_eq_ok.mp hrun
  cases hrun
  rw [length_of_copyFromSlice h₃, length_of_onRange payload.length_eq h₂, length_of_writeAll h₁]

def PacketBuilder.writer (b : PacketBuilder) (payloadFunc : Writer) (payloadSize : Sizes) :
    Writer where
  run := b.write payloadFunc payloadSize
  length_eq := fun _ _ _ => PacketBuilder.length_write

/-- `PacketBuilder::finish`.  Its closure calls `payload_size` twice. -/
def PacketBuilder.finish (b : PacketBuilder) (builder : Ipv4.PacketBuilder)
    (payloadFunc : Writer) (payloadSize : Sizes) : Exec (Option Ethernet.Packet) :=
  builder.finish (b.writer payloadFunc payloadSize.inner) (payloadSize.outer b.ty.headerSize 2)

end Rucoonos.Icmp
