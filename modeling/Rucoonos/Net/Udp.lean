/-
UDP datagrams: `extensions/networking/protocols/udp.rs`.
-/
import Rucoonos.Net.Ipv4

namespace Rucoonos.Udp

open Slice BigEndian

structure PacketHeader where
  sourcePort : UInt16
  destinationPort : UInt16
  length : UInt16
  checksum : UInt16
  deriving DecidableEq, Repr

/-- `impl TryFrom<&[u8]> for PacketHeader`. -/
def PacketHeader.tryFrom (value : Bytes) : Exec (Option PacketHeader) := do
  if value.length < 8 then return none
  let sourcePort ← u16At value 0 2
  let destinationPort ← u16At value 2 4
  let length ← u16At value 4 6
  let checksum ← u16At value 6 8
  return some { sourcePort, destinationPort, length, checksum }

/-- What `to_bytes` writes. -/
def PacketHeader.writes (h : PacketHeader) : List (Write UInt8) :=
  [⟨0, 2, u16ToBe h.sourcePort⟩,
    ⟨2, 4, u16ToBe h.destinationPort⟩,
    ⟨4, 6, u16ToBe h.length⟩,
    ⟨6, 8, u16ToBe h.checksum⟩]

/-- `PacketHeader::to_bytes`. -/
def PacketHeader.toBytes (h : PacketHeader) (buffer : Bytes) : Exec (Bytes × Option Unit) := do
  if buffer.length < 8 then return (buffer, none)
  let buffer ← writeAll buffer h.writes
  return (buffer, some ())

structure Packet where
  ipPacket : Ipv4.Packet
  deriving DecidableEq, Repr

/-- `Packet::header`. -/
def Packet.header (p : Packet) : Exec PacketHeader := do
  let payload ← p.ipPacket.payload
  let header ← PacketHeader.tryFrom (← range payload 0 8)
  unwrap header

/-- `Packet::payload`. -/
def Packet.payload (p : Packet) : Exec Bytes := do
  let payload ← p.ipPacket.payload
  range payload 8 payload.length

/-- `PacketBuilder<DestinationPort>`. -/
structure PacketBuilder where
  sourcePort : UInt16
  destinationPort : UInt16

def PacketBuilder.header (b : PacketBuilder) (payloadSize : Nat) : PacketHeader where
  sourcePort := b.sourcePort
  destinationPort := b.destinationPort
  length := UInt16.ofNat (8 + payloadSize)
  checksum := 0

/-- What the closure of `finish` writes. -/
def PacketBuilder.write (b : PacketBuilder) (payload : Writer) (payloadSize : Sizes)
    (ipPayload : Bytes) : Exec (Bytes × Option Nat) := do
  let _ ← addUsize 8 (payloadSize.call 0)
  let (ipPayload, _) ← onRange ipPayload 0 8 (b.header (payloadSize.call 0)).toBytes
  let (ipPayload, size) ← onRange ipPayload 8 ipPayload.length payload.run
  match size with
  | none => return (ipPayload, none)
  | some size =>
      assertEq size (payloadSize.call 1)
      let written ← addUsize 8 (payloadSize.call 2)
      return (ipPayload, some written)

theorem PacketHeader.length_toBytes {h : PacketHeader} {s s' : Bytes} {r : Option Unit}
    (hrun : h.toBytes s = .ok (s', r)) : s'.length = s.length := by
  unfold PacketHeader.toBytes at hrun
  split at hrun
  · cases hrun
    rfl
  · obtain ⟨t, ht, hrun⟩ := bind_eq_ok.mp hrun
    cases hrun
    exact length_of_writeAll ht

theorem PacketBuilder.length_write {b : PacketBuilder} {payload : Writer} {payloadSize : Sizes}
    {s s' : Bytes} {r : Option Nat} (hrun : b.write payload payloadSize s = .ok (s', r)) :
    s'.length = s.length := by
  obtain ⟨length, -, hrun⟩ := bind_eq_ok.mp hrun
  obtain ⟨⟨s₁, written⟩, h₁, hrun⟩ := bind_eq_ok.mp hrun
  obtain ⟨⟨s₂, size⟩, h₂, hrun⟩ := bind_eq_ok.mp hrun
  have hlen : s₂.length = s.length := by
    rw [length_of_onRange payload.length_eq h₂,
      length_of_onRange (fun _ _ _ => PacketHeader.length_toBytes) h₁]
  cases size with
  | none =>
      cases hrun
      exact hlen
  | some size =>
      obtain ⟨-, -, hrun⟩ := bind_eq_ok.mp hrun
      obtain ⟨written, -, hrun⟩ := bind_eq_ok.mp hrun
      cases hrun
      exact hlen

def PacketBuilder.writer (b : PacketBuilder) (payload : Writer) (payloadSize : Sizes) : Writer where
  run := b.write payload payloadSize
  length_eq := fun _ _ _ => PacketBuilder.length_write

/-- `PacketBuilder::finish`.  Its closure calls `payload_size` three times. -/
def PacketBuilder.finish (b : PacketBuilder) (ipPacketBuilder : Ipv4.PacketBuilder)
    (payload : Writer) (payloadSize : Sizes) : Exec (Option Ethernet.Packet) :=
  ipPacketBuilder.finish (b.writer payload payloadSize.inner) (payloadSize.outer 8 3)

end Rucoonos.Udp
