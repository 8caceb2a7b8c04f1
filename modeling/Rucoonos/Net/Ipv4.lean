/-
IPv4 packets: `extensions/networking/protocols/ipv4.rs`.
-/
import Rucoonos.Lib.BigEndian
import Rucoonos.Net.Ethernet

namespace Rucoonos.Ipv4

open Slice BigEndian

inductive Protocol
  | icmp
  | udp
  | tcp
  | unknown (raw : UInt8)
  deriving DecidableEq, Repr

/-- `impl Into<u8> for Protocol`. -/
def Protocol.toU8 : Protocol → UInt8
  | .icmp => 1
  | .udp => 17
  | .tcp => 6
  | .unknown proto => proto

/-- `impl From<u8> for Protocol`. -/
def Protocol.ofU8 (raw : UInt8) : Protocol :=
  if raw = 1 then .icmp else if raw = 6 then .tcp else if raw = 17 then .udp else .unknown raw

structure PacketHeader where
  version : UInt8
  ihl : UInt8
  dscp : UInt8
  ecn : UInt8
  totalLength : UInt16
  identification : UInt16
  flags : UInt8
  fragmentOffset : UInt16
  ttl : UInt8
  protocol : Protocol
  headerChecksum : UInt16
  sourceIp : Ip
  destinationIp : Ip
  deriving DecidableEq, Repr

/-- What `to_bytes` writes up to the fragment offset. -/
def PacketHeader.front (h : PacketHeader) : List (Write UInt8) :=
  [.one 0 ((0 : UInt8) ||| (h.version <<< 4) ||| (h.ihl &&& 0x0f)),
    .one 1 ((0 : UInt8) ||| (h.dscp <<< 1) ||| (h.ecn &&& 0x01)),
    ⟨2, 4, u16ToBe h.totalLength⟩,
    ⟨4, 6, u16ToBe h.identification⟩,
    ⟨6, 8, u16ToBe h.fragmentOffset⟩]

/-- What it writes from there on, the flags over the high byte of the fragment offset. -/
def PacketHeader.back (h : PacketHeader) (high : UInt8) : List (Write UInt8) :=
  [.one 6 (high ||| (h.flags <<< 5)),
    .one 8 h.ttl,
    .one 9 h.protocol.toU8,
    ⟨10, 12, u16ToBe h.headerChecksum⟩,
    ⟨12, 16, h.sourceIp.toList⟩,
    ⟨16, 20, h.destinationIp.toList⟩]

/-- `PacketHeader::to_bytes`. -/
def PacketHeader.toBytes (h : PacketHeader) (target : Bytes) : Exec (Bytes × Option Unit) := do
  if target.length < 20 then return (target, none)
  let target ← writeAll target h.front
  let high ← index target 6
  let target ← writeAll target (h.back high)
  return (target, some ())

/-- `PacketHeader::set_checksum`. -/
def PacketHeader.setChecksum (h : PacketHeader) : Exec PacketHeader := do
  let h := { h with headerChecksum := 0 }
  let (rawBytes, _) ← h.toBytes (zeros 20)
  let rawResult ← sumWords (words rawBytes)
  let overflows := (rawResult >>> 16).toUInt16
  let rawChecksum := (rawResult &&& 0xffff).toUInt16
  let sum ← addU16 rawChecksum overflows
  return { h with headerChecksum := ~~~sum }

structure Packet where
  ethPacket : Ethernet.Packet
  deriving DecidableEq, Repr

/-- The `ihl` field times four, as `header` and `payload` read it. -/
def headerSize (rawData : Bytes) : Exec Nat := do
  let first ← index rawData 0
  let ihl := (first &&& 0x0f).toNat
  return ihl * 4

/-- The fields of a header, as `Packet::header` reads them. -/
def PacketHeader.read (headerData : Bytes) : Exec PacketHeader := do
  return {
    version := (← index headerData 0) >>> 4
    ihl := (← index headerData 0) &&& 0x0f
    dscp := (← index headerData 1) >>> 2
    ecn := (← index headerData 1) &&& 0x03
    totalLength := ← u16At headerData 2 4
    identification := ← u16At headerData 4 6
    flags := (← index headerData 7) >>> 5
    fragmentOffset := u16FromBe #v[(← index headerData 7) &&& 0x1f, ← index headerData 8]
    ttl := ← index headerData 8
    protocol := .ofU8 (← index headerData 9)
    headerChecksum := ← u16At headerData 10 12
    sourceIp := ← arrayAt 4 headerData 12 16
    destinationIp := ← arrayAt 4 headerData 16 20 }

/-- `Packet::header`. -/
def Packet.header (p : Packet) : Exec PacketHeader := do
  let rawData ← p.ethPacket.content
  let headerSize ← headerSize rawData
  let headerData ← range rawData 0 headerSize
  PacketHeader.read headerData

/-- `Packet::payload`. -/
def Packet.payload (p : Packet) : Exec Bytes := do
  let rawData ← p.ethPacket.content
  let headerSize ← headerSize rawData
  range rawData headerSize rawData.length

/-- `PacketBuilder<DestinationState>`. -/
structure PacketBuilder where
  dscp : UInt8
  ident : UInt16
  ttl : UInt8
  protocol : Protocol
  source : Ip
  sourceMac : Mac
  destination : Ip
  destinationMac : Mac

/-- The header `finish` starts from. -/
def PacketBuilder.header (b : PacketBuilder) (payloadSize : Nat) : PacketHeader where
  version := 4
  ihl := 5
  dscp := b.dscp
  ecn := 0
  totalLength := UInt16.ofNat (20 + payloadSize)
  identification := b.ident
  flags := 0
  fragmentOffset := 0
  ttl := b.ttl
  protocol := b.protocol
  headerChecksum := 0
  sourceIp := b.source
  destinationIp := b.destination

/-- What the closure of `finish` writes. -/
def PacketBuilder.write (b : PacketBuilder) (payload : Writer) (payloadSize : Sizes)
    (ethPayload : Bytes) : Exec (Bytes × Option Nat) := do
  let _ ← addUsize 20 (payloadSize.call 0)
  let header ← (b.header (payloadSize.call 0)).setChecksum
  let (ethPayload, written) ← onRange ethPayload 0 20 header.toBytes
  unwrap written
  let (ethPayload, size) ← onRange ethPayload 20 ethPayload.length payload.run
  match size with
  | none => return (ethPayload, none)
  | some size =>
      assertEq size (payloadSize.call 1)
      let written ← addUsize 20 (payloadSize.call 2)
      return (ethPayload, some written)

theorem PacketHeader.length_toBytes {h : PacketHeader} {target target' : Bytes} {r : Option Unit}
    (hrun : h.toBytes target = .ok (target', r)) : target'.length = target.length := by
  unfold PacketHeader.toBytes at hrun
  split at hrun
  · cases hrun
    rfl
  · obtain ⟨t₁, h₁, hrun⟩ := bind_eq_ok.mp hrun
    obtain ⟨high, -, hrun⟩ := bind_eq_ok.mp hrun
    obtain ⟨t₂, h₂, hrun⟩ := bind_eq_ok.mp hrun
    cases hrun
    rw [length_of_writeAll h₂, length_of_writeAll h₁]

theorem PacketBuilder.length_write {b : PacketBuilder} {payload : Writer} {payloadSize : Sizes}
    {s s' : Bytes} {r : Option Nat} (hrun : b.write payload payloadSize s = .ok (s', r)) :
    s'.length = s.length := by
  obtain ⟨total, -, hrun⟩ := bind_eq_ok.mp hrun
  obtain ⟨header, -, hrun⟩ := bind_eq_ok.mp hrun
  obtain ⟨⟨s₁, written⟩, h₁, hrun⟩ := bind_eq_ok.mp hrun
  obtain ⟨-, -, hrun⟩ := bind_eq_ok.mp hrun
  obtain ⟨⟨s₂, size⟩, h₂, hrun⟩ := bind_eq_ok.mp hrun
  have hlen : s₂.length = s.length := by
    rw [length_of_onRange payload.length_eq h₂,
      length_of_onRange (fun _ _ _ => PacketHeader.length_toBytes) h₁]
  cases size with
  | none =>
      cases hrun
      exact hlen
  | some size =>
      obtain ⟨-, -, hrun⟩ := bind_eq_ok.mp hrun
      obtain ⟨written, -, hrun⟩ := bind_eq_ok.mp hrun
      cases hrun
      exact hlen

def PacketBuilder.writer (b : PacketBuilder) (payload : Writer) (payloadSize : Sizes) : Writer where
  run := b.write payload payloadSize
  length_eq := fun _ _ _ => PacketBuilder.length_write

/-- `PacketBuilder::finish`. -/
def PacketBuilder.finish (b : PacketBuilder) (payload : Writer) (payloadSize : Sizes) :
    Exec (Option Ethernet.Packet) :=
  Ethernet.PacketBuilder.finish ⟨b.sourceMac, b.destinationMac, Ethernet.EthType.ipv4.toBytes⟩
    (b.writer payload payloadSize)

end Rucoonos.Ipv4
