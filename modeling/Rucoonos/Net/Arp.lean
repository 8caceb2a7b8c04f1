/-
ARP packets: `extensions/networking/protocols/arp.rs`.
-/
import Rucoonos.Lib.BigEndian
import Rucoonos.Net.Ethernet

namespace Rucoonos.Arp

open Slice BigEndian

inductive Operation
  | request
  | response
  | unknown (raw : UInt16)
  deriving DecidableEq, Repr

/-- `impl From<u16> for Operation`. -/
def Operation.ofU16 (raw : UInt16) : Operation :=
  if raw = 1 then .request else if raw = 2 then .response else .unknown raw

/-- `impl Into<u16> for Operation`. -/
def Operation.toU16 : Operation → UInt16
  | .request => 1
  | .response => 2
  | .unknown raw => raw

/-- `Packet`, less the Ethernet packet it was made from. -/
structure Packet where
  hardwareTy : UInt16
  protocolTy : UInt16
  hardwareSize : UInt8
  protocolSize : UInt8
  rawOperation : UInt16
  srcMac : Mac
  srcIp : Ip
  destMac : Mac
  destIp : Ip
  deriving DecidableEq, Repr

/-- `Packet::new`. -/
def Packet.new (eth : Ethernet.Packet) : Exec (Option Packet) := do
  let content ← eth.content
  if content.length < 28 then return none
  let hardwareTy ← u16At content 0 2
  let protocolTy ← u16At content 2 4
  let hardwareSize ← index content 4
  let protocolSize ← index content 5
  let rawOperation ← u16At content 6 8
  let srcMac ← arrayAt 6 content 8 14
  let srcIp ← arrayAt 4 content 14 18
  let destMac ← arrayAt 6 content 18 24
  let destIp ← arrayAt 4 content 24 28
  return some { hardwareTy, protocolTy, hardwareSize, protocolSize, rawOperation,
                srcMac, srcIp, destMac, destIp }

def Packet.operation (p : Packet) : Operation := .ofU16 p.rawOperation

/-- `PacketBuilder<OperationState>`, with the states it is built from. -/
structure PacketBuilder where
  senderMac : Mac
  senderIp : Ip
  mac : Mac
  ip : Ip
  operation : UInt16

/-- What the closure of `finish` writes. -/
def PacketBuilder.writes (b : PacketBuilder) : List (Write UInt8) :=
  [⟨0, 2, [0, 1]⟩, ⟨2, 4, [0x08, 0x00]⟩, .one 4 6, .one 5 4,
    ⟨6, 8, u16ToBe b.operation⟩, ⟨8, 14, b.senderMac.toList⟩, ⟨14, 18, b.senderIp.toList⟩,
    ⟨18, 24, b.mac.toList⟩, ⟨24, 28, b.ip.toList⟩]

def PacketBuilder.finish (b : PacketBuilder) : Exec (Option Ethernet.Packet) :=
  Ethernet.PacketBuilder.finish ⟨b.senderMac, b.mac, Ethernet.EthType.arp.toBytes⟩
    (Writer.ofWrites b.writes 28)

end Rucoonos.Arp
