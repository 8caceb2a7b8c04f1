/-
DHCP messages: `extensions/networking/protocols/dhcp.rs`.
-/
import Rucoonos.Net.Udp

namespace Rucoonos.Dhcp

open Slice BigEndian

inductive Operation
  | discover
  | offer
  | request
  | ack
  | unknown (raw : UInt8)
  deriving DecidableEq, Repr

/-- `impl From<u8> for Operation`. -/
def Operation.ofU8 (raw : UInt8) : Operation :=
  if raw = 1 then .discover
  else if raw = 2 then .offer
  else if raw = 3 then .request
  else if raw = 5 then .ack
  else .unknown raw

structure Data where
  op : UInt8
  htype : UInt8
  hlen : UInt8
  hops : UInt8
  xid : UInt32
  secs : UInt16
  flags : UInt16
  ciaddr : Ip
  yiaddr : Ip
  siaddr : Ip
  giaddr : Ip
  chaddr : Vector UInt8 16
  operation : Operation
  deriving DecidableEq, Repr

/-- The option loop of `try_from`, on what is left of the iterator.  Every pass takes at
least one byte, so with as many passes as there are bytes the loop only stops where the
code does. -/
def rawOp : Nat → Bytes → Exec UInt8
  | 0, _ => .error .unwrap
  | fuel + 1, iter =>
      match iter with
      | [] => .error .unwrap
      | optionCode :: iter =>
          if optionCode = 53 then
            match iter.drop 1 with
            | [] => .error .unwrap
            | value :: _ => .ok value
          else
            match iter with
            | [] => .error .unwrap
            | len :: iter =>
                -- `len - 1` overflows on an option of length 0.
                if len = 0 then .error .overflow else rawOp fuel (iter.drop len.toNat)

/-- `impl TryFrom<&[u8]> for Data`. -/
def Data.tryFrom (value : Bytes) : Exec (Option Data) := do
  if value.length < 244 then return none
  let rawOp ← rawOp value.length (value.drop (44 + 192 + 4))
  return some {
    op := ← index value 0
    htype := ← index value 1
    hlen := ← index value 2
    hops := ← index value 3
    xid := ← u32At value 4 8
    secs := ← u16At value 8 10
    flags := ← u16At value 10 12
    ciaddr := ← arrayAt 4 value 12 16
    yiaddr := ← arrayAt 4 value 16 20
    siaddr := ← arrayAt 4 value 20 24
    giaddr := ← arrayAt 4 value 24 28
    chaddr := ← arrayAt 16 value 28 44
    operation := .ofU8 rawOp }

structure Packet where
  datagram : Udp.Packet
  deriving DecidableEq, Repr

/-- `Packet::get`. -/
def Packet.get (p : Packet) : Exec Data := do
  let payload ← p.datagram.payload
  let data ← Data.tryFrom payload
  unwrap data

/-- The UDP and IPv4 builders of both messages. -/
def udpBuilder : Udp.PacketBuilder := ⟨68, 67⟩

def ipBuilder (ownMac : Mac) (ipIdent : UInt16) : Ipv4.PacketBuilder where
  dscp := 0
  ident := ipIdent
  ttl := 20
  protocol := .udp
  source := noIp
  sourceMac := ownMac
  destination := #v[255, 255, 255, 255]
  destinationMac := broadcastMac

def discoverWrites (ownMac : Mac) (xid : UInt32) : List (Write UInt8) :=
  [.one 0 0x1, .one 1 0x1, .one 2 0x6, .one 3 0x0,
    ⟨4, 8, u32ToBe xid⟩, ⟨8, 10, [0, 0]⟩, ⟨10, 12, [0x80, 0]⟩,
    ⟨12, 16, [0, 0, 0, 0]⟩, ⟨16, 20, [0, 0, 0, 0]⟩,
    ⟨20, 24, [0, 0, 0, 0]⟩, ⟨24, 28, [0, 0, 0, 0]⟩,
    ⟨28, 34, ownMac.toList⟩,
    ⟨236, 240, u32ToBe 0x63825363⟩,
    .one 240 53, .one 241 1, .one 242 1, .one 243 0xff]

/-- `discover_message`. -/
def discoverMessage (ownMac : Mac) (xid : UInt32) (ipIdent : UInt16) :
    Exec (Option Ethernet.Packet) :=
  udpBuilder.finish (ipBuilder ownMac ipIdent) (.ofWrites (discoverWrites ownMac xid) 244) 244

def requestWrites (ownMac : Mac) (xid : UInt32) (ip serverIp : Ip) : List (Write UInt8) :=
  [.one 0 0x1, .one 1 0x1, .one 2 0x6, .one 3 0x0,
    ⟨4, 8, u32ToBe xid⟩, ⟨8, 10, [0, 0]⟩, ⟨10, 12, [0x80, 0]⟩,
    ⟨12, 16, ip.toList⟩, ⟨16, 20, [0, 0, 0, 0]⟩,
    ⟨20, 24, serverIp.toList⟩, ⟨24, 28, [0, 0, 0, 0]⟩,
    ⟨28, 34, ownMac.toList⟩,
    ⟨236, 240, u32ToBe 0x63825363⟩,
    .one 240 53, .one 241 1, .one 242 3,
    .one 243 54, .one 244 4, ⟨245, 249, serverIp.toList⟩,
    .one 250 50, .one 251 4, ⟨252, 256, ip.toList⟩,
    .one 257 0xff]

/-- `request_message`. -/
def requestMessage (ownMac : Mac) (xid : UInt32) (ip serverIp : Ip) (ipIdent : UInt16) :
    Exec (Option Ethernet.Packet) :=
  udpBuilder.finish (ipBuilder ownMac ipIdent)
    (.ofWrites (requestWrites ownMac xid ip serverIp) 257) 257

end Rucoonos.Dhcp
