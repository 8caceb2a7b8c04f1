/-
The frames the handler sends, as a server reads them.

`clientMessage` reads a frame as a DHCP message from a client, port 68 to port 67.  The
Discover and the Request the handler builds are read as what they are, with the
transaction id and the address of the card they were built for; its ARP packets and
echo requests are not DHCP messages.
-/
import Rucoonos.Proofs.Net.Encoding

namespace Rucoonos.Net

open Slice BigEndian

/-- The DHCP message a frame carries to the server, if it carries one. -/
def clientMessage (frame : Ethernet.Packet) : Exec (Option Dhcp.Data) := do
  if (← frame.etherType) ≠ .ipv4 then return none
  let ipHeader ← Ipv4.Packet.header ⟨frame⟩
  if ipHeader.protocol ≠ .udp then return none
  let udpHeader ← Udp.Packet.header ⟨⟨frame⟩⟩
  if udpHeader.sourcePort ≠ 68 ∨ udpHeader.destinationPort ≠ 67 then return none
  let data ← Dhcp.Packet.get ⟨⟨⟨frame⟩⟩⟩
  return some data

def isDhcpRequest (frame : Ethernet.Packet) : Bool :=
  match clientMessage frame with
  | .ok (some data) => data.operation = .request
  | _ => false

/-- The hardware address of the client, six bytes by `hlen`. -/
def clientMac (data : Dhcp.Data) : Mac := data.chaddr.take 6

/-! ### Other messages -/

theorem arp_silent {b : Arp.PacketBuilder} {frame : Ethernet.Packet}
    (h : b.finish = .ok (some frame)) : isDhcpRequest frame = false := by
  obtain ⟨tail, written, hrun, hmax, rfl⟩ := Ethernet.PacketBuilder.finish_some h
  have hlen : (tail.take (max written 46)).length + 14 ≤ 2048 := by
    rw [List.length_take]
    omega
  obtain ⟨-, -, hty, -⟩ := Ethernet.PacketBuilder.read_header
    ⟨b.senderMac, b.mac, Ethernet.EthType.arp.toBytes⟩ hlen
  rw [isDhcpRequest, clientMessage, hty]
  rfl

theorem echo_silent {ip : Ip} {mac : Mac} {d : NetworkDevice} {frame : Ethernet.Packet}
    (h : echoRequest ip mac d = .ok (some frame)) : isDhcpRequest frame = false := by
  obtain ⟨hcarried, -⟩ := Icmp.PacketBuilder.finish_carried (by intro d hd; cases hd) h
  obtain ⟨header, hheader, -, -, -, -, -, hprotocol, -⟩ := hcarried.header
  rw [isDhcpRequest, clientMessage, hcarried.etherType, ok_bind, if_neg (by decide), hheader,
    ok_bind, if_pos (by rw [hprotocol]; intro hc; cases hc)]
  rfl

/-! ### Discover and Request -/

/-- A message the client builds is read as it was written. -/
theorem message_read {m : Dhcp.Message} {ownMac : Mac} {xid : UInt32} {ipIdent : UInt16}
    {frame : Ethernet.Packet} (h : m.build ownMac xid ipIdent = .ok (some frame)) :
    ∃ data, clientMessage frame = .ok (some data) ∧ data.operation = m.operation ∧
      data.xid = xid ∧ clientMac data = ownMac := by
  obtain ⟨hcarried, hudp, hpayload⟩ := Dhcp.Message.build_payload h
  obtain ⟨header, hheader, -, -, -, -, -, hprotocol, -⟩ := hcarried.header
  obtain ⟨data, hdata, hop, hxid, hchaddr, -⟩ := m.tryFrom_payload ownMac xid
  refine ⟨data, ?_, hop, hxid, ?_⟩
  · rw [clientMessage, hcarried.etherType, ok_bind, if_neg (by decide), hheader, ok_bind,
      if_neg (by rw [hprotocol]; exact not_not_intro rfl), hudp, ok_bind,
      if_neg (by intro hc; exact hc.elim (fun h => h rfl) (fun h => h rfl)), Dhcp.Packet.get,
      hpayload, ok_bind, hdata]
    rfl
  · refine Vector.toList_inj.mp ?_
    show (data.chaddr.take 6).toList = _
    rw [Vector.toList_take, hchaddr, List.take_left' ownMac.length_toList]

theorem discover_read {ownMac : Mac} {xid : UInt32} {ipIdent : UInt16} {frame : Ethernet.Packet}
    (h : Dhcp.discoverMessage ownMac xid ipIdent = .ok (some frame)) :
    ∃ data, clientMessage frame = .ok (some data) ∧ data.operation = .discover ∧
      data.xid = xid ∧ clientMac data = ownMac :=
  message_read (m := .discover) h

theorem request_read {ownMac : Mac} {xid : UInt32} {ip serverIp : Ip} {ipIdent : UInt16}
    {frame : Ethernet.Packet}
    (h : Dhcp.requestMessage ownMac xid ip serverIp ipIdent = .ok (some frame)) :
    ∃ data, clientMessage frame = .ok (some data) ∧ data.operation = .request ∧
      data.xid = xid ∧ clientMac data = ownMac :=
  message_read (m := .request ip serverIp) h

end Rucoonos.Net
