/-
A DHCP packet and what the handler answers.

Once a packet from port 67 to port 68 has been parsed the handler cannot fail any more:
the one message it may have to build is a Request, and a Request can always be built.
So the handler gets through with a packet exactly if `dhcp::Packet::get` does.

The Request names the offered address and the server.  The address is the one in the
Offer.  The server is taken from `siaddr`, which is the next server of the boot
process, and not from option 54, which is the one that identifies the server; they
agree only on servers that are both.
-/
import Rucoonos.Proofs.Net.Dhcp

namespace Rucoonos.Net

open Slice BigEndian

/-! ### The handler gets through -/

theorem request_returns (mac : Mac) (xid : UInt32) (ip serverIp : Ip) :
    ∃ request, Dhcp.requestMessage mac xid ip serverIp 0 = .ok (some request) :=
  Dhcp.Message.build_returns (m := .request ip serverIp)
    (show ¬ OnesComplement.CarriesTwice 65535 (153891 + (0 : UInt16).toNat + (8 + 257)) by decide)

/-- The answer to the Offer a device waits for. -/
theorem handleDhcp_offer {device : NetworkDevice} {data : Dhcp.Data} {indicator : Nat}
    (hdhcp : device.metadata.dhcp = .discover indicator data.xid) (hop : data.operation = .offer)
    (h : Handler) :
    ∃ request, Dhcp.requestMessage device.metadata.mac data.xid data.yiaddr data.siaddr 0
        = .ok (some request) ∧
      handleDhcp device data h = .ok (h.update device.id fun d =>
        { d.enqueue request with metadata := { d.metadata with
            dhcp := .requested indicator data.xid data.yiaddr data.siaddr } }) := by
  obtain ⟨request, hrequest⟩ :=
    request_returns device.metadata.mac data.xid data.yiaddr data.siaddr
  refine ⟨request, hrequest, ?_⟩
  rw [handleDhcp, hdhcp, hop]
  dsimp only
  rw [if_neg (not_not_intro rfl), hrequest]
  rfl

theorem ends_handleDhcp (device : NetworkDevice) (data : Dhcp.Data) (h : Handler) :
    Ends (handleDhcp device data h) := by
  unfold handleDhcp
  split
  · rename_i indicator transactionId hdhcp hop
    obtain ⟨request, hrequest⟩ :=
      request_returns device.metadata.mac transactionId data.yiaddr data.siaddr
    split
    · exact ends_ok h
    · dsimp only
      rw [hrequest]
      exact ends_ok _
  · split
    · exact ends_ok h
    · exact ends_ok _
  · exact ends_ok h

/--
**Which payloads can be parsed.**  For every payload, `try_from` returns exactly if the
payload is too short for a message or its options are whole and not empty up to a
message type.  A packet with this payload from port 67 to port 68 leaves the handler
running, whatever the device and the handler, exactly if the payload is also long enough.
-/
theorem dhcp_parsing_ends_iff (value : Bytes) :
    (Ends (Dhcp.Data.tryFrom value) ↔
      value.length < 244 ∨ ∃ type, Dhcp.Typed (value.drop 240) type) ∧
    ∀ (device : NetworkDevice) (h : Handler) (p : Udp.Packet) (header : Udp.PacketHeader),
      p.header = .ok header → header.sourcePort = 67 → header.destinationPort = 68 →
      p.payload = .ok value →
        (Ends (Dhcp.Packet.get ⟨p⟩) ↔
          244 ≤ value.length ∧ ∃ type, Dhcp.Typed (value.drop 240) type) ∧
        (Ends (handleUdp device p h) ↔
          244 ≤ value.length ∧ ∃ type, Dhcp.Typed (value.drop 240) type) := by
  refine ⟨Dhcp.Data.ends_tryFrom, ?_⟩
  intro device h p header hheader hsource hdestination hpayload
  refine ⟨Dhcp.Packet.ends_get hpayload, ?_⟩
  rw [← Dhcp.Packet.ends_get hpayload, handleUdp, hheader, ok_bind, if_pos ⟨hsource, hdestination⟩,
    ends_bind]
  constructor
  · rintro ⟨data, hdata, -⟩
    exact ⟨data, hdata⟩
  · rintro ⟨data, hdata⟩
    exact ⟨data, hdata, ends_handleDhcp device data h⟩

/-- A payload with these options, from a server to the client. -/
def serverPayload (options : Bytes) : Bytes := zeros 240 ++ options

def serverPacket (payload : Bytes) : Exec (Option Ethernet.Packet) :=
  Udp.PacketBuilder.finish ⟨67, 68⟩ sampleBuilder
    (.ofWrites [⟨0, payload.length, payload⟩] payload.length) payload.length

theorem dhcp_parsing_ends_ack : ∃ frame,
    serverPacket (serverPayload [53, 1, 5, 255]) = .ok (some frame) ∧
      Ends (handleUdp (.new 0 broadcastMac) ⟨⟨frame⟩⟩ oneWaiter) := by
  obtain ⟨frame, hframe⟩ := exists_of_succeeds
    (by decide +kernel : succeeds (serverPacket (serverPayload [53, 1, 5, 255])))
  obtain ⟨-, hheader, rest, hrun, hpayload⟩ := Udp.PacketBuilder.finish_carried hframe
  rw [(Writer.ofWrites_front _).padded (by decide +kernel) hrun] at hpayload
  obtain ⟨-, hends⟩ := (dhcp_parsing_ends_iff _).2 (.new 0 broadcastMac) oneWaiter ⟨⟨frame⟩⟩ _
    hheader rfl rfl hpayload
  refine ⟨frame, hframe, hends.mpr ⟨by decide +kernel, 5, [], 1, [255], ?_, ?_⟩⟩
  · exact List.forall_mem_nil _
  · decide +kernel

/-- A message without a type, one that starts with padding, and one with an empty option;
and a packet that is too short for a message. -/
theorem dhcp_parsing_panics :
    Dhcp.Data.tryFrom (serverPayload [1, 4, 255, 255, 255, 0, 255]) = .error .unwrap ∧
    Dhcp.Data.tryFrom (serverPayload [0, 53, 1, 5, 255]) = .error .unwrap ∧
    Dhcp.Data.tryFrom (serverPayload [80, 0, 53, 1, 5, 255]) = .error .overflow ∧
    ∃ frame, serverPacket [97, 98, 99] = .ok (some frame) ∧
      handleUdp (.new 0 broadcastMac) ⟨⟨frame⟩⟩ oneWaiter = .error .unwrap := by
  refine ⟨by decide +kernel, by decide +kernel, by decide +kernel, ?_⟩
  obtain ⟨frame, hframe⟩ := exists_of_succeeds
    (by decide +kernel : succeeds (serverPacket [97, 98, 99]))
  obtain ⟨-, hheader, rest, hrun, hpayload⟩ := Udp.PacketBuilder.finish_carried hframe
  rw [(Writer.ofWrites_front _).padded (by decide) hrun] at hpayload
  refine ⟨frame, hframe, ?_⟩
  rw [handleUdp, hheader, ok_bind, if_pos ⟨rfl, rfl⟩, Dhcp.Packet.get, hpayload, ok_bind,
    Dhcp.Data.tryFrom, if_pos (by decide)]
  rfl

/-! ### The Request names what the Offer named -/

/-- The data of an option in a DHCP message, padding and end read as what they are. -/
def dhcpOption (code : UInt8) (frame : Ethernet.Packet) : Option Bytes :=
  (Udp.Packet.payload ⟨⟨frame⟩⟩).toOption.bind fun payload =>
    Tlv.lookup code (Tlv.read 0 255 (payload.drop 240)).1

theorem dhcpOption_build {m : Dhcp.Message} {ownMac : Mac} {xid : UInt32} {ipIdent : UInt16}
    {frame : Ethernet.Packet} (h : m.build ownMac xid ipIdent = .ok (some frame)) (code : UInt8) :
    dhcpOption code frame = Tlv.lookup code m.options := by
  obtain ⟨-, -, hpayload⟩ := Dhcp.Message.build_payload h
  rw [dhcpOption, hpayload]
  show Tlv.lookup code (Tlv.read 0 255 ((m.payload ownMac xid).drop 240)).1 = _
  rw [Dhcp.Message.read_options]

theorem dhcpOption_request {mac : Mac} {xid : UInt32} {ip serverIp : Ip} {ipIdent : UInt16}
    {frame : Ethernet.Packet}
    (h : Dhcp.requestMessage mac xid ip serverIp ipIdent = .ok (some frame)) :
    dhcpOption 50 frame = some ip.toList ∧ dhcpOption 54 frame = some serverIp.toList := by
  have hoption := dhcpOption_build (m := .request ip serverIp) h
  exact ⟨hoption 50, hoption 54⟩

/-- The Offer a device waits for makes the handler send one packet, the Request. -/
theorem handlePacket_offer {h : Handler} {raw : RawPacket} {device : NetworkDevice}
    {indicator : Nat} {data : Dhcp.Data}
    (hfound : h.devices.find? (fun d => d.id == raw.id) = some device)
    (hframe : dhcpFrame device.metadata.mac ⟨raw.buffer⟩ = some data)
    (hdhcp : device.metadata.dhcp = .discover indicator data.xid)
    (hop : data.operation = .offer) :
    ∃ h' request, handlePacket raw h = .ok h' ∧ transmitted h h' = [request] ∧
      Dhcp.requestMessage device.metadata.mac data.xid data.yiaddr data.siaddr 0
        = .ok (some request) := by
  obtain ⟨seen, hseen, hdata⟩ := Option.bind_eq_some_iff.mp hframe
  have hinspect := eq_ok_of_toOption hseen
  obtain ⟨request, hrequest, hrun⟩ := handleDhcp_offer hdhcp hop h
  have hid : device.id = raw.id := by
    have hbeq := List.find?_some hfound
    rwa [beq_iff_eq] at hbeq
  have hhandled : handlePacket raw h = handleDhcp device data h := by
    rw [handlePacket, hfound]
    show handleFrame device ⟨raw.buffer⟩ h = _
    rw [handleFrame_eq, hinspect, ok_bind, act_dhcp (inspect_reads hinspect) hdata]
  refine ⟨_, request, hhandled.trans hrun, ?_, hrequest⟩
  rw [transmitted_update _ (by rw [hid]; exact hfound)]
  show (device.packetQueue ++ [request]).drop device.packetQueue.length = _
  rw [List.drop_left]

/--
**When the Request answers the Offer.**  A device in `Discover`, any Offer to it with its
transaction id, whatever its options and their order as long as the parser gets through:
the one packet the handler sends is a Request with the transaction id, the offered
address in option 50 and in option 54 what the Offer has in its option 54, exactly if
that is the address in the Offer's `siaddr`.
-/
theorem request_answers_offer_iff (h : Handler) (raw : RawPacket) (device : NetworkDevice)
    (indicator : Nat) (data : Dhcp.Data)
    (hfound : h.devices.find? (fun d => d.id == raw.id) = some device)
    (hframe : dhcpFrame device.metadata.mac ⟨raw.buffer⟩ = some data)
    (hdhcp : device.metadata.dhcp = .discover indicator data.xid)
    (hop : data.operation = .offer) :
    (∃ h' request asked, handlePacket raw h = .ok h' ∧ transmitted h h' = [request] ∧
      clientMessage request = .ok (some asked) ∧ asked.operation = .request ∧
      asked.xid = data.xid ∧ dhcpOption 50 request = some data.yiaddr.toList ∧
      dhcpOption 54 request = dhcpOption 54 ⟨raw.buffer⟩) ↔
      dhcpOption 54 ⟨raw.buffer⟩ = some data.siaddr.toList := by
  obtain ⟨h', request, hrun, hsent, hrequest⟩ := handlePacket_offer hfound hframe hdhcp hop
  obtain ⟨hip, hserver⟩ := dhcpOption_request hrequest
  constructor
  · rintro ⟨h'', request', -, hrun', hsent', -, -, -, -, hsame⟩
    rw [hrun] at hrun'
    cases hrun'
    rw [hsent] at hsent'
    cases hsent'
    rw [← hsame, hserver]
  · intro hidentifier
    obtain ⟨asked, hasked, hoperation, hxid, -⟩ := request_read hrequest
    exact ⟨h', request, asked, hrun, hsent, hasked, hoperation, hxid, hip,
      hserver.trans hidentifier.symm⟩

/-- An Offer from the server at 10.0.2.2, with this address as the next server. -/
def identifiedOffer (siaddr : Ip) : Bytes :=
  [broadcastMac.toList, [0x52, 0x55, 0x0a, 0x00, 0x02, 0x02], [0x08, 0x00],
    [0x45, 0], u16ToBe 278, zeros 4, [64, 17], zeros 2, hostIp.toList, [255, 255, 255, 255],
    u16ToBe 67, u16ToBe 68, u16ToBe 258, zeros 2,
    [2, 1, 6, 0], u32ToBe txId, zeros 8, ipA.toList, siaddr.toList, zeros 4,
    macA.toList, zeros 10, zeros 192, u32ToBe 0x63825363,
    [54, 4], hostIp.toList, [53, 1, 2, 255]].flatten

/-- A handler with one card, whose exchange has just started. -/
def discovering : Handler :=
  { oneWaiter with devices := [⟨0, ⟨macA, none, .discover 0 txId⟩, []⟩] }

theorem request_answers_offer_same :
    ∃ h' request, handlePacket ⟨0, .new (identifiedOffer hostIp)⟩ discovering = .ok h' ∧
      transmitted discovering h' = [request] ∧
      dhcpOption 54 request = dhcpOption 54 ⟨.new (identifiedOffer hostIp)⟩ := by
  have hread : (dhcpFrame macA ⟨.new (identifiedOffer hostIp)⟩).map
      (fun data => (data.operation, data.xid, data.siaddr)) = some (.offer, txId, hostIp) := by
    decide +kernel
  obtain ⟨data, hframe, hfields⟩ := Option.map_eq_some_iff.mp hread
  obtain ⟨hop, hrest⟩ := Prod.mk.inj hfields
  obtain ⟨hxid, hsiaddr⟩ := Prod.mk.inj hrest
  have hidentifier : dhcpOption 54 ⟨.new (identifiedOffer hostIp)⟩ = some data.siaddr.toList := by
    rw [hsiaddr]
    decide +kernel
  obtain ⟨h', request, -, hrun, hsent, -, -, -, -, hsame⟩ :=
    (request_answers_offer_iff discovering ⟨0, .new (identifiedOffer hostIp)⟩
      ⟨0, ⟨macA, none, .discover 0 txId⟩, []⟩ 0 data rfl hframe (by rw [hxid]) hop).mpr hidentifier
  exact ⟨h', request, hrun, hsent, hsame⟩

/-- The server leaves the next server open: the Request is for a server at 0.0.0.0. -/
theorem identifier_lost :
    dhcpOption 54 ⟨.new (identifiedOffer noIp)⟩ = some [10, 0, 2, 2] ∧
    ((handlePacket ⟨0, .new (identifiedOffer noIp)⟩ discovering).toOption.map fun h' =>
      (transmitted discovering h').map (dhcpOption 54)) = some [some [0, 0, 0, 0]] := by
  decide +kernel

end Rucoonos.Net
