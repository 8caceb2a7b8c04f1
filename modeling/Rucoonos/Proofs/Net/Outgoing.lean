/-
What the handler sends, and what another handler makes of it.

Every frame a device sends was made for that device by one of the builders: a DHCP
message, an ARP request, an ARP response with the address the device has, or an echo
request.  `Own` lists them, and `step_sent` says that a message adds at most one of them
to the queue of each device.

Such a frame can be read by every card it reaches.  `SeenOf` lists what the card sees;
`Own.seen` is where the builders meet the parsers.
-/
import Rucoonos.Proofs.Net.Requests
import Rucoonos.Proofs.Net.Responder

namespace Rucoonos

open Slice

/-- The bytes that a card puts on the wire: the descriptor has the length of the buffer. -/
def Ethernet.Packet.wire (p : Packet) : Bytes := p.buffer.data.take p.buffer.len

/-- A frame that fits a buffer arrives as it was built. -/
theorem Ethernet.PacketBuilder.new_wire {b : PacketBuilder} {payload : Writer} {frame : Packet}
    (h : b.finish payload = .ok (some frame)) : Buffer.new frame.wire = frame.buffer := by
  obtain ⟨tail, written, hrun, hmax, rfl⟩ := finish_some h
  have hlen : (b.header ++ tail.take (max written 46)).length ≤ 2048 := by
    rw [List.length_append, b.length_header, List.length_take]
    omega
  rw [Packet.wire, Buffer.take_new hlen]

namespace Net

/-! ### The frames a device sends -/

/-- A frame that the handler makes for the device with this hardware address, when `own` is
the address the device has. -/
inductive Own (mac : Mac) (own : Option Ip) (frame : Ethernet.Packet) : Prop
  | dhcp {m : Dhcp.Message} {xid : UInt32} {ipIdent : UInt16}
      (hmade : m.build mac xid ipIdent = .ok (some frame))
  | arpRequest {senderIp ip : Ip}
      (hmade : Arp.PacketBuilder.finish
        ⟨mac, senderIp, broadcastMac, ip, Arp.Operation.request.toU16⟩ = .ok (some frame))
  | arpResponse {ip toIp : Ip} {toMac : Mac} (hip : own = some ip)
      (hmade : Arp.PacketBuilder.finish
        ⟨mac, ip, toMac, toIp, Arp.Operation.response.toU16⟩ = .ok (some frame))
  | echoRequest {ip : Ip} {toMac : Mac} {d : NetworkDevice} (hmac : d.metadata.mac = mac)
      (hmade : Net.echoRequest ip toMac d = .ok (some frame))

/-- What was sent without an address may be sent with one. -/
theorem Own.mono {mac : Mac} {own own' : Option Ip} {frame : Ethernet.Packet}
    (h : Own mac own frame) (hip : ∀ ip, own = some ip → own' = some ip) : Own mac own' frame := by
  cases h with
  | dhcp hmade => exact .dhcp hmade
  | arpRequest hmade => exact .arpRequest hmade
  | arpResponse hown hmade => exact .arpResponse (hip _ hown) hmade
  | echoRequest hmac hmade => exact .echoRequest hmac hmade

/-- What a message does to a device: it keeps its place and its addresses on the wire, and
has at most one more frame to send. -/
structure Sent (d d' : NetworkDevice) : Prop where
  card : d'.card = d.card
  queue : d'.packetQueue = d.packetQueue ∨
    ∃ frame, d'.packetQueue = d.packetQueue ++ [frame] ∧ Own d.metadata.mac d.metadata.ip frame

theorem Sent.refl (d : NetworkDevice) : Sent d d := ⟨rfl, .inl rfl⟩

theorem Sent.enqueue {d : NetworkDevice} {frame : Ethernet.Packet}
    (hown : Own d.metadata.mac d.metadata.ip frame) : Sent d (d.enqueue frame) :=
  ⟨rfl, .inr ⟨frame, rfl, hown⟩⟩

section Step

variable {device : NetworkDevice} {h h' : Handler}

theorem handleArp_sent {packet : Arp.Packet} (hrun : handleArp device packet h = .ok h') :
    ∃ f, h'.devices = updateFirst device.id f h.devices ∧ Sent device (f device) := by
  have hsame : h'.devices = h.devices →
      ∃ f, h'.devices = updateFirst device.id f h.devices ∧ Sent device (f device) :=
    fun heq => ⟨fun d => d, by rw [heq, updateFirst_same], .refl device⟩
  unfold handleArp at hrun
  cases hop : packet.operation with
  | request =>
      rw [hop] at hrun
      cases hip : device.metadata.ip with
      | none =>
          simp only [hip] at hrun
          cases hrun
          exact hsame rfl
      | some ip =>
          simp only [hip] at hrun
          split at hrun
          · cases hrun
            exact hsame rfl
          · obtain ⟨made, hmade, hrun⟩ := bind_eq_ok.mp hrun
            obtain ⟨reply, hreply, hrun⟩ := bind_eq_ok.mp hrun
            cases hrun
            rw [eq_of_unwrap hreply] at hmade
            exact ⟨_, rfl, .enqueue (.arpResponse hip hmade)⟩
  | response =>
      rw [hop] at hrun
      simp only at hrun
      split at hrun
      · cases hrun
        exact hsame rfl
      · obtain ⟨queue, -, hrun⟩ := bind_eq_ok.mp hrun
        cases hrun
        exact hsame rfl
  | unknown raw =>
      rw [hop] at hrun
      cases hrun
      exact hsame rfl

theorem handleDhcp_sent {data : Dhcp.Data} (hrun : handleDhcp device data h = .ok h') :
    ∃ f, h'.devices = updateFirst device.id f h.devices ∧ Sent device (f device) := by
  rcases handleDhcp_cases hrun with ⟨-, rfl⟩ | ⟨_, _, request, -, -, hrequest, rfl⟩ |
    ⟨_, _, _, _, -, -, rfl⟩
  · exact ⟨fun d => d, (updateFirst_same _ _).symm, .refl device⟩
  · exact ⟨_, rfl, rfl, .inr ⟨request, rfl, .dhcp (m := .request data.yiaddr data.siaddr) hrequest⟩⟩
  · exact ⟨_, rfl, rfl, .inl rfl⟩

theorem act_sent {frame : Ethernet.Packet} {seen : Seen}
    (hseen : inspect device.metadata.mac frame = .ok seen) (hrun : act device h seen = .ok h') :
    ∃ f, h'.devices = updateFirst device.id f h.devices ∧ Sent device (f device) := by
  have heffect := act_effect hseen hrun
  cases seen with
  | arp packet => exact handleArp_sent hrun
  | udp packet header payload =>
      cases heffect with
      | dhcp hdhcp hhandle => exact handleDhcp_sent hhandle
      | _ => exact ⟨fun d => d, (updateFirst_same _ _).symm, .refl device⟩
  | _ =>
      cases heffect
      all_goals exact ⟨fun d => d, (updateFirst_same _ _).symm, .refl device⟩

/-- The devices after one of them has changed. -/
theorem sent_updateFirst {devices : List NetworkDevice} {f : NetworkDevice → NetworkDevice}
    {id i : Nat} (hi : devices.findIdx? (fun d => d.id == id) = some i)
    (hd : devices[i]? = some device) (hsent : Sent device (f device)) (j : Nat)
    (d : NetworkDevice) (hj : devices[j]? = some d) :
    ∃ d', (updateFirst id f devices)[j]? = some d' ∧ Sent d d' := by
  rw [getElem?_updateFirst, hi]
  by_cases hij : i = j
  · subst hij
    rw [hd, Option.some.injEq] at hj
    subst hj
    exact ⟨f device, by rw [if_pos rfl, hd]; rfl, hsent⟩
  · exact ⟨d, by rw [if_neg (fun hc => hij (Option.some.inj hc)), hj], .refl d⟩

/-- The devices after each of them has sent a frame of the same making. -/
theorem sent_enqueueAll {make : NetworkDevice → Exec (Option Ethernet.Packet)}
    {devices devices' : List NetworkDevice} (hrun : enqueueAll make devices = .ok devices')
    (hmake : ∀ d frame, make d = .ok (some frame) → Own d.metadata.mac d.metadata.ip frame) :
    devices'.length = devices.length ∧
      ∀ (j : Nat) d, devices[j]? = some d → ∃ d', devices'[j]? = some d' ∧ Sent d d' := by
  obtain ⟨hcards, hget⟩ := getElem?_enqueueAll hrun
  have hlen : devices'.length = devices.length := by simpa using congrArg List.length hcards
  refine ⟨hlen, ?_⟩
  intro j d hd
  have hj : j < devices'.length := by
    rw [hlen]
    exact (List.getElem?_eq_some_iff.mp hd).1
  obtain ⟨d₀, frame, hd₀, hframe, heq⟩ := hget j _ (List.getElem?_eq_getElem hj)
  rw [hd, Option.some.injEq] at hd₀
  subst hd₀
  refine ⟨_, List.getElem?_eq_getElem hj, ?_⟩
  rw [heq]
  exact .enqueue (hmake d frame hframe)

/-- **What a message makes the devices send.** -/
theorem step_sent {m : HandlerMessage} (hstep : Net.step h m = some h') :
    h'.devices.length = h.devices.length ∧
      ∀ (j : Nat) d, h.devices[j]? = some d → ∃ d', h'.devices[j]? = some d' ∧ Sent d d' := by
  have hrun := handle_of_step hstep
  cases m with
  | packet raw =>
      obtain ⟨i, device, seen, -, hi, hd, hseen, hact⟩ := handlePacket_found hrun
      obtain ⟨f, hdevices, hsent⟩ := act_sent hseen hact
      rw [hdevices]
      exact ⟨length_updateFirst _ _ _, sent_updateFirst hi hd hsent⟩
  | action request =>
      cases request with
      | sendArpRequest ip retQueue =>
          obtain ⟨devices, hdevices, hrun⟩ := bind_eq_ok.mp hrun
          cases hrun
          exact sent_enqueueAll hdevices fun _ _ hmade => .arpRequest hmade
      | pingRequest waker ip mac result =>
          obtain ⟨devices, hdevices, hrun⟩ := bind_eq_ok.mp hrun
          cases hrun
          exact sent_enqueueAll hdevices fun _ _ hmade => .echoRequest rfl hmade

end Step

/-- What callers do, and not the cards or the handler. -/
def Action.byCaller : Action → Bool
  | .receive .. | .handle => false
  | _ => true

/-- Nobody but the handler touches the devices. -/
theorem devices_of_quiet {s s' : System} {a : Action} (hquiet : a ≠ .handle)
    (hstep : s.step a = some s') :
    s'.handler.devices = s.handler.devices ∧ s'.handler.indicators = s.handler.indicators := by
  cases step_move hstep with
  | handled hmail hhandle => exact absurd rfl hquiet
  | _ => exact ⟨rfl, rfl⟩

/-! ### What a card sees of them -/

section Seen

variable {mac : Mac} {own : Option Ip} {frame : Ethernet.Packet}

theorem Own.new_wire (h : Own mac own frame) : Buffer.new frame.wire = frame.buffer := by
  cases h with
  | dhcp hmade =>
      rw [Dhcp.Message.build_eq] at hmade
      exact Ethernet.PacketBuilder.new_wire hmade
  | arpRequest hmade => exact Ethernet.PacketBuilder.new_wire hmade
  | arpResponse hip hmade => exact Ethernet.PacketBuilder.new_wire hmade
  | echoRequest hmac hmade => exact Ethernet.PacketBuilder.new_wire hmade

/-- What a handler sees of a frame that was made for another device, or for its own. -/
inductive SeenOf (mac : Mac) (own : Option Ip) : Seen → Prop
  | notForUs : SeenOf mac own .notForUs
  | dhcp {packet : Udp.Packet} {header : Udp.PacketHeader} {payload : Bytes}
      (hport : header.sourcePort = 68) : SeenOf mac own (.udp packet header payload)
  | arpRequest {packet : Arp.Packet} (hop : packet.operation = .request) :
      SeenOf mac own (.arp packet)
  | arpResponse {packet : Arp.Packet} (hop : packet.operation = .response)
      (hip : own = some packet.srcIp) (hmac : packet.srcMac = mac) : SeenOf mac own (.arp packet)
  | echoRequest {packet : Icmp.Packet} {identifier sequence : UInt16} :
      SeenOf mac own (.icmp packet (.echoRequest identifier sequence))

/-- A card takes a frame as the station does that it is for, or not at all. -/
theorem inspect_destination {destination : Mac} (hdest : frame.destinationMac = .ok destination)
    (card : Mac) : inspect card frame = .ok .notForUs ∨
      inspect card frame = inspect destination frame := by
  by_cases hus : destination ≠ broadcastMac ∧ destination ≠ card
  · left
    rw [inspect, hdest, ok_bind, if_pos hus]
    rfl
  · right
    rw [inspect, inspect, hdest, ok_bind, ok_bind, if_neg hus, if_neg (fun hc => hc.2 rfl)]

theorem inspect_built {b : Arp.PacketBuilder} (hmade : b.finish = .ok (some frame)) (card : Mac) :
    inspect card frame = .ok .notForUs ∨ inspect card frame = .ok (.arp b.packet) := by
  obtain ⟨built, hbuilt, hfields⟩ := b.finish_built
  rw [hmade, Except.ok.injEq, Option.some.injEq] at hbuilt
  subst hbuilt
  refine (inspect_destination hfields.destination card).imp id fun hseen => ?_
  rw [hseen, inspect, hfields.destination, ok_bind, if_neg (fun hc => hc.2 rfl),
    hfields.etherType, ok_bind]
  show Arp.Packet.new frame >>= _ = _
  rw [hfields.parsed]
  rfl

/-- An IPv4 frame of the builder is looked into by the protocol it was built for. -/
theorem inspect_carried {b : Ipv4.PacketBuilder} {size : Nat} (hcarried : b.Carried size frame)
    (card : Mac) : inspect card frame = .ok .notForUs ∨
      inspect card frame = inspectIpv4 ⟨frame⟩ := by
  refine (inspect_destination hcarried.destinationMac card).imp id fun hseen => ?_
  rw [hseen, inspect, hcarried.destinationMac, ok_bind, if_neg (fun hc => hc.2 rfl),
    hcarried.etherType]
  rfl

/-- **Every frame a handler sends can be read by every handler.** -/
theorem Own.seen (h : Own mac own frame) (card : Mac) :
    ∃ seen, inspect card frame = .ok seen ∧ SeenOf mac own seen := by
  cases h with
  | dhcp hmade =>
      rename_i m xid ipIdent
      obtain ⟨hcarried, hudp, hpayload⟩ := Dhcp.Message.build_payload hmade
      obtain ⟨header, hheader, -, -, -, -, -, hprotocol, -⟩ := hcarried.header
      rcases inspect_carried hcarried card with hseen | hseen
      · exact ⟨_, hseen, .notForUs⟩
      · refine ⟨.udp ⟨⟨frame⟩⟩ (Dhcp.udpBuilder.header m.size) (m.payload mac xid), ?_, .dhcp rfl⟩
        rw [hseen, inspectIpv4, hheader, ok_bind, hprotocol]
        show (Udp.Packet.header ⟨⟨frame⟩⟩ >>= _) = _
        rw [hudp, ok_bind, hpayload]
        rfl
  | arpRequest hmade =>
      rcases inspect_built hmade card with hseen | hseen
      · exact ⟨_, hseen, .notForUs⟩
      · exact ⟨_, hseen, .arpRequest rfl⟩
  | arpResponse hip hmade =>
      rcases inspect_built hmade card with hseen | hseen
      · exact ⟨_, hseen, .notForUs⟩
      · exact ⟨_, hseen, .arpResponse rfl hip rfl⟩
  | echoRequest hmac hmade =>
      obtain ⟨hcarried, hkind, -⟩ :=
        Icmp.PacketBuilder.finish_carried (by intro d hd; cases hd) hmade
      obtain ⟨header, hheader, -, -, -, -, -, hprotocol, -⟩ := hcarried.header
      rcases inspect_carried hcarried card with hseen | hseen
      · exact ⟨_, hseen, .notForUs⟩
      · refine ⟨.icmp ⟨⟨frame⟩⟩ (.echoRequest 0x1234 0x2345), ?_, .echoRequest⟩
        rw [hseen, inspectIpv4, hheader, ok_bind, hprotocol]
        show (Icmp.Packet.getType ⟨⟨frame⟩⟩ >>= _) = _
        rw [hkind]
        rfl

end Seen

end Net

end Rucoonos
