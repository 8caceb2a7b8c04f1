/-
What one frame does to the handler.

`handle_packet_` has an arm for every EtherType, ARP operation, IP protocol, ICMP type
and state of the DHCP exchange.  `Effect` lists what these arms come to, one constructor
for each thing that can happen, with the condition it happens under; `act_effect` is the
inversion everything about received frames goes through.

The first use is the frame condition: `handlePacket_effect` says what a packet leaves
alone.
-/
import Rucoonos.Net.Client
import Rucoonos.Proofs.Net.Messages
import Rucoonos.Proofs.Net.Parsing

namespace Rucoonos.Net

open Slice

/-! ### Devices by position -/

theorem getElem?_updateFirst (id : Nat) (f : NetworkDevice → NetworkDevice) :
    ∀ (devices : List NetworkDevice) (i : Nat), (updateFirst id f devices)[i]? =
      if devices.findIdx? (fun d => d.id == id) = some i then devices[i]?.map f
      else devices[i]? := by
  intro devices
  induction devices with
  | nil =>
      intro i
      rfl
  | cons d rest ih =>
      intro i
      rw [updateFirst, List.findIdx?_cons]
      by_cases hid : d.id = id
      · rw [if_pos hid, if_pos (beq_iff_eq.mpr hid)]
        cases i with
        | zero => rfl
        | succ i => rfl
      · have hbeq : ¬ (d.id == id) = true := by rwa [beq_iff_eq]
        rw [if_neg hid, if_neg hbeq]
        cases i with
        | zero =>
            rw [if_neg (by simp)]
            rfl
        | succ i =>
            rw [List.getElem?_cons_succ, ih, List.getElem?_cons_succ]
            simp

/-- What the devices have sent between two states. -/
def transmitted (h h' : Handler) : List Ethernet.Packet :=
  (List.zipWith (fun d d' => d'.packetQueue.drop d.packetQueue.length) h.devices h'.devices).flatten

theorem transmitted_update {h : Handler} {device : NetworkDevice} {id : Nat}
    (f : NetworkDevice → NetworkDevice)
    (hfound : h.devices.find? (fun d => d.id == id) = some device) :
    transmitted h (h.update id f) = (f device).packetQueue.drop device.packetQueue.length := by
  have hsame : ∀ devices : List NetworkDevice, (List.zipWith
      (fun d d' => d'.packetQueue.drop d.packetQueue.length) devices devices).flatten = [] := by
    intro devices
    simp
  show (List.zipWith (fun d d' => d'.packetQueue.drop d.packetQueue.length) h.devices
    (updateFirst id f h.devices)).flatten = _
  generalize h.devices = devices at hfound
  induction devices with
  | nil => cases hfound
  | cons d rest ih =>
      rw [List.find?_cons] at hfound
      rw [updateFirst]
      by_cases hid : d.id = id
      · rw [beq_iff_eq.mpr hid] at hfound
        cases hfound
        rw [if_pos hid, List.zipWith_cons_cons, List.flatten_cons, hsame rest, List.append_nil]
      · rw [beq_false_of_ne hid] at hfound
        rw [if_neg hid, List.zipWith_cons_cons, List.flatten_cons, List.drop_length,
          List.nil_append]
        exact ih hfound

/-! ### What was read -/

/-- The DHCP message of a frame that was looked at. -/
def dhcpOf : Seen → Option Dhcp.Data
  | .udp packet header _ =>
      if header.sourcePort = 67 ∧ header.destinationPort = 68 then
        (Dhcp.Packet.get ⟨packet⟩).toOption
      else none
  | _ => none

/-- The DHCP message a card with this address finds in a frame. -/
def dhcpFrame (mac : Mac) (frame : Ethernet.Packet) : Option Dhcp.Data :=
  (inspect mac frame).toOption.bind dhcpOf

/-- What a frame holds, when this was seen of it. -/
def Reads (frame : Ethernet.Packet) : Seen → Prop
  | .arp packet => frame.etherType = .ok .arp ∧ Arp.Packet.new frame = .ok (some packet)
  | .icmp packet kind =>
      frame.etherType = .ok .ipv4 ∧ packet = ⟨⟨frame⟩⟩ ∧ packet.getType = .ok kind ∧
        ∃ header, Ipv4.Packet.header ⟨frame⟩ = .ok header ∧ header.protocol = .icmp
  | .udp packet header _ => packet = ⟨⟨frame⟩⟩ ∧ packet.header = .ok header
  | _ => True

theorem inspect_reads {mac : Mac} {frame : Ethernet.Packet} {seen : Seen}
    (h : inspect mac frame = .ok seen) : Reads frame seen := by
  obtain ⟨destination, -, h⟩ := bind_eq_ok.mp h
  split at h
  · cases h
    trivial
  · obtain ⟨ty, hty, h⟩ := bind_eq_ok.mp h
    cases ty with
    | arp =>
        obtain ⟨made, hmade, h⟩ := bind_eq_ok.mp h
        obtain ⟨packet, hpacket, h⟩ := bind_eq_ok.mp h
        cases h
        rw [eq_of_unwrap hpacket] at hmade
        exact ⟨hty, hmade⟩
    | wakeOnLan =>
        obtain ⟨content, -, h⟩ := bind_eq_ok.mp h
        cases h
        trivial
    | ipv6 =>
        cases h
        trivial
    | unknown raw =>
        cases h
        trivial
    | ipv4 =>
        obtain ⟨ipHeader, hipHeader, h⟩ := bind_eq_ok.mp h
        split at h
        · rename_i hprotocol
          obtain ⟨kind, hkind, h⟩ := bind_eq_ok.mp h
          cases h
          exact ⟨hty, rfl, hkind, ipHeader, hipHeader, hprotocol⟩
        · obtain ⟨header, hheader, h⟩ := bind_eq_ok.mp h
          obtain ⟨payload, -, h⟩ := bind_eq_ok.mp h
          cases h
          exact ⟨rfl, hheader⟩
        · cases h
          trivial
        · cases h
          trivial

/-! ### What the arms do -/

/-- The answer a device in this state waits for. -/
def expected : DHCPExchange → Dhcp.Data → Bool
  | .discover _ transactionId, data => Client.isOffer transactionId data
  | .requested _ transactionId _ _, data => Client.isAck transactionId data
  | _, _ => false

/-- A frame with a DHCP message goes to the exchange. -/
theorem act_dhcp {device : NetworkDevice} {h : Handler} {frame : Ethernet.Packet} {seen : Seen}
    {data : Dhcp.Data} (hreads : Reads frame seen) (hdata : dhcpOf seen = some data) :
    act device h seen = handleDhcp device data h := by
  cases seen with
  | udp packet header payload =>
      rw [dhcpOf] at hdata
      split at hdata
      · rename_i hport
        show handleUdp device packet h = _
        rw [handleUdp, hreads.2, ok_bind, if_pos hport, eq_ok_of_toOption hdata, ok_bind]
      · cases hdata
  | notForUs => cases hdata
  | arp packet => cases hdata
  | wakeOnLan content => cases hdata
  | icmp packet kind => cases hdata
  | dropped => cases hdata

/-- What the arms for DHCP packets can do. -/
theorem handleDhcp_cases {device : NetworkDevice} {data : Dhcp.Data} {h h' : Handler}
    (hrun : handleDhcp device data h = .ok h') :
    (expected device.metadata.dhcp data = false ∧ h' = h) ∨
    (∃ indicator transactionId request,
      device.metadata.dhcp = .discover indicator transactionId ∧
      Client.isOffer transactionId data = true ∧
      Dhcp.requestMessage device.metadata.mac transactionId data.yiaddr data.siaddr 0
        = .ok (some request) ∧
      h' = h.update device.id fun d =>
        { d.enqueue request with metadata := { d.metadata with
            dhcp := .requested indicator transactionId data.yiaddr data.siaddr } }) ∨
    (∃ indicator transactionId ownIp serverIp,
      device.metadata.dhcp = .requested indicator transactionId ownIp serverIp ∧
      Client.isAck transactionId data = true ∧
      h' = { h.update device.id fun d =>
            { d with metadata := { d.metadata with dhcp := .done, ip := some ownIp } } with
          indicators := Function.update h.indicators indicator true }) := by
  unfold handleDhcp at hrun
  split at hrun
  · rename_i indicator transactionId hdhcp hop
    by_cases hxid : transactionId ≠ data.xid
    · rw [if_pos hxid] at hrun
      cases hrun
      refine .inl ⟨?_, rfl⟩
      rw [hdhcp, expected, Client.isOffer, decide_eq_false_iff_not]
      exact fun hc => hxid hc.2.symm
    · rw [if_neg hxid] at hrun
      obtain ⟨made, hmade, hrun⟩ := bind_eq_ok.mp hrun
      obtain ⟨request, hrequest, hrun⟩ := bind_eq_ok.mp hrun
      cases hrun
      rw [eq_of_unwrap hrequest] at hmade
      refine .inr (.inl ⟨indicator, transactionId, request, hdhcp, ?_, hmade, rfl⟩)
      exact decide_eq_true ⟨hop, (not_not.mp hxid).symm⟩
  · rename_i indicator transactionId ownIp serverIp hdhcp hop
    by_cases hxid : transactionId ≠ data.xid
    · rw [if_pos hxid] at hrun
      cases hrun
      refine .inl ⟨?_, rfl⟩
      rw [hdhcp, expected, Client.isAck, decide_eq_false_iff_not]
      exact fun hc => hxid hc.2.symm
    · rw [if_neg hxid] at hrun
      cases hrun
      refine .inr (.inr ⟨indicator, transactionId, ownIp, serverIp, hdhcp, ?_, rfl⟩)
      exact decide_eq_true ⟨hop, (not_not.mp hxid).symm⟩
  · rename_i hoffer hack
    cases hrun
    refine .inl ⟨?_, rfl⟩
    cases hdhcp : device.metadata.dhcp with
    | initial => rfl
    | done => rfl
    | discover indicator transactionId =>
        rw [expected, Client.isOffer, decide_eq_false_iff_not]
        exact fun hc => hoffer _ _ hdhcp hc.1
    | requested indicator transactionId ownIp serverIp =>
        rw [expected, Client.isAck, decide_eq_false_iff_not]
        exact fun hc => hack _ _ _ _ hdhcp hc.1

/-- Everything a frame can do, by what was seen of it. -/
inductive Effect (device : NetworkDevice) (h : Handler) : Seen → Handler → Prop
  | notForUs : Effect device h .notForUs h
  | wakeOnLan {content : Bytes} : Effect device h (.wakeOnLan content) h
  | dropped : Effect device h .dropped h
  | arpIgnored {packet : Arp.Packet} (hop : packet.operation ≠ .response) :
      Effect device h (.arp packet) h
  | arpReplied {packet : Arp.Packet} {reply : Ethernet.Packet}
      (hop : packet.operation ≠ .response) (hreply : isDhcpRequest reply = false) :
      Effect device h (.arp packet) (h.update device.id (·.enqueue reply))
  | arpHeard {packet : Arp.Packet} (hop : packet.operation = .response)
      (hnone : h.arp packet.srcIp = none) :
      Effect device h (.arp packet)
        { h with ips := Function.update h.ips packet.srcIp (some packet.srcMac) }
  | arpAnswered {packet : Arp.Packet} {listeners : Nat} {queue : RetQueue}
      (hop : packet.operation = .response) (hsome : h.arp packet.srcIp = some listeners)
      (hqueue : (h.retQueues listeners).tryEnqueue packet.srcMac = some queue) :
      Effect device h (.arp packet)
        { h with
          ips := Function.update h.ips packet.srcIp (some packet.srcMac)
          arp := Function.update h.arp packet.srcIp none
          retQueues := Function.update h.retQueues listeners queue.dropSender }
  | icmpIgnored {packet : Icmp.Packet} {raw : Vector UInt8 2} :
      Effect device h (.icmp packet (.unknown raw)) h
  | replyUnclaimed {packet : Icmp.Packet} {identifier sequence : UInt16}
      {header : Ipv4.PacketHeader} (hheader : packet.ipPacket.header = .ok header)
      (hnone : h.ping header.sourceIp = none) :
      Effect device h (.icmp packet (.echoReply identifier sequence)) h
  | replyTaken {packet : Icmp.Packet} {identifier sequence : UInt16}
      {header : Ipv4.PacketHeader} {waker result : Nat}
      (hheader : packet.ipPacket.header = .ok header)
      (hsome : h.ping header.sourceIp = some (waker, result)) :
      Effect device h (.icmp packet (.echoReply identifier sequence))
        { h with
          ping := Function.update h.ping header.sourceIp none
          results := Function.update h.results result true
          woken := h.woken ++ [waker] }
  | udpOffered {packet : Udp.Packet} {header : Udp.PacketHeader} {payload : Bytes}
      {bindQueue : Nat} (hdhcp : dhcpOf (.udp packet header payload) = none) :
      Effect device h (.udp packet header payload)
        { h with offered := h.offered ++ [(bindQueue, packet)] }
  | udpIgnored {packet : Udp.Packet} {header : Udp.PacketHeader} {payload : Bytes}
      (hdhcp : dhcpOf (.udp packet header payload) = none) :
      Effect device h (.udp packet header payload) h
  | dhcp {packet : Udp.Packet} {header : Udp.PacketHeader} {payload : Bytes}
      {data : Dhcp.Data} {h' : Handler}
      (hdhcp : dhcpOf (.udp packet header payload) = some data)
      (hrun : handleDhcp device data h = .ok h') :
      Effect device h (.udp packet header payload) h'

section Arms

variable {device : NetworkDevice} {h h' : Handler}

theorem handleArp_effect {packet : Arp.Packet} (hrun : handleArp device packet h = .ok h') :
    Effect device h (.arp packet) h' := by
  unfold handleArp at hrun
  cases hop : packet.operation with
  | request =>
      have hne : packet.operation ≠ .response := by rw [hop]; decide
      rw [hop] at hrun
      cases hip : device.metadata.ip with
      | none =>
          simp only [hip] at hrun
          cases hrun
          exact .arpIgnored hne
      | some ip =>
          simp only [hip] at hrun
          split at hrun
          · cases hrun
            exact .arpIgnored hne
          · obtain ⟨made, hmade, hrun⟩ := bind_eq_ok.mp hrun
            obtain ⟨reply, hreply, hrun⟩ := bind_eq_ok.mp hrun
            cases hrun
            rw [eq_of_unwrap hreply] at hmade
            exact .arpReplied hne (arp_silent hmade)
  | response =>
      rw [hop] at hrun
      simp only at hrun
      split at hrun
      · rename_i hnone
        cases hrun
        exact .arpHeard hop hnone
      · rename_i listeners hsome
        obtain ⟨queue, hqueue, hrun⟩ := bind_eq_ok.mp hrun
        cases hrun
        exact .arpAnswered hop hsome (eq_of_unwrap hqueue)
  | unknown raw =>
      rw [hop] at hrun
      cases hrun
      exact .arpIgnored (by rw [hop]; exact fun hc => by cases hc)

theorem handleIcmp_effect {packet : Icmp.Packet} {kind : Icmp.Kind}
    (hkind : packet.getType = .ok kind) (hrun : handleIcmp packet h = .ok h') :
    Effect device h (.icmp packet kind) h' := by
  rw [handleIcmp, hkind, ok_bind] at hrun
  cases kind with
  | echoRequest identifier sequence =>
      obtain ⟨header, -, hrun⟩ := bind_eq_ok.mp hrun
      obtain ⟨payload, -, hrun⟩ := bind_eq_ok.mp hrun
      cases hrun
  | echoReply identifier sequence =>
      obtain ⟨header, hheader, hrun⟩ := bind_eq_ok.mp hrun
      split at hrun
      · rename_i hnone
        cases hrun
        exact .replyUnclaimed hheader hnone
      · rename_i waker result hsome
        cases hrun
        exact .replyTaken hheader hsome
  | unknown raw =>
      cases hrun
      exact .icmpIgnored

/-- A datagram is a DHCP packet for the exchange, or at most offered to a bound port. -/
theorem handleUdp_effect {packet : Udp.Packet} {header : Udp.PacketHeader} {payload : Bytes}
    (hheader : packet.header = .ok header) (hrun : handleUdp device packet h = .ok h') :
    Effect device h (.udp packet header payload) h' := by
  rw [handleUdp, hheader, ok_bind] at hrun
  by_cases hport : header.sourcePort = 67 ∧ header.destinationPort = 68
  · rw [if_pos hport] at hrun
    obtain ⟨data, hdata, hrun⟩ := bind_eq_ok.mp hrun
    have hdhcp : dhcpOf (.udp packet header payload) = some data := by
      rw [dhcpOf, if_pos hport, hdata]
      rfl
    exact .dhcp hdhcp hrun
  · have hdhcp : dhcpOf (.udp packet header payload) = none := by rw [dhcpOf, if_neg hport]
    rw [if_neg hport] at hrun
    split at hrun
    · cases hrun
      exact .udpOffered hdhcp
    · obtain ⟨payload', -, hrun⟩ := bind_eq_ok.mp hrun
      cases hrun
      exact .udpIgnored hdhcp

/-- **What a frame does is one of the listed effects.** -/
theorem act_effect {frame : Ethernet.Packet} {seen : Seen}
    (hseen : inspect device.metadata.mac frame = .ok seen)
    (hrun : act device h seen = .ok h') : Effect device h seen h' := by
  have hreads := inspect_reads hseen
  cases seen with
  | notForUs =>
      cases hrun
      exact .notForUs
  | arp packet => exact handleArp_effect hrun
  | wakeOnLan content =>
      cases hrun
      exact .wakeOnLan
  | icmp packet kind => exact handleIcmp_effect hreads.2.2.1 hrun
  | udp packet header payload => exact handleUdp_effect hreads.2 hrun
  | dropped =>
      cases hrun
      exact .dropped

end Arms

/-- The handler has the same bindings, and has done the same for them. -/
structure SameBindings (h h' : Handler) : Prop where
  ips : h'.ips = h.ips
  udp : h'.udp = h.udp
  arp : h'.arp = h.arp
  retQueues : h'.retQueues = h.retQueues
  ping : h'.ping = h.ping
  results : h'.results = h.results
  woken : h'.woken = h.woken

theorem handleDhcp_bindings {device : NetworkDevice} {data : Dhcp.Data} {h h' : Handler}
    (hrun : handleDhcp device data h = .ok h') : SameBindings h h' := by
  rcases handleDhcp_cases hrun with ⟨-, rfl⟩ | ⟨_, _, _, -, -, -, rfl⟩ | ⟨_, _, _, _, -, -, rfl⟩
  · exact ⟨rfl, rfl, rfl, rfl, rfl, rfl, rfl⟩
  · exact ⟨rfl, rfl, rfl, rfl, rfl, rfl, rfl⟩
  · exact ⟨rfl, rfl, rfl, rfl, rfl, rfl, rfl⟩

/-- A packet is looked at and acted on for one device, the first with its id. -/
theorem handlePacket_found {raw : RawPacket} {h h' : Handler}
    (hrun : handlePacket raw h = .ok h') :
    ∃ j device seen, device.id = raw.id ∧
      h.devices.findIdx? (fun d => d.id == device.id) = some j ∧ h.devices[j]? = some device ∧
      inspect device.metadata.mac ⟨raw.buffer⟩ = .ok seen ∧ act device h seen = .ok h' := by
  obtain ⟨device, hfound, hrun⟩ := bind_eq_ok.mp hrun
  have hfind := eq_of_unwrap hfound
  have hid : device.id = raw.id := by
    have hbeq := List.find?_some hfind
    rwa [beq_iff_eq] at hbeq
  rw [List.find?_eq_bind_findIdx?_getElem?, Option.bind_eq_some_iff] at hfind
  obtain ⟨j, hj, hd⟩ := hfind
  rw [handleFrame_eq] at hrun
  obtain ⟨seen, hseen, hrun⟩ := bind_eq_ok.mp hrun
  exact ⟨j, device, seen, hid, by rwa [hid], hd, hseen, hrun⟩

/-! ### What a packet leaves alone -/

/-- The sender's address in an ARP frame. -/
def arpSource (frame : Ethernet.Packet) : Option Ip :=
  match frame.etherType, Arp.Packet.new frame with
  | .ok .arp, .ok (some packet) => some packet.srcIp
  | _, _ => none

/-- The sender's address in an IPv4 frame. -/
def ipv4Source (frame : Ethernet.Packet) : Option Ip :=
  match frame.etherType, Ipv4.Packet.header ⟨frame⟩ with
  | .ok .ipv4, .ok header => some header.sourceIp
  | _, _ => none

/-- What a packet may do to the device it is for. -/
structure DeviceEffect (frame : Ethernet.Packet) (d d' : NetworkDevice) : Prop where
  id : d'.id = d.id
  mac : d'.metadata.mac = d.metadata.mac
  metadata : d'.metadata = d.metadata ∨ ∃ data, dhcpFrame d.metadata.mac frame = some data ∧
    (data.operation = .offer ∨ data.operation = .ack)
  queue : d'.packetQueue = d.packetQueue ∨ ∃ packet, d'.packetQueue = d.packetQueue ++ [packet]

theorem DeviceEffect.refl (frame : Ethernet.Packet) (d : NetworkDevice) :
    DeviceEffect frame d d :=
  ⟨rfl, rfl, .inl rfl, .inl rfl⟩

/-- What a packet may do to the handler. -/
structure PacketEffect (raw : RawPacket) (h h' : Handler) : Prop where
  count : h'.devices.length = h.devices.length
  others : ∀ (i : Nat) d, h.devices[i]? = some d → d.id ≠ raw.id → h'.devices[i]? = some d
  addressed : ∀ (i : Nat) d, h.devices[i]? = some d → d.id = raw.id →
    ∃ d', h'.devices[i]? = some d' ∧ DeviceEffect ⟨raw.buffer⟩ d d'
  udp : h'.udp = h.udp
  arp : h'.arp = h.arp ∨
    ∃ ip, arpSource ⟨raw.buffer⟩ = some ip ∧ h'.arp = Function.update h.arp ip none
  ping : h'.ping = h.ping ∨
    ∃ ip, ipv4Source ⟨raw.buffer⟩ = some ip ∧ h'.ping = Function.update h.ping ip none
  ips : h'.ips = h.ips ∨
    ∃ ip mac, arpSource ⟨raw.buffer⟩ = some ip ∧ h'.ips = Function.update h.ips ip mac
  notForUs : ∀ d ∈ h.devices, d.id = raw.id → ∀ destination,
    Ethernet.Packet.destinationMac ⟨raw.buffer⟩ = .ok destination →
    destination ≠ broadcastMac → destination ≠ d.metadata.mac → h' = h

theorem updateFirst_same (id : Nat) (devices : List NetworkDevice) :
    updateFirst id (fun d => d) devices = devices := by
  induction devices with
  | nil => rfl
  | cons d rest ih =>
      rw [updateFirst, ih]
      split
      · rfl
      · rfl

theorem length_updateFirst (id : Nat) (f : NetworkDevice → NetworkDevice)
    (devices : List NetworkDevice) : (updateFirst id f devices).length = devices.length := by
  induction devices with
  | nil => rfl
  | cons d rest ih =>
      rw [updateFirst]
      split
      · rfl
      · rw [List.length_cons, ih, List.length_cons]

section Conditions

variable {device : NetworkDevice} {frame : Ethernet.Packet} {seen : Seen} {h h' : Handler}

theorem arpSource_of_reads {packet : Arp.Packet} (hreads : Reads frame (.arp packet)) :
    arpSource frame = some packet.srcIp := by
  rw [arpSource, hreads.1, hreads.2]

theorem ipv4Source_of_reads {packet : Icmp.Packet} {kind : Icmp.Kind}
    {header : Ipv4.PacketHeader} (hreads : Reads frame (.icmp packet kind))
    (hheader : packet.ipPacket.header = .ok header) :
    ipv4Source frame = some header.sourceIp := by
  obtain ⟨hty, rfl, -, -⟩ := hreads
  rw [ipv4Source, hty, hheader]

/-- The DHCP arms change the device only on the answer it waits for. -/
theorem handleDhcp_device {data : Dhcp.Data}
    (hdata : dhcpFrame device.metadata.mac frame = some data)
    (hrun : handleDhcp device data h = .ok h') :
    ∃ f, h'.devices = updateFirst device.id f h.devices ∧
      DeviceEffect frame device (f device) := by
  rcases handleDhcp_cases hrun with ⟨-, rfl⟩ | ⟨_, _, request, -, hoffer, -, rfl⟩ |
    ⟨_, _, ownIp, _, -, hack, rfl⟩
  · exact ⟨fun d => d, (updateFirst_same _ _).symm, .refl frame device⟩
  · refine ⟨_, rfl, rfl, rfl, .inr ⟨data, hdata, .inl ?_⟩, .inr ⟨request, rfl⟩⟩
    exact (of_decide_eq_true hoffer).1
  · refine ⟨_, rfl, rfl, rfl, .inr ⟨data, hdata, .inr ?_⟩, .inl rfl⟩
    exact (of_decide_eq_true hack).1

theorem Effect.on_device (hseen : inspect device.metadata.mac frame = .ok seen)
    (heffect : Effect device h seen h') :
    ∃ f, h'.devices = updateFirst device.id f h.devices ∧
      DeviceEffect frame device (f device) := by
  cases heffect with
  | arpReplied hop hreply => exact ⟨_, rfl, rfl, rfl, .inl rfl, .inr ⟨_, rfl⟩⟩
  | dhcp hdhcp hrun =>
      refine handleDhcp_device ?_ hrun
      rw [dhcpFrame, hseen]
      exact hdhcp
  | _ => exact ⟨fun d => d, (updateFirst_same _ _).symm, .refl frame device⟩

theorem Effect.maps (hreads : Reads frame seen) (heffect : Effect device h seen h') :
    h'.udp = h.udp ∧
    (h'.arp = h.arp ∨ ∃ ip, arpSource frame = some ip ∧ h'.arp = Function.update h.arp ip none) ∧
    (h'.ping = h.ping ∨
      ∃ ip, ipv4Source frame = some ip ∧ h'.ping = Function.update h.ping ip none) ∧
    (h'.ips = h.ips ∨
      ∃ ip mac, arpSource frame = some ip ∧ h'.ips = Function.update h.ips ip mac) := by
  cases heffect with
  | arpHeard hop hnone =>
      have hsource := arpSource_of_reads hreads
      exact ⟨rfl, .inl rfl, .inl rfl, .inr ⟨_, _, hsource, rfl⟩⟩
  | arpAnswered hop hsome hqueue =>
      have hsource := arpSource_of_reads hreads
      exact ⟨rfl, .inr ⟨_, hsource, rfl⟩, .inl rfl, .inr ⟨_, _, hsource, rfl⟩⟩
  | replyTaken hheader hsome =>
      have hsource := ipv4Source_of_reads hreads hheader
      exact ⟨rfl, .inl rfl, .inr ⟨_, hsource, rfl⟩, .inl rfl⟩
  | dhcp hdhcp hrun =>
      have hsame := handleDhcp_bindings hrun
      exact ⟨hsame.udp, .inl hsame.arp, .inl hsame.ping, .inl hsame.ips⟩
  | _ => exact ⟨rfl, .inl rfl, .inl rfl, .inl rfl⟩

end Conditions

/-- With distinct ids the first device with an id is the only one. -/
theorem eq_of_nodup_ids {devices : List NetworkDevice}
    (hids : (devices.map NetworkDevice.id).Nodup) {i j : Nat} {d d' : NetworkDevice}
    (hi : devices[i]? = some d) (hj : devices[j]? = some d') (hid : d.id = d'.id) : i = j := by
  have hlt : i < (devices.map NetworkDevice.id).length := by
    rw [List.length_map]
    exact (List.getElem?_eq_some_iff.mp hi).1
  refine (List.getElem?_inj hlt hids).mp ?_
  rw [List.getElem?_map, List.getElem?_map, hi, hj]
  exact congrArg some hid

/--
**What a packet leaves alone.**  Whatever a packet holds, if handling it returns then
every other device is as it was; its own device keeps its address on the wire, changes its
exchange and its IP address only on a DHCP Offer or Ack and sends at most one packet; the
UDP bindings stay, the waiters for ARP responses and echo replies lose at most the one for
the sender of the packet, and only the sender's entry of the IP map can change.  A frame
for some other station changes nothing.
-/
theorem handlePacket_effect {raw : RawPacket} {h h' : Handler}
    (hids : (h.devices.map NetworkDevice.id).Nodup) (hrun : handlePacket raw h = .ok h') :
    PacketEffect raw h h' := by
  obtain ⟨j, device, seen, hid, hj, hd, hseen, hact⟩ := handlePacket_found hrun
  have heffect := act_effect hseen hact
  obtain ⟨f, hdevices, hdevice⟩ := heffect.on_device hseen
  obtain ⟨hudp, harp, hping, hips⟩ := heffect.maps (inspect_reads hseen)
  have hat : ∀ i, h'.devices[i]? = if j = i then h.devices[i]?.map f else h.devices[i]? := by
    intro i
    rw [hdevices, getElem?_updateFirst, hj]
    simp only [Option.some.injEq]
  refine ⟨?_, ?_, ?_, hudp, harp, hping, hips, ?_⟩
  · rw [hdevices, length_updateFirst]
  · intro i d hi hne
    have hij : j ≠ i := by
      rintro rfl
      rw [hd, Option.some.injEq] at hi
      exact hne (hi ▸ hid)
    rw [hat, if_neg hij, hi]
  · intro i d hi heq
    obtain rfl : j = i := eq_of_nodup_ids hids hd hi (hid.trans heq.symm)
    rw [hd, Option.some.injEq] at hi
    subst hi
    exact ⟨f device, by rw [hat, if_pos rfl, hd]; rfl, hdevice⟩
  · intro d hmem heq destination hdestination hbroadcast hmac
    obtain ⟨i, hi⟩ := List.getElem?_of_mem hmem
    obtain rfl : j = i := eq_of_nodup_ids hids hd hi (hid.trans heq.symm)
    rw [hd, Option.some.injEq] at hi
    subst hi
    rw [inspect, hdestination, ok_bind, if_pos ⟨hbroadcast, hmac⟩] at hseen
    cases hseen
    cases heffect
    rfl

/-- An ARP response of the station with these addresses, to everyone. -/
def arpResponse (mac : Mac) (ip : Ip) : Bytes :=
  broadcastMac.toList ++ mac.toList ++ [0x08, 0x06, 0, 1, 0x08, 0x00, 6, 4, 0, 2] ++
    mac.toList ++ ip.toList ++ broadcastMac.toList ++ [0, 0, 0, 0]

/-- The address of the host that the samples ask for. -/
def hostIp : Ip := #v[10, 0, 2, 2]

/-- Two devices and a request for the host that waits for its response. -/
def oneWaiter : Handler where
  devices := [.new 0 (Vector.replicate 6 0x0a), .new 1 (Vector.replicate 6 0x0b)]
  indicators := fun _ => false
  ips := fun _ => none
  udp := fun _ => none
  offered := []
  arp := Function.update (fun _ => none) hostIp (some 0)
  retQueues := fun _ => ⟨2, [], true, true⟩
  ping := fun _ => none
  results := fun _ => false
  woken := []

/-- The response is handled: the waiter is gone, and the address is known. -/
theorem handlePacket_effect_response :
    ∃ h', handlePacket ⟨1, Buffer.new (arpResponse someMac hostIp)⟩ oneWaiter = .ok h' ∧
      h'.arp hostIp = none ∧ h'.ips hostIp = some someMac ∧
      PacketEffect ⟨1, Buffer.new (arpResponse someMac hostIp)⟩ oneWaiter h' := by
  have heval : (handlePacket ⟨1, Buffer.new (arpResponse someMac hostIp)⟩
      oneWaiter).toOption.map (fun h' => (h'.arp hostIp, h'.ips hostIp))
      = some (none, some someMac) := by
    decide +kernel
  obtain ⟨h', hrun, hvalues⟩ := Option.map_eq_some_iff.mp heval
  have hrun := eq_ok_of_toOption hrun
  rw [Prod.mk.injEq] at hvalues
  exact ⟨h', hrun, hvalues.1, hvalues.2, handlePacket_effect (by decide) hrun⟩

end Rucoonos.Net
