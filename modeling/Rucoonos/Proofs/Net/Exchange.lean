/-
The handler runs one DHCP client for each card.

Whatever messages the handler has processed, each of its devices is where the client of
`Net/Client.lean` is after the DHCP messages that reached that device: the state of the
exchange, the address, the flag and the number of Requests in the queue are the
client's.  Frames for other cards, other protocols and the actions leave all of that
alone.

`represents_step` is one message and `represents_run` a run of them.
-/
import Rucoonos.Lib.Run
import Rucoonos.Net.Client
import Rucoonos.Proofs.Net.Effect

namespace Rucoonos.Net

open Slice

/-! ### What reaches a card -/

/-- The parts of a device that nothing changes. -/
structure Card where
  id : Nat
  mac : Mac
  deriving DecidableEq, Repr

def NetworkDevice.card (d : NetworkDevice) : Card := ⟨d.id, d.metadata.mac⟩

def Card.device (c : Card) : NetworkDevice := .new c.id c.mac

/-- The DHCP message that a message brings to the `i`-th card. -/
def delivered (cards : List Card) (i : Nat) : HandlerMessage → Option Dhcp.Data
  | .packet raw =>
      if cards.findIdx? (fun c => c.id == raw.id) = some i then
        cards[i]?.bind fun card => dhcpFrame card.mac ⟨raw.buffer⟩
      else none
  | .action _ => none

/-! ### Devices by position -/

/-- One more packet for each device. -/
theorem getElem?_enqueueAll {make : NetworkDevice → Exec (Option Ethernet.Packet)} :
    ∀ {devices devices' : List NetworkDevice}, enqueueAll make devices = .ok devices' →
      devices'.map NetworkDevice.card = devices.map NetworkDevice.card ∧
      ∀ (i : Nat) d', devices'[i]? = some d' → ∃ d packet,
        devices[i]? = some d ∧ make d = .ok (some packet) ∧ d' = d.enqueue packet := by
  intro devices
  induction devices with
  | nil =>
      intro devices' h
      cases h
      exact ⟨rfl, fun i d' hd' => by cases hd'⟩
  | cons d rest ih =>
      intro devices' h
      obtain ⟨made, hmade, h⟩ := bind_eq_ok.mp h
      obtain ⟨packet, hpacket, h⟩ := bind_eq_ok.mp h
      obtain ⟨rest', hrest, h⟩ := bind_eq_ok.mp h
      obtain ⟨hcards, hrest⟩ := ih hrest
      cases h
      rw [eq_of_unwrap hpacket] at hmade
      refine ⟨by rw [List.map_cons, hcards]; rfl, ?_⟩
      intro i d' hd'
      cases i with
      | zero =>
          cases hd'
          exact ⟨d, packet, rfl, hmade, rfl⟩
      | succ i => exact hrest i d' hd'

/-- Every device is set up with the flag of its position and one Discover. -/
theorem getElem?_setupDevices :
    ∀ {devices devices' : List NetworkDevice} {first : Nat},
      setupDevices first devices = .ok devices' →
      devices'.map NetworkDevice.card = devices.map NetworkDevice.card ∧
      ∀ (i : Nat) d', devices'[i]? = some d' → ∃ d packet, devices[i]? = some d ∧
        Dhcp.discoverMessage d.metadata.mac txId 13 = .ok (some packet) ∧
        d' = NetworkDevice.enqueue
          { d with metadata := { d.metadata with dhcp := .discover (first + i) txId } } packet := by
  intro devices
  induction devices with
  | nil =>
      intro devices' first h
      cases h
      exact ⟨rfl, fun i d' hd' => by cases hd'⟩
  | cons d rest ih =>
      intro devices' first h
      obtain ⟨made, hmade, h⟩ := bind_eq_ok.mp h
      obtain ⟨packet, hpacket, h⟩ := bind_eq_ok.mp h
      obtain ⟨rest', hrest, h⟩ := bind_eq_ok.mp h
      obtain ⟨hcards, hrest⟩ := ih hrest
      cases h
      rw [eq_of_unwrap hpacket] at hmade
      refine ⟨by rw [List.map_cons, hcards]; rfl, ?_⟩
      intro i d' hd'
      cases i with
      | zero =>
          cases hd'
          exact ⟨d, packet, rfl, hmade, rfl⟩
      | succ i =>
          obtain ⟨d₀, packet₀, hd₀, hmade₀, rfl⟩ := hrest i d' hd'
          refine ⟨d₀, packet₀, hd₀, hmade₀, ?_⟩
          rw [show first + (i + 1) = first + 1 + i by omega]

/-! ### What a frame does -/

/-- What a frame can do to the devices and their flags. -/
theorem act_cases {device : NetworkDevice} {frame : Ethernet.Packet} {h h' : Handler}
    {seen : Seen} (hseen : inspect device.metadata.mac frame = .ok seen)
    (hrun : act device h seen = .ok h') :
    (dhcpOf seen = none ∧ h'.devices = h.devices ∧ h'.indicators = h.indicators) ∨
    (∃ reply, dhcpOf seen = none ∧ isDhcpRequest reply = false ∧
      h'.devices = updateFirst device.id (·.enqueue reply) h.devices ∧
      h'.indicators = h.indicators) ∨
    (∃ data, dhcpOf seen = some data ∧ handleDhcp device data h = .ok h') := by
  cases act_effect hseen hrun with
  | arpReplied hop hreply => exact .inr (.inl ⟨_, rfl, hreply, rfl, rfl⟩)
  | dhcp hdhcp hhandle => exact .inr (.inr ⟨_, hdhcp, hhandle⟩)
  | udpOffered hdhcp => exact .inl ⟨hdhcp, rfl, rfl⟩
  | udpIgnored hdhcp => exact .inl ⟨hdhcp, rfl, rfl⟩
  | _ => exact .inl ⟨rfl, rfl, rfl⟩

/-! ### Devices and clients -/

/-- The state of the exchange in the `i`-th device, for each phase of its client. -/
def exchange (i : Nat) : Client.Phase → DHCPExchange
  | .discover => .discover i txId
  | .requested offer => .requested i txId offer.yiaddr offer.siaddr
  | .done _ => .done

/-- The `i`-th device is where its client is, and so is its flag. -/
structure Shows (indicator : Bool) (i : Nat) (phase : Client.Phase) (d : NetworkDevice) : Prop where
  dhcp : d.metadata.dhcp = exchange i phase
  ip : d.metadata.ip = phase.ip
  indicator : indicator = phase.ip.isSome
  requests : d.packetQueue.countP isDhcpRequest = phase.requests

/-- Every device is where its client is. -/
structure Represents (cards : List Card) (phases : Nat → Client.Phase) (h : Handler) : Prop where
  cards : h.devices.map NetworkDevice.card = cards
  shows : ∀ (i : Nat) d, h.devices[i]? = some d → Shows (h.indicators i) i (phases i) d

variable {cards : List Card} {phases : Nat → Client.Phase} {h h' : Handler}

theorem countP_enqueue (d : NetworkDevice) (packet : Ethernet.Packet) :
    (d.enqueue packet).packetQueue.countP isDhcpRequest
      = d.packetQueue.countP isDhcpRequest + if isDhcpRequest packet then 1 else 0 := by
  rw [NetworkDevice.enqueue, List.countP_append, List.countP_singleton]

/-- Other packets in the queue do not count. -/
theorem Shows.enqueue {indicator : Bool} {i : Nat} {phase : Client.Phase} {d : NetworkDevice}
    (hs : Shows indicator i phase d) {packet : Ethernet.Packet}
    (hpacket : isDhcpRequest packet = false) : Shows indicator i phase (d.enqueue packet) where
  dhcp := hs.dhcp
  ip := hs.ip
  indicator := hs.indicator
  requests := by
    rw [countP_enqueue, hpacket]
    exact hs.requests

/-- A device waits for what its client waits for. -/
theorem expected_exchange (i : Nat) (phase : Client.Phase) (data : Dhcp.Data)
    (hexp : expected (exchange i phase) data = false) : Client.next txId phase data = phase := by
  cases phase with
  | discover => exact if_neg (Bool.eq_false_iff.mp hexp)
  | requested offer => exact if_neg (Bool.eq_false_iff.mp hexp)
  | done offer => rfl

theorem represents_setup {retQueues : Nat → RetQueue}
    (hsetup : Handler.setup (cards.map Card.device) retQueues = .ok h) :
    Represents cards (fun _ => .discover) h := by
  obtain ⟨devices, hdevices, hsetup⟩ := bind_eq_ok.mp hsetup
  cases hsetup
  obtain ⟨hcards, hget⟩ := getElem?_setupDevices hdevices
  refine ⟨?_, ?_⟩
  · show devices.map NetworkDevice.card = cards
    rw [hcards, List.map_map]
    exact List.map_id cards
  · intro i d hd
    obtain ⟨d₀, packet, hd₀, hpacket, rfl⟩ := hget i d hd
    rw [List.getElem?_map, Option.map_eq_some_iff] at hd₀
    obtain ⟨card, -, rfl⟩ := hd₀
    obtain ⟨data, hdata, hop, -⟩ := discover_read hpacket
    refine Shows.enqueue ?_ ?_
    · rw [Nat.zero_add]
      exact ⟨rfl, rfl, rfl, rfl⟩
    · rw [isDhcpRequest, hdata]
      simp [hop]

/-- One device changes and its client with it. -/
theorem Represents.update {phases' : Nat → Client.Phase} {device : NetworkDevice} {id j : Nat}
    {f : NetworkDevice → NetworkDevice} (hr : Represents cards phases h)
    (hj : h.devices.findIdx? (fun d => d.id == id) = some j) (hd : h.devices[j]? = some device)
    (hdevices : h'.devices = updateFirst id f h.devices)
    (hcard : ∀ d, (f d).card = d.card)
    (hothers : ∀ i, i ≠ j → phases' i = phases i ∧ h'.indicators i = h.indicators i)
    (hshows : Shows (h'.indicators j) j (phases' j) (f device)) :
    Represents cards phases' h' := by
  have hget := getElem?_updateFirst id f h.devices
  rw [← hdevices] at hget
  refine ⟨?_, ?_⟩
  · rw [← hr.cards]
    refine List.ext_getElem? fun i => ?_
    rw [List.getElem?_map, List.getElem?_map, hget]
    split
    · rw [Option.map_map]
      congr 1
      exact funext hcard
    · rfl
  · intro i d hi
    rw [hget, hj] at hi
    by_cases hij : i = j
    · subst hij
      rw [if_pos rfl, hd] at hi
      cases hi
      exact hshows
    · rw [if_neg (fun hc => hij (Option.some.inj hc).symm)] at hi
      rw [(hothers i hij).1, (hothers i hij).2]
      exact hr.shows i d hi

/-- A handler that leaves devices and flags alone represents what it did. -/
theorem Represents.congr (hr : Represents cards phases h) (hdevices : h'.devices = h.devices)
    (hindicators : h'.indicators = h.indicators) : Represents cards phases h' where
  cards := by rw [hdevices, hr.cards]
  shows := by
    rw [hdevices, hindicators]
    exact hr.shows

/-- A DHCP packet takes the device where it takes the client. -/
theorem represents_dhcp {device : NetworkDevice} {data : Dhcp.Data} {j : Nat}
    (hr : Represents cards phases h)
    (hj : h.devices.findIdx? (fun d => d.id == device.id) = some j)
    (hd : h.devices[j]? = some device) (hrun : handleDhcp device data h = .ok h') :
    Represents cards (Function.update phases j (Client.next txId (phases j) data)) h' := by
  have hs := hr.shows j device hd
  have hothers : ∀ phase i, i ≠ j → Function.update phases j phase i = phases i :=
    fun phase i hij => Function.update_of_ne hij phase phases
  rcases handleDhcp_cases hrun with ⟨hexp, rfl⟩ |
    ⟨indicator, transactionId, request, hdhcp, hoffer, hrequest, rfl⟩ |
    ⟨indicator, transactionId, ownIp, serverIp, hdhcp, hack, rfl⟩
  · rw [hs.dhcp] at hexp
    rw [expected_exchange j _ data hexp, Function.update_eq_self]
    exact hr
  · -- The device was waiting for an Offer, so its client was.
    rw [hs.dhcp] at hdhcp
    cases hphase : phases j with
    | requested offer => rw [hphase] at hdhcp; cases hdhcp
    | done offer => rw [hphase] at hdhcp; cases hdhcp
    | discover =>
        rw [hphase] at hdhcp hs
        cases hdhcp
        obtain ⟨sent, hsent, hop, -⟩ := request_read hrequest
        refine hr.update hj hd rfl (fun _ => rfl) (fun i hij => ⟨hothers _ i hij, rfl⟩) ?_
        rw [Function.update_self, Client.next, if_pos hoffer]
        refine ⟨rfl, hs.ip, hs.indicator, ?_⟩
        show (device.enqueue request).packetQueue.countP isDhcpRequest = 1
        rw [countP_enqueue, hs.requests, isDhcpRequest, hsent]
        simp [hop, Client.Phase.requests]
  · rw [hs.dhcp] at hdhcp
    cases hphase : phases j with
    | discover => rw [hphase] at hdhcp; cases hdhcp
    | done offer => rw [hphase] at hdhcp; cases hdhcp
    | requested offer =>
        rw [hphase] at hdhcp hs
        cases hdhcp
        refine hr.update hj hd rfl (fun _ => rfl) (fun i hij => ⟨hothers _ i hij, ?_⟩) ?_
        · exact Function.update_of_ne hij true h.indicators
        · rw [Function.update_self, Client.next, if_pos hack]
          exact ⟨rfl, rfl, Function.update_self _ _ _, hs.requests⟩

/-- A frame is looked at and acted on for one device, the first with its id, and reaches no
other card. -/
theorem packet_cases {raw : RawPacket} (hcards : h.devices.map NetworkDevice.card = cards)
    (hrun : handlePacket raw h = .ok h') :
    ∃ j device seen, h.devices.findIdx? (fun d => d.id == device.id) = some j ∧
      h.devices[j]? = some device ∧ inspect device.metadata.mac ⟨raw.buffer⟩ = .ok seen ∧
      act device h seen = .ok h' ∧
      ∀ i, delivered cards i (.packet raw) = if i = j then dhcpOf seen else none := by
  obtain ⟨j, device, seen, hid, hj, hd, hseen, hrun⟩ := handlePacket_found hrun
  refine ⟨j, device, seen, hj, hd, hseen, hrun, ?_⟩
  intro i
  have hfirst : cards.findIdx? (fun c => c.id == raw.id) = some j := by
    rw [← hcards, List.findIdx?_map, ← hid]
    exact hj
  rw [delivered, hfirst]
  by_cases hij : i = j
  · subst hij
    rw [if_pos rfl, if_pos rfl, ← hcards, List.getElem?_map, hd]
    show (inspect device.metadata.mac ⟨raw.buffer⟩).toOption.bind dhcpOf = _
    rw [hseen]
    rfl
  · rw [if_neg hij, if_neg (fun hc => hij (Option.some.inj hc).symm)]

theorem represents_packet {raw : RawPacket} (hr : Represents cards phases h)
    (hrun : handlePacket raw h = .ok h') :
    Represents cards
      (fun i => Client.nextOf txId (phases i) (delivered cards i (.packet raw))) h' := by
  obtain ⟨j, device, seen, hj, hd, hseen, hact, hdelivered⟩ := packet_cases hr.cards hrun
  have hphases : (fun i => Client.nextOf txId (phases i) (delivered cards i (.packet raw)))
      = Function.update phases j (Client.nextOf txId (phases j) (dhcpOf seen)) := by
    funext i
    rw [hdelivered]
    by_cases hij : i = j
    · subst hij
      rw [if_pos rfl, Function.update_self]
    · rw [if_neg hij, Function.update_of_ne hij]
      rfl
  rw [hphases]
  rcases act_cases hseen hact with ⟨hdhcp, hdevices, hindicators⟩ |
    ⟨reply, hdhcp, hreply, hdevices, hindicators⟩ | ⟨data, hdhcp, hhandle⟩
  · rw [hdhcp, Client.nextOf, Function.update_eq_self]
    exact hr.congr hdevices hindicators
  · rw [hdhcp, Client.nextOf, Function.update_eq_self]
    refine hr.update hj hd hdevices (fun _ => rfl) (fun i _ => ⟨rfl, by rw [hindicators]⟩) ?_
    rw [hindicators]
    exact (hr.shows j device hd).enqueue hreply
  · rw [hdhcp]
    exact represents_dhcp hr hj hd hhandle

/-- A DHCP packet that the device does not wait for changes nothing at all. -/
theorem unexpected_unchanged {m : HandlerMessage} {i : Nat} {d : NetworkDevice}
    {data : Dhcp.Data} (hcards : h.devices.map NetworkDevice.card = cards)
    (hrun : handle h m = .ok h') (hd : h.devices[i]? = some d)
    (hdelivered : delivered cards i m = some data)
    (hexp : expected d.metadata.dhcp data = false) : h' = h := by
  cases m with
  | action request => cases hdelivered
  | packet raw =>
      obtain ⟨j, device, seen, -, hj, hseen, hact, hall⟩ := packet_cases hcards hrun
      rw [hall] at hdelivered
      split at hdelivered
      · rename_i hij
        subst hij
        rw [hd] at hj
        cases hj
        rcases act_cases hseen hact with ⟨hnone, -⟩ | ⟨reply, hnone, -⟩ | ⟨data', hsome, hhandle⟩
        · rw [hnone] at hdelivered
          cases hdelivered
        · rw [hnone] at hdelivered
          cases hdelivered
        · rw [hsome] at hdelivered
          cases hdelivered
          rcases handleDhcp_cases hhandle with ⟨-, hsame⟩ |
            ⟨indicator, transactionId, request, hdhcp, hoffer, -⟩ |
            ⟨indicator, transactionId, ownIp, serverIp, hdhcp, hack, -⟩
          · exact hsame
          · rw [hdhcp, expected, hoffer] at hexp
            cases hexp
          · rw [hdhcp, expected, hack] at hexp
            cases hexp
      · cases hdelivered

/-- Every device sends a packet that is not a Request. -/
theorem represents_enqueueAll {make : NetworkDevice → Exec (Option Ethernet.Packet)}
    {devices : List NetworkDevice} (hr : Represents cards phases h)
    (hmake : ∀ d packet, make d = .ok (some packet) → isDhcpRequest packet = false)
    (hrun : enqueueAll make h.devices = .ok devices) (hdevices : h'.devices = devices)
    (hindicators : h'.indicators = h.indicators) : Represents cards phases h' := by
  obtain ⟨hcards, hget⟩ := getElem?_enqueueAll hrun
  refine ⟨by rw [hdevices, hcards, hr.cards], ?_⟩
  intro i d hd
  rw [hdevices] at hd
  obtain ⟨d₀, packet, hd₀, hpacket, rfl⟩ := hget i d hd
  rw [hindicators]
  exact (hr.shows i d₀ hd₀).enqueue (hmake d₀ packet hpacket)

theorem handle_of_step {m : HandlerMessage} (hstep : step h m = some h') :
    handle h m = .ok h' := eq_ok_of_toOption hstep

/-- **One message.**  Every device goes where the message takes its client. -/
theorem represents_step {m : HandlerMessage} (hr : Represents cards phases h)
    (hstep : step h m = some h') :
    Represents cards (fun i => Client.nextOf txId (phases i) (delivered cards i m)) h' := by
  have hrun := handle_of_step hstep
  cases m with
  | packet raw => exact represents_packet hr hrun
  | action request =>
      cases request with
      | sendArpRequest ip retQueue =>
          obtain ⟨devices, hdevices, hrun⟩ := bind_eq_ok.mp hrun
          cases hrun
          exact represents_enqueueAll hr (fun _ _ => arp_silent) hdevices rfl rfl
      | pingRequest waker ip mac result =>
          obtain ⟨devices, hdevices, hrun⟩ := bind_eq_ok.mp hrun
          cases hrun
          exact represents_enqueueAll hr (fun _ _ => echo_silent) hdevices rfl rfl

/-- Where the client of the `i`-th card is after some messages. -/
def phaseAfter (cards : List Card) (ms : List HandlerMessage) (i : Nat) : Client.Phase :=
  Client.after txId (ms.filterMap (delivered cards i))

/--
**The handler runs one client for each card.**  After any messages the handler gets
through, every device is where the client is that was given the DHCP messages of that
device.
-/
theorem represents_run {h₀ : Handler} {retQueues : Nat → RetQueue} {ms : List HandlerMessage}
    (hsetup : Handler.setup (cards.map Card.device) retQueues = .ok h₀)
    (hrun : Lts.run step h₀ ms = some h) : Represents cards (phaseAfter cards ms) h := by
  induction ms using List.reverseRecOn generalizing h with
  | nil =>
      cases hrun
      exact represents_setup hsetup
  | append_singleton ms m ih =>
      obtain ⟨mid, hmid, hlast⟩ := Lts.run_snoc.mp hrun
      have hstep := represents_step (ih hmid) hlast
      have hphase : phaseAfter cards (ms ++ [m])
          = fun i => Client.nextOf txId (phaseAfter cards ms i) (delivered cards i m) :=
        funext fun i => Client.after_filterMap_snoc txId (delivered cards i) ms m
      rw [hphase]
      exact hstep

end Rucoonos.Net
