/-
Hosts that ask each other for their addresses.

Any number of hosts run this handler on one segment, beside other stations.  Whatever a
device sends may reach any card of any host, at any time after that, any number of times
or never.  The other stations may change their addresses at any time, and send what they
like, except that an ARP response of theirs is true when it is sent; it may arrive when it
no longer is.

A host believes every ARP response it can read.  `Truthful` says that what it believes is
so, for whatever relation tells who has or had which address, and that one step of the host
keeps it that way if the frame that arrives is honest.  The frames of the hosts are honest,
as a device answers for itself only and never gives an address up; `answers_truthful` puts
the two together.

A frame of a host also does no harm: `peers_handled_iff` says which frames of one host
another one cannot handle.
-/
import Rucoonos.Proofs.Net.Dhcp
import Rucoonos.Proofs.Net.Outgoing
import Rucoonos.Proofs.Net.Waiters

namespace Rucoonos.Net

open Lts Pending Slice

/-! ### The segment -/

/-- Who has which address, by the ARP response in a frame. -/
def responseOf (frame : Ethernet.Packet) : Option (Ip × Mac) :=
  match frame.etherType, Arp.Packet.new frame with
  | .ok .arp, .ok (some packet) => (Seen.arp packet).response
  | _, _ => none

/-- The hosts, and which addresses the other stations have had so far, the latest last. -/
structure Lan where
  hosts : List System
  stations : List (Ip → Mac → Bool)

inductive LanEvent
  /-- A caller on the `a`-th host acts, or its handler processes a message. -/
  | act (a : Nat) (action : Action)
  /-- The `k`-th frame of the `i`-th device of the `a`-th host reaches a card of the `b`-th. -/
  | deliver (a i k b id : Nat)
  /-- A frame that another station sent when the stations had their `sent`-th addresses
  reaches a card of the `b`-th host. -/
  | foreign (b : Nat) (raw : RawPacket) (sent : Nat)
  /-- The other stations have other addresses from now on. -/
  | moved (addresses : Ip → Mac → Bool)

def Lan.onHost (lan : Lan) (a : Nat) (action : Action) : Option Lan := do
  let s ← lan.hosts[a]?
  let s' ← s.step action
  return { lan with hosts := lan.hosts.set a s' }

def lanStep (lan : Lan) : LanEvent → Option Lan
  | .act a action =>
      if action.byCaller = true ∨ action = .handle then lan.onHost a action else none
  | .deliver a i k b id => do
      let s ← lan.hosts[a]?
      let d ← s.handler.devices[i]?
      let frame ← d.packetQueue[k]?
      lan.onHost b (.receive ⟨id, .new frame.wire⟩ none)
  | .foreign b raw sent => do
      let addresses ← lan.stations[sent]?
      if (responseOf ⟨raw.buffer⟩).all (fun r => addresses r.1 r.2) then
        lan.onHost b (.receive raw none)
      else none
  | .moved addresses => some { lan with stations := lan.stations ++ [addresses] }

/-- A host on the segment has this address now, or another station has had it. -/
def Lan.HasAddress (lan : Lan) (ip : Ip) (mac : Mac) : Prop :=
  (∃ addresses ∈ lan.stations, addresses ip mac = true) ∨
    ∃ s ∈ lan.hosts, ∃ d ∈ s.handler.devices, d.metadata.ip = some ip ∧ d.metadata.mac = mac

/-! ### What a host believes -/

section Host

variable {B B' : Ip → Mac → Prop} {s s' : System} {a : Action}

/-- The frame tells the truth. -/
def Honest (B : Ip → Mac → Prop) (frame : Ethernet.Packet) : Prop :=
  ∀ ip mac, responseOf frame = some (ip, mac) → B ip mac

/-- What the host was told, what it keeps and what it has told its callers is true. -/
structure Truthful (B : Ip → Mac → Prop) (s : System) : Prop where
  mail : ∀ letter ∈ s.mailbox, ∀ raw, letter.message = .packet raw → Honest B ⟨raw.buffer⟩
  ips : ∀ ip mac, s.handler.ips ip = some mac → B ip mac
  queues : ∀ (i : Nat) c, s.calls[i]? = some c → ∀ mac ∈ (s.handler.retQueues i).items, B c.ip mac
  returned : ∀ c ∈ s.calls, ∀ mac, c.returned = some (some mac) → B c.ip mac

theorem Truthful.mono (h : Truthful B s) (hB : ∀ ip mac, B ip mac → B' ip mac) : Truthful B' s where
  mail := fun letter hmem raw hraw ip mac hresponse =>
    hB ip mac (h.mail letter hmem raw hraw ip mac hresponse)
  ips := fun ip mac hips => hB ip mac (h.ips ip mac hips)
  queues := fun i c hc mac hmem => hB c.ip mac (h.queues i c hc mac hmem)
  returned := fun c hc mac hmac => hB c.ip mac (h.returned c hc mac hmac)

/-- A response that is read off a frame stands in it. -/
theorem responseOf_of_response {h : Handler} {raw : RawPacket} {r : Ip × Mac}
    (hresponse : response h (.packet raw) = some r) : responseOf ⟨raw.buffer⟩ = some r := by
  obtain ⟨seen, hseen, hr⟩ := Option.bind_eq_some_iff.mp hresponse
  obtain ⟨device, -, hinspect⟩ := Option.bind_eq_some_iff.mp hseen
  have hreads := inspect_reads (eq_ok_of_toOption hinspect)
  cases seen with
  | arp packet =>
      rw [responseOf, hreads.1, hreads.2]
      exact hr
  | _ => cases hr

/-- The map of addresses holds the last response for each. -/
theorem packet_ips {h h' : Handler} {raw : RawPacket}
    (hstep : Net.step h (.packet raw) = some h') :
    (response h (.packet raw) = none ∧ h'.ips = h.ips) ∨
      ∃ ip mac, response h (.packet raw) = some (ip, mac) ∧
        h'.ips = Function.update h.ips ip (some mac) := by
  obtain ⟨device, seen, hseen, -, heffect⟩ := step_packet hstep
  have hresponse : response h (.packet raw) = seen.response := by
    rw [response, hseen, Option.bind_some]
  rw [hresponse]
  cases heffect with
  | arpIgnored hop => exact .inl ⟨if_neg hop, rfl⟩
  | arpReplied hop hreply => exact .inl ⟨if_neg hop, rfl⟩
  | arpHeard hop hnone => exact .inr ⟨_, _, if_pos hop, rfl⟩
  | arpAnswered hop hsome hqueue => exact .inr ⟨_, _, if_pos hop, rfl⟩
  | dhcp hdhcp hrun => exact .inl ⟨rfl, (handleDhcp_bindings hrun).ips⟩
  | _ => exact .inl ⟨rfl, rfl⟩

/-- The handler has taken a letter, and no call has returned or asked for something else. -/
theorem Truthful.handled (h : Truthful B s) (hmail : ∀ letter ∈ s'.mailbox, letter ∈ s.mailbox)
    (hips : ∀ ip mac, s'.handler.ips ip = some mac → B ip mac)
    (hcalls : ∀ (j : Nat) c', s'.calls[j]? = some c' → ∃ c, s.calls[j]? = some c ∧
      c'.ip = c.ip ∧ c'.returned = c.returned ∧
      ∀ mac ∈ (s'.handler.retQueues j).items, B c.ip mac) : Truthful B s' := by
  refine ⟨fun letter hmem => h.mail letter (hmail letter hmem), hips, ?_, ?_⟩
  · intro j c' hc' mac hmem
    obtain ⟨c, -, hip, -, hitems⟩ := hcalls j c' hc'
    rw [hip]
    exact hitems mac hmem
  · intro c' hc' mac hmac
    obtain ⟨j, hj⟩ := List.getElem?_of_mem hc'
    obtain ⟨c, hc, hip, hreturned, -⟩ := hcalls j c' hj
    rw [hip]
    exact h.returned c (List.mem_of_getElem? hc) mac (by rw [← hreturned]; exact hmac)

/-- A packet puts the address it announces in the queue of the call for it. -/
theorem Truthful.packet (hs : Sound s.arpDesk) (h : Truthful B s) {raw : RawPacket}
    {answers : Option Nat} {rest : List Letter} {h' : Handler}
    (hmail : s.mailbox = ⟨.packet raw, answers⟩ :: rest)
    (hstep : Net.step s.handler (.packet raw) = some h') :
    Truthful B (s.handled ⟨.packet raw, answers⟩ rest h') := by
  have hhonest : ∀ ip mac, response s.handler (.packet raw) = some (ip, mac) → B ip mac := by
    intro ip mac hresponse
    refine h.mail ⟨.packet raw, answers⟩ ?_ raw rfl ip mac (responseOf_of_response hresponse)
    rw [hmail]
    exact List.mem_cons_self
  refine h.handled (by rw [hmail]; exact fun _ => List.mem_cons_of_mem _) ?_ ?_
  · intro ip mac hips
    have hips : h'.ips ip = some mac := hips
    rcases packet_ips hstep with ⟨-, hsame⟩ | ⟨ip', mac', hresponse, hupdate⟩
    · rw [hsame] at hips
      exact h.ips ip mac hips
    · rw [hupdate] at hips
      by_cases hip : ip = ip'
      · subst hip
        rw [Function.update_self, Option.some.injEq] at hips
        subst hips
        exact hhonest ip mac' hresponse
      · rw [Function.update_of_ne hip] at hips
        exact h.ips ip mac hips
  · intro j c' hc'
    show ∃ c : Call, _ ∧ _ ∧ _ ∧ ∀ mac ∈ (h'.retQueues j).items, B c.ip mac
    rcases packet_arp hstep with ⟨hresponse, -, hqueues⟩ | ⟨ip, mac, hresponse, -, -, hqueues⟩ |
      ⟨ip, mac, listeners, queue, hresponse, hslot, hqueue, -, hqueues⟩
    · rw [calls_handled hresponse] at hc'
      rw [hqueues]
      exact ⟨c', hc', rfl, rfl, h.queues j c' hc'⟩
    · obtain ⟨c, hc, rfl⟩ := getElem?_calls_handled hresponse hc'
      obtain ⟨hip, hreturned, -⟩ := c.hear_same ip mac
      rw [hqueues]
      exact ⟨c, hc, hip, hreturned, h.queues j c hc⟩
    · obtain ⟨c, hc, rfl⟩ := getElem?_calls_handled hresponse hc'
      obtain ⟨hip, hreturned, -⟩ := c.hear_same ip mac
      refine ⟨c, hc, hip, hreturned, ?_⟩
      rw [hqueues]
      by_cases hj : j = listeners
      · subst hj
        obtain ⟨-, rfl⟩ := tryEnqueue_eq_some.mp hqueue
        obtain ⟨c₀, hc₀, hip₀, -⟩ := registered_of_slot hs hslot
        rw [hc, Option.some.injEq] at hc₀
        subst hc₀
        rw [Function.update_self]
        intro m hmem
        rcases List.mem_append.mp hmem with hold | hnew
        · exact h.queues j c hc m hold
        · rw [List.mem_singleton.mp hnew, hip₀]
          exact hhonest ip mac hresponse
      · rw [Function.update_of_ne hj]
        exact h.queues j c hc

/-- A move that concerns the record and the queue of one call. -/
theorem Truthful.set (h : Truthful B s) {i : Nat} {c c' : Call} {q : RetQueue}
    (hc : s.calls[i]? = some c) (hip : c'.ip = c.ip)
    (hitems : ∀ mac ∈ q.items, mac ∈ (s.handler.retQueues i).items)
    (hreturned : ∀ mac, c'.returned = some (some mac) → B c.ip mac) :
    Truthful B (System.setQueue { s with calls := s.calls.set i c' } i q) := by
  refine ⟨h.mail, h.ips, ?_, ?_⟩
  · intro j d hd mac hmem
    have hmem : mac ∈ (Function.update s.handler.retQueues i q j).items := hmem
    rcases getElem?_set_eq_some.mp hd with ⟨rfl, -, rfl⟩ | ⟨hj, hd⟩
    · rw [Function.update_self] at hmem
      rw [hip]
      exact h.queues i c hc mac (hitems mac hmem)
    · rw [Function.update_of_ne hj] at hmem
      exact h.queues j d hd mac hmem
  · intro d hd mac hmac
    obtain ⟨j, hj⟩ := List.getElem?_of_mem hd
    rcases getElem?_set_eq_some.mp hj with ⟨rfl, -, rfl⟩ | ⟨-, hj⟩
    · rw [hip]
      exact hreturned mac hmac
    · exact h.returned d (List.mem_of_getElem? hj) mac hmac

/-- A letter more in the mailbox. -/
theorem Truthful.post (h : Truthful B s) {message : HandlerMessage} {answers : Option Nat}
    (hhonest : ∀ raw, message = .packet raw → Honest B ⟨raw.buffer⟩) :
    Truthful B (s.post message answers) where
  mail := by
    intro letter hmem
    rcases List.mem_append.mp hmem with hold | hnew
    · exact h.mail letter hold
    · rw [List.mem_singleton.mp hnew]
      exact hhonest
  ips := h.ips
  queues := h.queues
  returned := h.returned

/-- A new call has an empty queue. -/
theorem Truthful.ask (h : Truthful B s) (ip : Ip) : Truthful B
    (System.setQueue { s with calls := s.calls ++ [Call.new ip] } s.calls.length .new) where
  mail := h.mail
  ips := h.ips
  queues := by
    intro j c hc mac hmem
    have hmem : mac ∈ (Function.update s.handler.retQueues s.calls.length .new j).items := hmem
    rcases getElem?_concat_eq_some.mp hc with hc | ⟨rfl, -⟩
    · rw [Function.update_of_ne (Nat.ne_of_lt (List.getElem?_eq_some_iff.mp hc).1)] at hmem
      exact h.queues j c hc mac hmem
    · rw [Function.update_self] at hmem
      cases hmem
  returned := by
    intro c hc mac hmac
    rcases List.mem_append.mp hc with hold | hnew
    · exact h.returned c hold mac hmac
    · rw [List.mem_singleton.mp hnew] at hmac
      cases hmac

/-- **One step of a host.**  A host that is told the truth believes and tells the truth. -/
theorem Truthful.step (hs : Sound s.arpDesk) (h : Truthful B s) (hstep : s.step a = some s')
    (hhonest : ∀ raw answers, a = .receive raw answers → Honest B ⟨raw.buffer⟩) :
    Truthful B s' := by
  cases step_move hstep with
  | getMac =>
      rename_i ip
      exact (h.ask ip).post (by intro raw hraw; cases hraw)
  | pending hcall hpoll => exact h
  | returned hcall hopen hpoll =>
      rename_i i call result queue
      obtain ⟨-, -, hresult, hitems⟩ := getMacPoll_eq_some hpoll
      refine h.set hcall rfl (fun mac hmem => List.mem_of_mem_tail (hitems ▸ hmem)) ?_
      intro mac hmac
      rw [show result = some mac from Option.some.inj hmac] at hresult
      exact h.queues i call hcall mac (List.mem_of_mem_head? hresult.symm)
  | cancelled hcall hopen =>
      rename_i i call
      refine h.set hcall rfl (fun mac hmem => hmem) ?_
      intro mac hmac
      exact h.returned call (List.mem_of_getElem? hcall) mac hmac
  | rawPing => exact ⟨h.mail, h.ips, h.queues, h.returned⟩
  | pingPolled => exact h
  | pingPosted hping hsend hip =>
      refine Truthful.post ?_ (by intro raw hraw; cases hraw)
      exact ⟨h.mail, h.ips, h.queues, h.returned⟩
  | receive =>
      rename_i raw answers
      refine h.post fun raw' hraw => ?_
      cases hraw
      exact hhonest raw answers rfl
  | handled hmail hh' =>
      rename_i letter rest h'
      obtain ⟨message, answers⟩ := letter
      have hrest : ∀ letter ∈ rest, letter ∈ s.mailbox := by
        rw [hmail]
        exact fun _ => List.mem_cons_of_mem _
      cases message with
      | packet raw => exact h.packet hs hmail hh'
      | action request =>
          cases request with
          | sendArpRequest ip retQueue =>
              obtain ⟨devices, rfl⟩ := step_sendArpRequest hh'
              refine h.handled hrest h.ips ?_
              intro j c' hc'
              obtain ⟨c, hc, rfl⟩ := getElem?_modify_eq_some.mp hc'
              have hitems := h.queues j c hc
              rw [← (dropOld_receiver s.handler ip j).2.1] at hitems
              refine ⟨c, hc, ?_, ?_, hitems⟩
              · split
                · rfl
                · rfl
              · split
                · rfl
                · rfl
          | pingRequest waker ip mac result =>
              obtain ⟨devices, -, rfl⟩ := step_pingRequest hh'
              exact h.handled hrest h.ips fun j c hc => ⟨c, hc, rfl, rfl, h.queues j c hc⟩

/-! ### What a host sends -/

/-- A device that has an address keeps it. -/
theorem ip_stays {cards : List Card} {phases : Nat → Client.Phase} {h h' : Handler}
    {m : HandlerMessage} (hr : Represents cards phases h) (hstep : Net.step h m = some h')
    {j : Nat} {d d' : NetworkDevice} {ip : Ip} (hd : h.devices[j]? = some d)
    (hd' : h'.devices[j]? = some d') (hip : d.metadata.ip = some ip) :
    d'.metadata.ip = some ip := by
  rw [(hr.shows j d hd).ip] at hip
  rw [((represents_step hr hstep).shows j d' hd').ip]
  cases hphase : phases j with
  | discover => rw [hphase] at hip; cases hip
  | requested offer => rw [hphase] at hip; cases hip
  | done offer =>
      rw [hphase] at hip
      cases hdata : delivered cards j m with
      | none => exact hip
      | some data => exact hip

/-- What is known of a host at any time. -/
structure HostOK (B : Ip → Mac → Prop) (s : System) : Prop where
  sound : Sound s.arpDesk
  queues : Queues s
  truthful : Truthful B s
  represents : ∃ cards phases, Represents cards phases s.handler
  own : ∀ d ∈ s.handler.devices, ∀ frame ∈ d.packetQueue,
    Own d.metadata.mac d.metadata.ip frame

theorem HostOK.mono (h : HostOK B s) (hB : ∀ ip mac, B ip mac → B' ip mac) : HostOK B' s :=
  ⟨h.sound, h.queues, h.truthful.mono hB, h.represents, h.own⟩

/-- A message leaves each device its address and adds a frame of its own at most. -/
theorem HostOK.devices (h : HostOK B s) (hstep : s.step a = some s') :
    (∃ cards phases, Represents cards phases s'.handler) ∧
    (∀ d ∈ s'.handler.devices, ∀ frame ∈ d.packetQueue,
      Own d.metadata.mac d.metadata.ip frame) ∧
    ∀ d ∈ s.handler.devices, ∀ ip, d.metadata.ip = some ip →
      ∃ d' ∈ s'.handler.devices, d'.metadata.ip = some ip ∧ d'.metadata.mac = d.metadata.mac := by
  obtain ⟨cards, phases, hr⟩ := h.represents
  by_cases ha : a = .handle
  · subst ha
    cases step_move hstep with
    | handled hmail hh' =>
        rename_i letter rest h'
        obtain ⟨hlen, hsent⟩ := step_sent hh'
        refine ⟨⟨cards, _, represents_step hr hh'⟩, ?_, ?_⟩
        · intro d' hd' frame hframe
          obtain ⟨j, hj⟩ := List.getElem?_of_mem hd'
          have hj : h'.devices[j]? = some d' := hj
          have hlt : j < s.handler.devices.length := by
            rw [← hlen]
            exact (List.getElem?_eq_some_iff.mp hj).1
          have hd := List.getElem?_eq_getElem hlt
          obtain ⟨d'', hd'', hs⟩ := hsent j _ hd
          rw [hj, Option.some.injEq] at hd''
          subst hd''
          have hmac : d'.metadata.mac = (s.handler.devices[j]).metadata.mac :=
            congrArg Card.mac hs.card
          have hmono : Own (s.handler.devices[j]).metadata.mac
              (s.handler.devices[j]).metadata.ip frame := by
            rcases hs.queue with heq | ⟨new, heq, hown⟩
            · rw [heq] at hframe
              exact h.own _ (List.getElem_mem hlt) frame hframe
            · rw [heq] at hframe
              rcases List.mem_append.mp hframe with hold | hnew
              · exact h.own _ (List.getElem_mem hlt) frame hold
              · rwa [List.mem_singleton.mp hnew]
          rw [hmac]
          exact hmono.mono fun ip hip => ip_stays hr hh' hd hj hip
        · intro d hd ip hip
          obtain ⟨j, hj⟩ := List.getElem?_of_mem hd
          obtain ⟨d', hd', hs⟩ := hsent j d hj
          exact ⟨d', List.mem_of_getElem? hd', ip_stays hr hh' hj hd' hip,
            congrArg Card.mac hs.card⟩
  · obtain ⟨hdevices, hindicators⟩ := devices_of_quiet ha hstep
    rw [hdevices]
    exact ⟨⟨cards, phases, hr.congr hdevices hindicators⟩, h.own,
      fun d hd ip hip => ⟨d, hd, hip, rfl⟩⟩

theorem HostOK.step (h : HostOK B s) (hstep : s.step a = some s')
    (hhonest : ∀ raw answers, a = .receive raw answers → Honest B ⟨raw.buffer⟩) : HostOK B s' :=
  ⟨h.sound.move (arpDesk_step hstep), h.queues.step h.sound hstep,
    h.truthful.step h.sound hstep hhonest, (h.devices hstep).1, (h.devices hstep).2.1⟩

/-- A host whose handler has just been set up. -/
def Starts (s : System) : Prop :=
  ∃ (cards : List Card) (retQueues : Nat → RetQueue) (h : Handler),
    Handler.setup (cards.map Card.device) retQueues = .ok h ∧ s = System.start h

theorem HostOK.start (hstart : Starts s) : HostOK B s := by
  obtain ⟨cards, retQueues, h, hsetup, rfl⟩ := hstart
  have hkept : Kept (System.start h) := .start (bindings_of_setup hsetup).1
  have hr := represents_setup hsetup
  obtain ⟨devices, hdevices, hsetup⟩ := bind_eq_ok.mp hsetup
  cases hsetup
  refine ⟨hkept.sound, hkept.queues, ⟨?_, ?_, ?_, ?_⟩, ⟨_, _, hr⟩, ?_⟩
  · intro letter hmem
    cases hmem
  · intro ip mac hips
    cases hips
  · intro i c hc
    cases hc
  · intro c hc
    cases hc
  · intro d hd frame hframe
    obtain ⟨i, hi⟩ := List.getElem?_of_mem hd
    obtain ⟨d₀, packet, hd₀, hpacket, rfl⟩ := (getElem?_setupDevices hdevices).2 i d hi
    obtain ⟨card, -, rfl⟩ := List.mem_map.mp (List.mem_of_getElem? hd₀)
    rw [List.mem_singleton.mp (show frame ∈ [packet] from hframe)]
    exact .dhcp (m := .discover) hpacket

end Host

/-! ### All hosts -/

section Lan

variable {lan lan' : Lan}

/-- What is known of all hosts at any time. -/
def LanOK (lan : Lan) : Prop := ∀ s ∈ lan.hosts, HostOK lan.HasAddress s

/-- What another handler reads off an own frame is a binding of its sender. -/
theorem Own.response {mac : Mac} {own : Option Ip} {frame : Ethernet.Packet}
    (h : Own mac own frame) {ip : Ip} {mac' : Mac}
    (hresponse : responseOf frame = some (ip, mac')) : own = some ip ∧ mac' = mac := by
  have hty : frame.etherType = .ok .ipv4 → False := by
    intro hty
    rw [responseOf, hty] at hresponse
    cases hresponse
  have hbuilt : ∀ b : Arp.PacketBuilder, b.finish = .ok (some frame) →
      (Seen.arp b.packet).response = some (ip, mac') := by
    intro b hmade
    obtain ⟨built, hbuilt, hfields⟩ := b.finish_built
    rw [hmade, Except.ok.injEq, Option.some.injEq] at hbuilt
    subst hbuilt
    rw [responseOf, hfields.etherType, hfields.parsed] at hresponse
    exact hresponse
  cases h with
  | dhcp hmade => exact (hty (Dhcp.Message.build_payload hmade).1.etherType).elim
  | arpRequest hmade => cases hbuilt _ hmade
  | arpResponse hip hmade =>
      cases hbuilt _ hmade
      exact ⟨hip, rfl⟩
  | echoRequest hmac hmade =>
      have hcarried := Icmp.PacketBuilder.finish_carried (by intro d hd; cases hd) hmade
      exact (hty hcarried.1.etherType).elim

theorem onHost_eq_some {a : Nat} {action : Action} (h : lan.onHost a action = some lan') :
    ∃ s s', lan.hosts[a]? = some s ∧ s.step action = some s' ∧
      lan' = { lan with hosts := lan.hosts.set a s' } := by
  obtain ⟨s, hs, h⟩ := Option.bind_eq_some_iff.mp h
  obtain ⟨s', hs', h⟩ := Option.bind_eq_some_iff.mp h
  cases h
  exact ⟨s, s', hs, hs', rfl⟩

/-- A step of one host. -/
theorem LanOK.onHost (h : LanOK lan) {a : Nat} {action : Action}
    (hstep : lan.onHost a action = some lan')
    (hhonest : ∀ raw answers, action = .receive raw answers →
      Honest lan.HasAddress ⟨raw.buffer⟩) : LanOK lan' := by
  obtain ⟨s, s', hs, hs', rfl⟩ := onHost_eq_some hstep
  have hmem : s ∈ lan.hosts := List.mem_of_getElem? hs
  have hlt : a < lan.hosts.length := (List.getElem?_eq_some_iff.mp hs).1
  have hok := h s hmem
  -- No host has lost an address.
  have hB : ∀ ip mac, lan.HasAddress ip mac →
      Lan.HasAddress { lan with hosts := lan.hosts.set a s' } ip mac := by
    intro ip mac hbound
    rcases hbound with hstation | ⟨t, ht, d, hd, hip, hmac⟩
    · exact .inl hstation
    · obtain ⟨b, hb⟩ := List.getElem?_of_mem ht
      by_cases hab : a = b
      · subst hab
        rw [hs, Option.some.injEq] at hb
        subst hb
        obtain ⟨d', hd', hip', hmac'⟩ := (hok.devices hs').2.2 d hd ip hip
        exact .inr ⟨s', List.mem_set hlt s', d', hd', hip', hmac'.trans hmac⟩
      · refine .inr ⟨t, ?_, d, hd, hip, hmac⟩
        exact List.mem_of_getElem? (by rw [List.getElem?_set_ne hab]; exact hb)
  intro t ht
  rcases List.mem_or_eq_of_mem_set ht with hold | rfl
  · exact (h t hold).mono hB
  · exact (hok.step hs' hhonest).mono hB

theorem LanOK.step (h : LanOK lan) {e : LanEvent} (hstep : lanStep lan e = some lan') :
    LanOK lan' := by
  cases e with
  | act a action =>
      rw [lanStep] at hstep
      split at hstep
      · rename_i hours
        refine h.onHost hstep ?_
        rintro raw answers rfl
        rcases hours with hcaller | hhandle
        · cases hcaller
        · cases hhandle
      · cases hstep
  | deliver a i k b id =>
      obtain ⟨s, hs, hstep⟩ := Option.bind_eq_some_iff.mp hstep
      obtain ⟨d, hd, hstep⟩ := Option.bind_eq_some_iff.mp hstep
      obtain ⟨frame, hframe, hstep⟩ := Option.bind_eq_some_iff.mp hstep
      have hmem := List.mem_of_getElem? hd
      have hown := (h s (List.mem_of_getElem? hs)).own d hmem frame (List.mem_of_getElem? hframe)
      refine h.onHost hstep ?_
      intro raw answers hraw ip mac hresponse
      cases hraw
      rw [hown.new_wire] at hresponse
      obtain ⟨hip, rfl⟩ := hown.response hresponse
      exact .inr ⟨s, List.mem_of_getElem? hs, d, hmem, hip, rfl⟩
  | foreign b raw sent =>
      obtain ⟨addresses, hsent, hstep⟩ := Option.bind_eq_some_iff.mp hstep
      split at hstep
      · rename_i htrue
        refine h.onHost hstep ?_
        intro raw' answers hraw ip mac hresponse
        cases hraw
        rw [hresponse, Option.all_some] at htrue
        exact .inl ⟨addresses, List.mem_of_getElem? hsent, htrue⟩
      · cases hstep
  | moved addresses =>
      cases hstep
      refine fun s hs => (h s hs).mono fun ip mac hbound => ?_
      exact hbound.imp_left fun ⟨old, hold, htrue⟩ => ⟨old, List.mem_append_left _ hold, htrue⟩

theorem LanOK.start (hstart : ∀ s ∈ lan.hosts, Starts s) : LanOK lan :=
  fun s hs => .start (hstart s hs)

end Lan

/-- What the hosts keep and have told their callers is true, and where no two have had the
same address, nobody is told two things. -/
structure Truth (lan : Lan) : Prop where
  kept : ∀ s ∈ lan.hosts, ∀ ip mac, s.handler.ips ip = some mac → lan.HasAddress ip mac
  told : ∀ s ∈ lan.hosts, ∀ c ∈ s.calls, ∀ mac, c.returned = some (some mac) →
    lan.HasAddress c.ip mac
  agree : (∀ ip mac mac', lan.HasAddress ip mac → lan.HasAddress ip mac' → mac = mac') →
    ∀ s ∈ lan.hosts, ∀ s' ∈ lan.hosts, ∀ c ∈ s.calls, ∀ c' ∈ s'.calls, c.ip = c'.ip →
      ∀ mac mac', c.returned = some (some mac) → c'.returned = some (some mac') → mac = mac'

/--
**Answers about addresses are true.**  Any hosts on one segment, whatever their callers do,
in whatever order, how often and whether at all their frames arrive, however the other
stations change their addresses, and whatever they send that is not an ARP response false at
that time: every address in the map of a host and every address that `get_mac` has returned
is that of a host that has the IP address, or of another station that has had it.  As long
as no two have had the same, any two calls for one IP address return the same.
-/
theorem answers_truthful (lan₀ : Lan) (hstart : ∀ s ∈ lan₀.hosts, Starts s)
    (events : List LanEvent) : Along lanStep Truth lan₀ events := by
  refine (along_of_step (fun lan e lan' (h : LanOK lan) hstep => h.step hstep)
    (LanOK.start hstart) events).mono ?_
  intro lan h
  have htold : ∀ s ∈ lan.hosts, ∀ c ∈ s.calls, ∀ mac, c.returned = some (some mac) →
      lan.HasAddress c.ip mac := fun s hs => (h s hs).truthful.returned
  refine ⟨fun s hs => (h s hs).truthful.ips, htold, ?_⟩
  intro hone s hs s' hs' c hc c' hc' hip mac mac' hmac hmac'
  refine hone c.ip mac mac' (htold s hs c hc mac hmac) ?_
  rw [hip]
  exact htold s' hs' c' hc' mac' hmac'

/-! ### Two hosts -/

def startHost (cards : List Card) : Option System :=
  (Handler.setup (cards.map Card.device) noQueues).toOption.map System.start

theorem starts_of_startHost {cards : List Card} {s : System} (h : startHost cards = some s) :
    Starts s := by
  obtain ⟨handler, hsetup, rfl⟩ := Option.map_eq_some_iff.mp h
  exact ⟨cards, noQueues, handler, eq_ok_of_toOption hsetup, rfl⟩

/-- Two hosts with one card each, and no other station that has an address. -/
def twoHosts : Option Lan := do
  let first ← startHost [⟨0, macA⟩]
  let second ← startHost [⟨0, someMac⟩]
  return ⟨[first, second], [fun _ _ => false]⟩

theorem starts_of_twoHosts {lan : Lan} (h : twoHosts = some lan) :
    ∀ s ∈ lan.hosts, Starts s := by
  unfold twoHosts at h
  obtain ⟨first, hfirst, h⟩ := Option.bind_eq_some_iff.mp h
  obtain ⟨second, hsecond, h⟩ := Option.bind_eq_some_iff.mp h
  cases h
  intro s hs
  rcases List.mem_pair.mp hs with rfl | rfl
  · exact starts_of_startHost hfirst
  · exact starts_of_startHost hsecond

/-- A run of the two hosts that can be evaluated. -/
theorem exists_of_twoHosts {events : List LanEvent} {A : Type} {f : Lan → A} {a : A}
    (h : (twoHosts.bind fun lan₀ => (run lanStep lan₀ events).map f) = some a) :
    ∃ lan₀ lan, twoHosts = some lan₀ ∧ run lanStep lan₀ events = some lan ∧ f lan = a := by
  obtain ⟨lan₀, hlan₀, h⟩ := Option.bind_eq_some_iff.mp h
  obtain ⟨lan, hrun, hf⟩ := Option.map_eq_some_iff.mp h
  exact ⟨lan₀, lan, hlan₀, hrun, hf⟩

/-- The first host gets its address from a server; the second one asks for it, and is
answered by the first.  Then another station comes, the second host asks for its address
too, and the answer arrives when the station has left. -/
def secondAsks : List LanEvent :=
  [.foreign 0 ⟨0, .new (offerFrame macA ipA)⟩ 0, .act 0 .handle,
    .foreign 0 ⟨0, .new (ackFrame macA ipA)⟩ 0, .act 0 .handle,
    .act 1 (.getMac ipA), .act 1 .handle, .deliver 1 0 1 0 0, .act 0 .handle,
    .deliver 0 0 2 1 0, .act 1 .handle, .act 1 (.pollMac 0),
    .moved fun ip mac => ip = hostIp ∧ mac = hostMac, .act 1 (.getMac hostIp), .act 1 .handle,
    .moved fun _ _ => false, .foreign 1 ⟨0, .new (arpResponse hostMac hostIp)⟩ 1, .act 1 .handle,
    .act 1 (.pollMac 1)]

theorem answers_truthful_secondAsks :
    ∃ lan₀ lan, twoHosts = some lan₀ ∧ run lanStep lan₀ secondAsks = some lan ∧
      lan.hosts.map (fun s => s.calls.map (·.returned))
        = [[], [some (some macA), some (some hostMac)]] ∧
      Truth lan := by
  obtain ⟨lan₀, lan, hlan₀, hrun, hreturned⟩ := exists_of_twoHosts (by decide +kernel :
    (twoHosts.bind fun lan₀ => (run lanStep lan₀ secondAsks).map
      fun lan => lan.hosts.map fun s => s.calls.map (·.returned))
        = some [[], [some (some macA), some (some hostMac)]])
  exact ⟨lan₀, lan, hlan₀, hrun, hreturned,
    (answers_truthful lan₀ (starts_of_twoHosts hlan₀) secondAsks).last hrun⟩

/-! ### Frames of another host -/

/-- The frame asks for an echo. -/
def Seen.asksEcho : Seen → Bool
  | .icmp _ (.echoRequest _ _) => true
  | _ => false

/-- What a handler can do with what it sees of another's frame. -/
theorem SeenOf.ends_act {mac : Mac} {own : Option Ip} {frame : Ethernet.Packet} {seen : Seen}
    {device : NetworkDevice} {h : Handler} (hseen : SeenOf mac own seen)
    (hinspect : inspect device.metadata.mac frame = .ok seen) :
    Ends (act device h seen) ↔ seen.asksEcho = false ∧
      ∀ ip mac', seen.response = some (ip, mac') →
        ∀ i, h.arp ip = some i → ((h.retQueues i).tryEnqueue mac').isSome = true := by
  cases hseen with
  | notForUs => exact iff_of_true (ends_ok _) ⟨rfl, fun _ _ hresponse => by cases hresponse⟩
  | dhcp hport =>
      rename_i packet header payload
      refine iff_of_true ?_ ⟨rfl, fun _ _ hresponse => by cases hresponse⟩
      have hheader : packet.header = .ok header := (inspect_reads hinspect).2
      obtain ⟨payload, hpayload⟩ := udp_payload_ok hheader
      show Ends (handleUdp device packet h)
      rw [handleUdp, hheader, ok_bind,
        if_neg (by rw [hport]; exact fun hc => absurd hc.1 (by decide))]
      split
      · exact ends_ok _
      · rw [hpayload]
        exact ends_ok _
  | arpRequest hop =>
      rename_i packet
      refine iff_of_true ?_ ⟨rfl, fun _ _ hresponse => ?_⟩
      · show Ends (handleArp device packet h)
        rw [handleArp, hop]
        cases device.metadata.ip with
        | none => exact ends_ok _
        | some ip =>
            simp only
            split
            · exact ends_ok _
            · obtain ⟨reply, hreply, -⟩ := Arp.PacketBuilder.finish_built
                ⟨device.metadata.mac, ip, packet.srcMac, packet.srcIp,
                  Arp.Operation.response.toU16⟩
              rw [hreply]
              exact ends_ok _
      · rw [Seen.response, hop, if_neg (by decide)] at hresponse
        cases hresponse
  | arpResponse hop hip hmac =>
      rename_i packet
      refine (handleArp_response hop).trans ⟨fun hsend => ⟨rfl, ?_⟩, fun hsend => ?_⟩
      · intro ip mac' hresponse
        rw [Seen.response, if_pos hop] at hresponse
        cases hresponse
        exact hsend
      · exact hsend.2 packet.srcIp packet.srcMac (if_pos hop)
  | echoRequest =>
      refine iff_of_false ?_ fun hsend => by cases hsend.1
      rintro ⟨h', hact⟩
      cases act_effect hinspect hact

/--
**Which frames of its peers a host cannot handle.**  Any hosts on one segment, after any run:
a frame that one of them has sent can be read on every card of every host, and the handler
there gets through it exactly if the card does not see an echo request in it, and no ARP
response to a call that was dropped.
-/
theorem peers_handled_iff (lan₀ lan : Lan) (hstart : ∀ s ∈ lan₀.hosts, Starts s)
    (events : List LanEvent) (hrun : run lanStep lan₀ events = some lan) (s t : System)
    (hs : s ∈ lan.hosts) (ht : t ∈ lan.hosts) (d : NetworkDevice) (hd : d ∈ s.handler.devices)
    (frame : Ethernet.Packet) (hframe : frame ∈ d.packetQueue) (id : Nat) (device : NetworkDevice)
    (hfound : t.handler.devices.find? (fun d => d.id == id) = some device) :
    ∃ seen, inspect device.metadata.mac ⟨.new frame.wire⟩ = .ok seen ∧
      ((∃ h', handle t.handler (.packet ⟨id, .new frame.wire⟩) = .ok h') ↔
        seen.asksEcho = false ∧
        ∀ ip mac, seen.response = some (ip, mac) → ∀ i c, t.handler.arp ip = some i →
          t.calls[i]? = some c → c.cancelled = false) := by
  have hok : LanOK lan :=
    run_invariant (fun lan e lan' (h : LanOK lan) hstep => h.step hstep) (LanOK.start hstart) hrun
  have hown := (hok s hs).own d hd frame hframe
  obtain ⟨seen, hinspect, hseen⟩ := hown.seen device.metadata.mac
  rw [hown.new_wire]
  refine ⟨seen, hinspect, ?_⟩
  have hhandle : handle t.handler (.packet ⟨id, frame.buffer⟩) = act device t.handler seen := by
    rw [handle, handlePacket, hfound]
    show handleFrame device ⟨frame.buffer⟩ t.handler = _
    rw [handleFrame_eq, hinspect]
    rfl
  rw [hhandle]
  refine (hseen.ends_act hinspect).trans (and_congr_right fun _ => ?_)
  constructor
  · intro hsend ip mac hresponse i c hslot hc
    exact ((hok t ht).queues.tryEnqueue_isSome (hok t ht).sound hslot hc mac).mp
      (hsend ip mac hresponse i hslot)
  · intro hlive ip mac hresponse i hslot
    obtain ⟨c, hc, -⟩ := registered_of_slot (hok t ht).sound hslot
    exact ((hok t ht).queues.tryEnqueue_isSome (hok t ht).sound hslot hc mac).mpr
      (hlive ip mac hresponse i c hslot hc)

/-- The second host pings the first, which never had an address. -/
def secondPingsFirst : List LanEvent :=
  [.act 1 (.rawPing ipA macA), .act 1 (.pollPing 0 0), .act 1 .handle]

/-- The second host with its `k`-th frame, and the first with its card. -/
def secondToFirst (k : Nat) (lan : Lan) :
    Option (System × System × NetworkDevice × Ethernet.Packet × NetworkDevice) := do
  let second ← lan.hosts[1]?
  let first ← lan.hosts[0]?
  let d ← second.handler.devices[0]?
  let frame ← d.packetQueue[k]?
  let device ← first.handler.devices.find? (fun d => d.id == 0)
  return (second, first, d, frame, device)

/-- The echo request takes the handler of the first host down. -/
theorem peers_handled_iff_echo :
    ∃ lan₀ lan, ∃ first ∈ lan.hosts, ∃ second ∈ lan.hosts, ∃ d ∈ second.handler.devices,
      ∃ frame ∈ d.packetQueue, twoHosts = some lan₀ ∧
        run lanStep lan₀ secondPingsFirst = some lan ∧
        ¬ ∃ h', handle first.handler (.packet ⟨0, .new frame.wire⟩) = .ok h' := by
  obtain ⟨lan₀, lan, hlan₀, hrun, hseen⟩ := exists_of_twoHosts (by decide +kernel :
    (twoHosts.bind fun lan₀ => (run lanStep lan₀ secondPingsFirst).map
      fun lan => (secondToFirst 1 lan).bind fun (_, _, _, frame, device) =>
        (inspect device.metadata.mac ⟨.new frame.wire⟩).toOption.map Seen.asksEcho)
      = some (some true))
  obtain ⟨⟨second, first, d, frame, device⟩, hfound, hecho⟩ := Option.bind_eq_some_iff.mp hseen
  obtain ⟨second, hsecond, hfound⟩ := Option.bind_eq_some_iff.mp hfound
  obtain ⟨first, hfirst, hfound⟩ := Option.bind_eq_some_iff.mp hfound
  obtain ⟨d, hd, hfound⟩ := Option.bind_eq_some_iff.mp hfound
  obtain ⟨frame, hframe, hfound⟩ := Option.bind_eq_some_iff.mp hfound
  obtain ⟨device, hdevice, hfound⟩ := Option.bind_eq_some_iff.mp hfound
  cases hfound
  obtain ⟨seen, hinspect, hasks⟩ := Option.map_eq_some_iff.mp hecho
  refine ⟨lan₀, lan, first, List.mem_of_getElem? hfirst, second, List.mem_of_getElem? hsecond,
    d, List.mem_of_getElem? hd, frame, List.mem_of_getElem? hframe, hlan₀, hrun, ?_⟩
  obtain ⟨seen', hinspect', hiff⟩ := peers_handled_iff lan₀ lan (starts_of_twoHosts hlan₀)
    secondPingsFirst hrun second first (List.mem_of_getElem? hsecond)
    (List.mem_of_getElem? hfirst) d (List.mem_of_getElem? hd) frame (List.mem_of_getElem? hframe)
    0 device hdevice
  rw [eq_ok_of_toOption hinspect, Except.ok.injEq] at hinspect'
  subst hinspect'
  intro hhandled
  rw [(hiff.mp hhandled).1] at hasks
  cases hasks

end Rucoonos.Net
