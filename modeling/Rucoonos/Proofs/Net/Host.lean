/-
The whole host: its cards, the interrupt that serves them and the handler.

Between a wire and the handler stand the receive ring of a card, the loop of its
`handle_interrupt`, the loop over all cards and the handler queue, and on the way back the
packet queue, the refill loop and the transmit ring.  All of this runs side by side with
the other cards and is entered whenever the shared interrupt line says so.

`host_refines` says that none of it shows: what the handler and its callers do is a run of
the system of `Requests.lean`, in which every card's frames are received one after the
other, in the order in which they were stored, and `host_sends` that every card sends what
its device has enqueued.  When the host is at rest, nothing is missing on either side.

Handling a message and the Discovers at the start happen with interrupts off, so each is
one step here.
-/
import Rucoonos.Net.Extension
import Rucoonos.Proofs.Device.Rest
import Rucoonos.Proofs.Net.Outgoing
import Rucoonos.Proofs.Net.Waiters

namespace Rucoonos.Net

open Lts Slice
open E1000 (Nic NicAction Given boxed message ReceiveInv TransmitInv)

/-! ### The steps of the host -/

structure Host where
  /-- `INT_DEVICES`. -/
  nics : List Nic
  turn : Turn
  /-- The handler with its queue and its callers.  Nobody but the handler looks at its
  devices, so they are here as the first lines of `network_handler` leave them even while
  these have not run. -/
  sys : System
  /-- The first lines of `network_handler` have run. -/
  begun : Bool

/-- The lengths of the packets that were ever enqueued on the `j`-th device. -/
def queued (h : Handler) (j : Nat) : List Nat :=
  match h.devices[j]? with
  | some d => d.packetQueue.map fun packet => packet.buffer.len
  | none => []

def Host.init (readMac : Nat → Mac) (pciDevices : List Pci.Device)
    (retQueues : Nat → RetQueue) : Exec Host := do
  let (networkDevices, devices) := setup readMac pciDevices
  let handler ← Handler.setup networkDevices retQueues
  return ⟨devices, .outside, System.start handler, false⟩

/-- What a step of a card has put on the handler queue. -/
def news (n n' : Nic) : List RawPacket :=
  n'.card.rx.delivered.drop n.card.rx.delivered.length

def System.deliver (s : System) (raws : List RawPacket) : System :=
  { s with mailbox := s.mailbox ++ raws.map fun raw => ⟨.packet raw, none⟩ }

/-- A step of the `k`-th card or of its handler. -/
def Host.onNic (host : Host) (k : Nat) (a : NicAction) : Option Host :=
  match host.nics[k]? with
  | none => none
  | some n => (n.step a).map fun n' =>
      { host with nics := host.nics.set k n', sys := host.sys.deliver (news n n') }

/-- Each device's packets from the given ones on go to its card. -/
def sendFrom (old : Nat → List Nat) (h : Handler) (nics : List Nic) : List Nic :=
  nics.mapIdx fun j n => n.enqueueAll ((queued h j).drop (old j).length)

inductive HostAction
  | transmit (k : Nat)
  | receive (k : Nat) (frame : Bytes) (bits : UInt8)
  | raise (k : Nat) (causes : UInt32)
  /-- The line is served. -/
  | interrupt
  /-- The loop over the cards goes on. -/
  | loop
  | driver
  /-- The first lines of `network_handler`. -/
  | start
  /-- A caller of the extension. -/
  | call (a : Action)
  | handle
  deriving DecidableEq, Repr

def Host.step (host : Host) : HostAction → Option Host
  | .transmit k => host.onNic k .transmit
  | .receive k frame bits => host.onNic k (.receive frame bits)
  | .raise k causes => host.onNic k (.raise causes)
  | .interrupt =>
      if host.turn = .outside then some { host with turn := .before 0 } else none
  | .loop =>
      match host.turn with
      | .outside => none
      | .before k =>
          if k < host.nics.length then
            (host.onNic k .interrupt).map fun host => { host with turn := .inside k }
          else some { host with turn := .outside }
      | .inside k =>
          if host.nics[k]?.map (fun n => n.card.point) = some .idle then
            some { host with turn := .before (k + 1) }
          else none
  | .driver =>
      match host.turn with
      | .inside k => host.onNic k .driver
      | _ => none
  | .start =>
      if host.turn = .outside ∧ host.begun = false then
        some { host with
          begun := true
          nics := sendFrom (fun _ => []) host.sys.handler host.nics }
      else none
  | .call a =>
      if host.turn = .outside ∧ a.byCaller = true then
        (host.sys.step a).map fun sys => { host with sys }
      else none
  | .handle =>
      if host.turn = .outside ∧ host.begun = true then
        (host.sys.step .handle).map fun sys =>
          { host with sys, nics := sendFrom (queued host.sys.handler) sys.handler host.nics }
      else none

/-- The card that takes a step of its own, with the step. -/
def HostAction.own : HostAction → Option (Nat × NicAction)
  | .transmit k => some (k, .transmit)
  | .receive k frame bits => some (k, .receive frame bits)
  | .raise k causes => some (k, .raise causes)
  | _ => none

/-- The host after a step of its `k`-th card. -/
def Host.after (host : Host) (k : Nat) (n n' : Nic) : Host :=
  { host with nics := host.nics.set k n', sys := host.sys.deliver (news n n') }

/-- Everything a step of the host can come to. -/
inductive HostMove (host : Host) : HostAction → Host → Prop
  | card {act : HostAction} {k : Nat} {a : NicAction} {n n' : Nic} (hact : act.own = some (k, a))
      (hn : host.nics[k]? = some n) (hn' : n.step a = some n') :
      HostMove host act (host.after k n n')
  | enter (hout : host.turn = .outside) : HostMove host .interrupt { host with turn := .before 0 }
  | serve {k : Nat} {n n' : Nic} (hturn : host.turn = .before k) (hn : host.nics[k]? = some n)
      (hn' : n.step .interrupt = some n') :
      HostMove host .loop { host.after k n n' with turn := .inside k }
  | leave {k : Nat} (hturn : host.turn = .before k) (hall : host.nics.length ≤ k) :
      HostMove host .loop { host with turn := .outside }
  | next {k : Nat} {n : Nic} (hturn : host.turn = .inside k) (hn : host.nics[k]? = some n)
      (hidle : n.card.point = .idle) : HostMove host .loop { host with turn := .before (k + 1) }
  | driver {k : Nat} {n n' : Nic} (hturn : host.turn = .inside k) (hn : host.nics[k]? = some n)
      (hn' : n.step .driver = some n') : HostMove host .driver (host.after k n n')
  | start (hout : host.turn = .outside) (hbegun : host.begun = false) : HostMove host .start
      { host with begun := true, nics := sendFrom (fun _ => []) host.sys.handler host.nics }
  | call {a : Action} {sys : System} (hout : host.turn = .outside) (ha : a.byCaller = true)
      (hsys : host.sys.step a = some sys) : HostMove host (.call a) { host with sys }
  | handle {sys : System} (hout : host.turn = .outside) (hbegun : host.begun = true)
      (hsys : host.sys.step .handle = some sys) : HostMove host .handle
      { host with sys, nics := sendFrom (queued host.sys.handler) sys.handler host.nics }

theorem onNic_eq {host host' : Host} {k : Nat} {a : NicAction}
    (hstep : host.onNic k a = some host') :
    ∃ n n', host.nics[k]? = some n ∧ n.step a = some n' ∧ host' = host.after k n n' := by
  unfold Host.onNic at hstep
  split at hstep
  · cases hstep
  · rename_i n hn
    obtain ⟨n', hn', rfl⟩ := Option.map_eq_some_iff.mp hstep
    exact ⟨n, n', hn, hn', rfl⟩

theorem loop_move {host host' : Host} (hstep : host.step .loop = some host') :
    HostMove host .loop host' := by
  simp only [Host.step] at hstep
  split at hstep
  · cases hstep
  · rename_i k hturn
    split at hstep
    · obtain ⟨mid, hmid, rfl⟩ := Option.map_eq_some_iff.mp hstep
      obtain ⟨n, n', hn, hn', rfl⟩ := onNic_eq hmid
      exact .serve hturn hn hn'
    · rename_i hall
      cases hstep
      exact .leave hturn (Nat.le_of_not_lt hall)
  · rename_i k hturn
    split at hstep
    · rename_i hdone
      cases hstep
      obtain ⟨n, hn, hidle⟩ := Option.map_eq_some_iff.mp hdone
      exact .next hturn hn hidle
    · cases hstep

/-- **One move of the host.** -/
theorem host_move {host host' : Host} {act : HostAction} (hstep : host.step act = some host') :
    HostMove host act host' := by
  cases act with
  | transmit k =>
      obtain ⟨n, n', hn, hn', rfl⟩ := onNic_eq hstep
      exact .card rfl hn hn'
  | receive k frame bits =>
      obtain ⟨n, n', hn, hn', rfl⟩ := onNic_eq hstep
      exact .card rfl hn hn'
  | raise k causes =>
      obtain ⟨n, n', hn, hn', rfl⟩ := onNic_eq hstep
      exact .card rfl hn hn'
  | interrupt =>
      simp only [Host.step] at hstep
      split at hstep
      · rename_i hout
        cases hstep
        exact .enter hout
      · cases hstep
  | loop => exact loop_move hstep
  | driver =>
      simp only [Host.step] at hstep
      split at hstep
      · rename_i k hturn
        obtain ⟨n, n', hn, hn', rfl⟩ := onNic_eq hstep
        exact .driver hturn hn hn'
      · cases hstep
  | start =>
      simp only [Host.step] at hstep
      split at hstep
      · rename_i hpre
        cases hstep
        exact .start hpre.1 hpre.2
      · cases hstep
  | call a =>
      simp only [Host.step] at hstep
      split at hstep
      · rename_i hpre
        obtain ⟨sys, hsys, rfl⟩ := Option.map_eq_some_iff.mp hstep
        exact .call hpre.1 hpre.2 hsys
      · cases hstep
  | handle =>
      simp only [Host.step] at hstep
      split at hstep
      · rename_i hpre
        obtain ⟨sys, hsys, rfl⟩ := Option.map_eq_some_iff.mp hstep
        exact .handle hpre.1 hpre.2 hsys
      · cases hstep

/-! ### What a message adds to the queues -/

theorem ids_of_sent {ds ds' : List NetworkDevice} (hlen : ds'.length = ds.length)
    (hsent : ∀ (j : Nat) d, ds[j]? = some d → ∃ d', ds'[j]? = some d' ∧ Sent d d') :
    ds'.map NetworkDevice.id = ds.map NetworkDevice.id := by
  refine List.ext_getElem? ?_
  intro j
  rw [List.getElem?_map, List.getElem?_map]
  cases hd : ds[j]? with
  | none =>
      rw [List.getElem?_eq_none_iff] at hd
      rw [List.getElem?_eq_none (by omega)]
  | some d =>
      obtain ⟨d', hd', hsame⟩ := hsent j d hd
      rw [hd']
      exact congrArg (fun c : Card => some c.id) hsame.card

/-- The queue of a device only grows. -/
theorem queued_sent {h h' : Handler}
    (hsent : ∀ (j : Nat) d, h.devices[j]? = some d → ∃ d', h'.devices[j]? = some d' ∧ Sent d d')
    {j : Nat} {d : NetworkDevice} (hd : h.devices[j]? = some d) :
    queued h' j = queued h j ++ (queued h' j).drop (queued h j).length := by
  obtain ⟨d', hd', hsame⟩ := hsent j d hd
  have hprefix : queued h j <+: queued h' j := by
    rw [queued, queued, hd, hd']
    rcases hsame.queue with heq | ⟨packet, heq, -⟩
    · simp only [heq]
      exact List.prefix_refl _
    · simp only [heq, List.map_append]
      exact List.prefix_append _ _
  exact (List.prefix_iff_eq_append.mp hprefix).symm

/-! ### What a card puts on the handler queue -/

/-- The packet that an action of the system receives from a card. -/
def receivedFrom (id : Nat) : Action → Option RawPacket
  | .receive raw _ => if raw.id = id then some raw else none
  | _ => none

/-- The actions that put some packets on the handler queue. -/
def receives (raws : List RawPacket) : List Action := raws.map fun raw => .receive raw none

theorem run_receives (raws : List RawPacket) :
    ∀ s : System, run System.step s (receives raws) = some (s.deliver raws) := by
  induction raws with
  | nil =>
      intro s
      simp [receives, System.deliver]
  | cons raw rest ih =>
      intro s
      have hfirst : s.step (.receive raw none) = some (s.deliver [raw]) := rfl
      rw [receives, List.map_cons, run_cons, hfirst, Option.bind_some]
      refine (ih (s.deliver [raw])).trans ?_
      simp [System.deliver]

theorem receivedFrom_receives_self {id : Nat} {raws : List RawPacket}
    (h : ∀ raw ∈ raws, raw.id = id) : (receives raws).filterMap (receivedFrom id) = raws := by
  rw [receives, List.filterMap_map]
  refine (List.filterMap_congr ?_).trans List.filterMap_some
  intro raw hraw
  exact if_pos (h raw hraw)

theorem receivedFrom_receives_other {id id' : Nat} {raws : List RawPacket}
    (h : ∀ raw ∈ raws, raw.id = id) (hne : id ≠ id') :
    (receives raws).filterMap (receivedFrom id') = [] := by
  rw [receives, List.filterMap_map, List.filterMap_eq_nil_iff]
  intro raw hraw
  refine if_neg ?_
  rw [h raw hraw]
  exact hne

theorem news_spec {n n' : Nic} {a : NicAction} (hinv : ReceiveInv n.card.id n)
    (hstep : n.step a = some n') :
    n'.card.rx.delivered = n.card.rx.delivered ++ news n n' ∧
      ∀ raw ∈ news n n', raw.id = n.card.id := by
  have hcases : n'.card.rx.delivered = n.card.rx.delivered ∨ ∃ frame,
      n'.card.rx.delivered = n.card.rx.delivered ++ [message n.card.id frame] := by
    rcases E1000.nic_card hstep with ⟨-, heq⟩ | ⟨b, -, hcard⟩
    · exact Or.inl (by rw [heq])
    · exact (E1000.delivered_step hinv.rx hcard).imp_right (fun ⟨frame, _, heq⟩ => ⟨frame, heq⟩)
  unfold news
  rcases hcases with heq | ⟨frame, heq⟩
  · rw [heq, List.drop_length, List.append_nil]
    exact ⟨rfl, fun raw hraw => absurd hraw List.not_mem_nil⟩
  · rw [heq, List.drop_left]
    exact ⟨rfl, fun raw hraw => by rw [List.mem_singleton.mp hraw]; rfl⟩

/-! ### The invariant -/

/-- What holds of the `j`-th card in a host whose handler and callers have taken the
actions `trace`. -/
structure CardInv (host : Host) (trace : List Action) (j : Nat) (n : Nic) : Prop where
  receive : ReceiveInv n.card.id n
  frames : trace.filterMap (receivedFrom n.card.id) = n.card.rx.delivered
  given : Given n.card.tx (if host.begun then queued host.sys.handler j else [])
  notified : n.notifying = 0
  idle : host.turn ≠ .inside j → n.card.point = .idle

structure HostInv (h₀ : Handler) (host : Host) (trace : List Action) : Prop where
  run : Lts.run System.step (System.start h₀) trace = some host.sys
  ids : (host.nics.map fun n => n.card.id).Nodup
  devices : host.sys.handler.devices.map NetworkDevice.id = host.nics.map fun n => n.card.id
  known : ∀ raw answers, Action.receive raw answers ∈ trace →
    raw.id ∈ host.nics.map fun n => n.card.id
  card : ∀ (j : Nat) n, host.nics[j]? = some n → CardInv host trace j n

section Steps

variable {h₀ : Handler} {host host' : Host} {trace : List Action}

/-- The device of a card. -/
theorem HostInv.device (h : HostInv h₀ host trace) {j : Nat} {n : Nic}
    (hn : host.nics[j]? = some n) :
    ∃ d, host.sys.handler.devices[j]? = some d ∧ d.id = n.card.id := by
  have hid := congrArg (fun l => l[j]?) h.devices
  simp only [List.getElem?_map, hn, Option.map_some, Option.map_eq_some_iff] at hid
  exact hid

/-- Different cards have different ids. -/
theorem HostInv.id_ne (h : HostInv h₀ host trace) {j k : Nat} {n m : Nic}
    (hn : host.nics[j]? = some n) (hm : host.nics[k]? = some m) (hjk : j ≠ k) :
    n.card.id ≠ m.card.id := by
  intro heq
  have hlt : j < (host.nics.map fun n => n.card.id).length := by
    rw [List.length_map]
    exact (List.getElem?_eq_some_iff.mp hn).1
  refine hjk ((List.getElem?_inj hlt h.ids).mp ?_)
  rw [List.getElem?_map, List.getElem?_map, hn, hm]
  exact congrArg some heq

/-- Steps that are not part of `PacketQueueSender::enqueue`. -/
def byCard : NicAction → Bool
  | .send _ | .notify => false
  | _ => true

theorem byCard_same {n n' : Nic} {a : NicAction} (ha : byCard a = true)
    (hstep : n.step a = some n') : a.sent = [] ∧ n'.notifying = n.notifying := by
  cases E1000.nic_step hstep with
  | send len card hcard => cases ha
  | notify left hleft => cases ha
  | _ => exact ⟨rfl, rfl⟩

/-- A step of one card. -/
theorem HostInv.onNic (h : HostInv h₀ host trace) {k : Nat} {a : NicAction} {n n' : Nic}
    (hn : host.nics[k]? = some n) (ha : byCard a = true) (hstep : n.step a = some n') (t : Turn)
    (hidle : ∀ (j : Nat) m, (host.nics.set k n')[j]? = some m → t ≠ .inside j →
      m.card.point = .idle) :
    HostInv h₀ ⟨host.nics.set k n', t, host.sys.deliver (news n n'), host.begun⟩
      (trace ++ receives (news n n')) := by
  have hcard := h.card k n hn
  have hreceive := hcard.receive.step hstep
  have hid : n'.card.id = n.card.id := hreceive.ident
  obtain ⟨hdelivered, hfrom⟩ := news_spec hcard.receive hstep
  obtain ⟨hsent, hnotifying⟩ := byCard_same ha hstep
  have hids : (host.nics.set k n').map (fun n => n.card.id) = host.nics.map fun n => n.card.id := by
    rw [List.map_set, hid]
    refine List.ext_getElem? ?_
    intro j
    rw [List.getElem?_set]
    split
    · rename_i hjk
      subst hjk
      rw [List.getElem?_map, hn]
      simp [(List.getElem?_eq_some_iff.mp hn).1]
    · rfl
  refine ⟨?_, ?_, ?_, ?_, ?_⟩
  · rw [run_append, h.run]
    exact run_receives (news n n') host.sys
  · show ((host.nics.set k n').map fun n => n.card.id).Nodup
    rw [hids]
    exact h.ids
  · exact h.devices.trans hids.symm
  · intro raw answers hmem
    show raw.id ∈ (host.nics.set k n').map fun n => n.card.id
    rw [hids]
    rcases List.mem_append.mp hmem with hold | hnew
    · exact h.known raw answers hold
    · obtain ⟨raw', hraw', heq⟩ := List.mem_map.mp hnew
      cases heq
      rw [hfrom raw hraw']
      exact List.mem_map.mpr ⟨n, List.mem_of_getElem? hn, rfl⟩
  · intro j m hm
    rcases getElem?_set_eq_some.mp hm with ⟨rfl, -, rfl⟩ | ⟨hne, hold⟩
    · refine ⟨hid ▸ hreceive, ?_, ?_, hnotifying.trans hcard.notified, hidle k n' hm⟩
      · rw [hid, List.filterMap_append, receivedFrom_receives_self hfrom, hcard.frames]
        exact hdelivered.symm
      · have hgiven := E1000.given_nic_step hcard.given hstep
        rw [hsent, List.append_nil] at hgiven
        exact hgiven
    · have hother := h.card j m hold
      refine ⟨hother.receive, ?_, hother.given, hother.notified, hidle j m hm⟩
      rw [List.filterMap_append, receivedFrom_receives_other hfrom (h.id_ne hn hold hne.symm),
        List.append_nil]
      exact hother.frames

/-- Packets that the handler enqueues. -/
theorem HostInv.sends (h : HostInv h₀ host trace) {sys : System} {acts : List Action} (begun : Bool)
    (old : Nat → List Nat) (hrun : Lts.run System.step host.sys acts = some sys)
    (hacts : ∀ raw answers, Action.receive raw answers ∉ acts)
    (hdevices : sys.handler.devices.map NetworkDevice.id
      = host.sys.handler.devices.map NetworkDevice.id)
    (hold : ∀ (j : Nat) n, host.nics[j]? = some n →
      old j = if host.begun then queued host.sys.handler j else [])
    (hnew : ∀ (j : Nat) n, host.nics[j]? = some n →
      (if begun then queued sys.handler j else [])
        = old j ++ (queued sys.handler j).drop (old j).length) :
    HostInv h₀ ⟨sendFrom old sys.handler host.nics, host.turn, sys, begun⟩ (trace ++ acts) := by
  have hget : ∀ j, (sendFrom old sys.handler host.nics)[j]?
      = host.nics[j]?.map fun n : Nic =>
        n.enqueueAll ((queued sys.handler j).drop (old j).length) := by
    intro j
    rw [sendFrom, List.getElem?_mapIdx]
  have hids : (sendFrom old sys.handler host.nics).map (fun n => n.card.id)
      = host.nics.map fun n => n.card.id := by
    refine List.ext_getElem? ?_
    intro j
    rw [List.getElem?_map, List.getElem?_map, hget]
    cases host.nics[j]? with
    | none => rfl
    | some n => exact congrArg some (E1000.enqueueAll_same n _).1
  have hnone : ∀ id, acts.filterMap (receivedFrom id) = [] := by
    intro id
    rw [List.filterMap_eq_nil_iff]
    intro a ha
    cases a with
    | receive raw answers => exact absurd ha (hacts raw answers)
    | _ => rfl
  refine ⟨?_, ?_, ?_, ?_, ?_⟩
  · rw [run_append, h.run]
    exact hrun
  · show ((sendFrom old sys.handler host.nics).map fun n => n.card.id).Nodup
    rw [hids]
    exact h.ids
  · exact hdevices.trans (h.devices.trans hids.symm)
  · intro raw answers hmem
    show raw.id ∈ (sendFrom old sys.handler host.nics).map fun n => n.card.id
    rw [hids]
    rcases List.mem_append.mp hmem with hmem | hmem
    · exact h.known raw answers hmem
    · exact absurd hmem (hacts raw answers)
  · intro j m hm
    change (sendFrom old sys.handler host.nics)[j]? = some m at hm
    rw [hget, Option.map_eq_some_iff] at hm
    obtain ⟨n, hn, rfl⟩ := hm
    have hcard := h.card j n hn
    obtain ⟨hid, hrx, hpoint, hnotifying⟩ :=
      E1000.enqueueAll_same n ((queued sys.handler j).drop (old j).length)
    refine ⟨?_, ?_, ?_, hnotifying.trans hcard.notified, ?_⟩
    · rw [hid]
      exact hcard.receive.enqueueAll _
    · rw [hid, hrx, List.filterMap_append, hnone, List.append_nil]
      exact hcard.frames
    · show Given _ (if begun then queued sys.handler j else [])
      rw [hnew j n hn]
      refine Given.enqueueAll ?_ _
      rw [hold j n hn]
      exact hcard.given
    · intro hturn
      exact hpoint.trans (hcard.idle hturn)

/-- Something a caller does. -/
theorem HostInv.call (h : HostInv h₀ host trace) {a : Action} {sys : System}
    (ha : a.byCaller = true) (hstep : host.sys.step a = some sys) :
    HostInv h₀ { host with sys } (trace ++ [a]) := by
  have hquiet : a ≠ .handle := by
    rintro rfl
    cases ha
  have hdevices := (devices_of_quiet hquiet hstep).1
  have hnone : ∀ id, [a].filterMap (receivedFrom id) = [] := by
    intro id
    cases a <;> first | rfl | cases ha
  refine ⟨run_snoc.mpr ⟨host.sys, h.run, hstep⟩, h.ids, ?_, ?_, ?_⟩
  · show sys.handler.devices.map NetworkDevice.id = _
    rw [hdevices]
    exact h.devices
  · intro raw answers hmem
    rcases List.mem_append.mp hmem with hmem | hmem
    · exact h.known raw answers hmem
    · rw [← List.mem_singleton.mp hmem] at ha
      cases ha
  · intro j n hn
    have hcard := h.card j n hn
    refine ⟨hcard.receive, ?_, ?_, hcard.notified, hcard.idle⟩
    · rw [List.filterMap_append, hnone, List.append_nil]
      exact hcard.frames
    · have hsame : queued sys.handler j = queued host.sys.handler j := by
        rw [queued, queued, hdevices]
      show Given n.card.tx (if host.begun then queued sys.handler j else [])
      rw [hsame]
      exact hcard.given

/-- A message is handled. -/
theorem HostInv.handle (h : HostInv h₀ host trace) (hbegun : host.begun = true) {sys : System}
    (hstep : host.sys.step .handle = some sys) :
    HostInv h₀ { host with
      sys, nics := sendFrom (queued host.sys.handler) sys.handler host.nics }
      (trace ++ [.handle]) := by
  have hsent : sys.handler.devices.length = host.sys.handler.devices.length ∧
      ∀ (j : Nat) d, host.sys.handler.devices[j]? = some d →
        ∃ d', sys.handler.devices[j]? = some d' ∧ Sent d d' := by
    cases step_move hstep with
    | handled hmail hhandle => exact step_sent hhandle
  have hrun : Lts.run System.step host.sys [.handle] = some sys := by
    rw [run_cons, hstep]
    rfl
  refine h.sends host.begun (queued host.sys.handler) hrun ?_ (ids_of_sent hsent.1 hsent.2) ?_ ?_
  · intro raw answers hmem
    cases List.mem_singleton.mp hmem
  · intro j n hn
    rw [hbegun, if_pos rfl]
  · intro j n hn
    obtain ⟨d, hd, -⟩ := h.device hn
    rw [hbegun, if_pos rfl]
    exact queued_sent hsent.2 hd

/-- The first lines of `network_handler`. -/
theorem HostInv.begin (h : HostInv h₀ host trace) (hbegun : host.begun = false) :
    HostInv h₀ { host with
      begun := true, nics := sendFrom (fun _ => []) host.sys.handler host.nics } trace := by
  have hnothing : Lts.run System.step host.sys [] = some host.sys := rfl
  have hsends := h.sends true (fun _ => []) hnothing
    (fun raw answers hmem => absurd hmem List.not_mem_nil) rfl
    (fun j n hn => by rw [hbegun]; rfl) (fun j n hn => rfl)
  rw [List.append_nil] at hsends
  exact hsends

/-- The loop over the cards moves on where no card is being served. -/
theorem HostInv.turn (h : HostInv h₀ host trace) (t : Turn)
    (hidle : ∀ (j : Nat) n, host.nics[j]? = some n → n.card.point = .idle) :
    HostInv h₀ { host with turn := t } trace where
  run := h.run
  ids := h.ids
  devices := h.devices
  known := h.known
  card := by
    intro j n hn
    have hcard := h.card j n hn
    exact ⟨hcard.receive, hcard.frames, hcard.given, hcard.notified, fun _ => hidle j n hn⟩

/-- A card's own steps leave its handler where it is. -/
theorem point_of_own {act : HostAction} {k : Nat} {n n' : Nic} {a : NicAction}
    (hact : act.own = some (k, a)) (hstep : n.step a = some n') :
    byCard a = true ∧ n'.card.point = n.card.point := by
  cases E1000.nic_step hstep with
  | transmit card hcard =>
      obtain ⟨-, rfl⟩ := E1000.transmit_eq hcard
      exact ⟨rfl, rfl⟩
  | receive frame bits card hcard =>
      cases E1000.receive_eq hcard
      exact ⟨rfl, rfl⟩
  | raise causes => exact ⟨rfl, rfl⟩
  | _ => cases act <;> cases hact

/-- The handler of the card that is served takes a step. -/
theorem HostInv.served (h : HostInv h₀ host trace) {k : Nat} {a : NicAction} {n n' : Nic}
    (ha : byCard a = true) (hothers : ∀ j, j ≠ k → host.turn ≠ .inside j)
    (hn : host.nics[k]? = some n) (hn' : n.step a = some n') :
    HostInv h₀ { host.after k n n' with turn := .inside k } (trace ++ receives (news n n')) := by
  refine h.onNic hn ha hn' (.inside k) ?_
  intro j m hm hturn
  have hjk : j ≠ k := fun hc => hturn (by rw [hc])
  rcases getElem?_set_eq_some.mp hm with ⟨hc, -, -⟩ | ⟨-, hold⟩
  · exact absurd hc.symm hjk
  · exact (h.card j m hold).idle (hothers j hjk)

/-- **One step of the host** is some actions of the system, none or more. -/
theorem hostInv_step (h : HostInv h₀ host trace) {act : HostAction}
    (hstep : host.step act = some host') : ∃ acts, HostInv h₀ host' (trace ++ acts) := by
  have hnone : ∀ {host' : Host}, HostInv h₀ host' trace →
      ∃ acts, HostInv h₀ host' (trace ++ acts) :=
    fun h' => ⟨[], by rw [List.append_nil]; exact h'⟩
  cases host_move hstep with
  | card hact hn hn' =>
      obtain ⟨hcard, hpoint⟩ := point_of_own hact hn'
      refine ⟨_, h.onNic hn hcard hn' host.turn ?_⟩
      intro j m hm hturn
      rcases getElem?_set_eq_some.mp hm with ⟨rfl, -, rfl⟩ | ⟨-, hold⟩
      · rw [hpoint]
        exact (h.card _ _ hn).idle hturn
      · exact (h.card j m hold).idle hturn
  | enter hout =>
      exact hnone (h.turn _ fun j n hn => (h.card j n hn).idle (by rw [hout]; nofun))
  | serve hturn hn hn' =>
      exact ⟨_, h.served rfl (fun j _ => by rw [hturn]; nofun) hn hn'⟩
  | leave hturn hall =>
      exact hnone (h.turn _ fun j n hn => (h.card j n hn).idle (by rw [hturn]; nofun))
  | next hturn hn hidle =>
      refine hnone (h.turn _ fun j m hm => ?_)
      by_cases hjk : host.turn = .inside j
      · rw [hturn] at hjk
        cases hjk
        rw [hn] at hm
        cases hm
        exact hidle
      · exact (h.card j m hm).idle hjk
  | driver hturn hn hn' =>
      have hserved := h.served rfl
        (fun j hjk => by rw [hturn]; exact fun hc => hjk (Turn.inside.inj hc).symm) hn hn'
      rw [← hturn] at hserved
      exact ⟨_, hserved⟩
  | start hout hbegun => exact hnone (h.begin hbegun)
  | call hout ha hsys => exact ⟨_, h.call ha hsys⟩
  | handle hout hbegun hsys => exact ⟨_, h.handle hbegun hsys⟩

end Steps

/-! ### The start -/

/-- The two halves of a device have one id, its position on the bus. -/
theorem setupDevice_eq {readMac : Nat → Mac} {id : Nat} {header : Pci.Device}
    {pair : NetworkDevice × Nic} (h : setupDevice readMac id header = some pair) :
    pair.1.id = id ∧ pair.2 = Nic.init id := by
  unfold setupDevice E1000Driver.new at h
  split at h
  · split at h
    · rename_i hnew
      cases h
      split at hnew
      · cases hnew
        exact ⟨rfl, rfl⟩
      · cases hnew
    · cases h
  · cases h

/-- The cards that were found, with their devices. -/
def found (readMac : Nat → Mac) (pciDevices : List Pci.Device) : List (NetworkDevice × Nic) :=
  pciDevices.zipIdx.filterMap fun (header, id) => setupDevice readMac id header

theorem found_eq {readMac : Nat → Mac} {pciDevices : List Pci.Device}
    {pair : NetworkDevice × Nic} (h : pair ∈ found readMac pciDevices) :
    pair.2 = Nic.init pair.1.id := by
  obtain ⟨⟨header, id⟩, -, hpair⟩ := List.mem_filterMap.mp h
  obtain ⟨hid, hnic⟩ := setupDevice_eq hpair
  rw [hnic, hid]

/-- No two of them have the same position on the bus. -/
theorem found_nodup (readMac : Nat → Mac) (pciDevices : List Pci.Device) :
    ((found readMac pciDevices).map fun pair => pair.1.id).Nodup := by
  rw [found, List.Nodup, List.pairwise_map, List.pairwise_filterMap]
  have hpos : pciDevices.zipIdx.Pairwise fun a b => a.2 ≠ b.2 := by
    rw [← List.pairwise_map (f := Prod.snd), List.zipIdx_map_snd]
    exact List.nodup_range'
  refine hpos.imp ?_
  intro a b hab p hp q hq
  rw [(setupDevice_eq hp).1, (setupDevice_eq hq).1]
  exact hab

section Start

variable {readMac : Nat → Mac} {pciDevices : List Pci.Device} {retQueues : Nat → RetQueue}
  {host₀ host : Host} {as : List HostAction}

theorem init_eq (hinit : Host.init readMac pciDevices retQueues = .ok host) :
    ∃ handler, Handler.setup ((found readMac pciDevices).map Prod.fst) retQueues = .ok handler ∧
      host = ⟨(found readMac pciDevices).map Prod.snd, .outside, System.start handler, false⟩ := by
  have hsetup : setup readMac pciDevices
      = ((found readMac pciDevices).map Prod.fst, (found readMac pciDevices).map Prod.snd) :=
    List.unzip_eq_map
  unfold Host.init at hinit
  rw [hsetup] at hinit
  obtain ⟨handler, hhandler, hok⟩ := bind_eq_ok.mp hinit
  cases hok
  exact ⟨handler, hhandler, rfl⟩

theorem hostInv_init (hinit : Host.init readMac pciDevices retQueues = .ok host) :
    HostInv host.sys.handler host [] := by
  obtain ⟨handler, hhandler, rfl⟩ := init_eq hinit
  have hids : ((found readMac pciDevices).map Prod.snd).map (fun n => n.card.id)
      = (found readMac pciDevices).map fun pair => pair.1.id := by
    rw [List.map_map]
    refine List.map_congr_left ?_
    intro pair hpair
    show pair.2.card.id = pair.1.id
    rw [found_eq hpair]
    rfl
  refine ⟨rfl, ?_, ?_, ?_, ?_⟩
  · show (((found readMac pciDevices).map Prod.snd).map fun n => n.card.id).Nodup
    rw [hids]
    exact found_nodup readMac pciDevices
  · obtain ⟨devices, hdevices, hok⟩ := bind_eq_ok.mp hhandler
    cases hok
    show devices.map NetworkDevice.id = ((found readMac pciDevices).map Prod.snd).map _
    have hcards := congrArg (List.map Card.id) (getElem?_setupDevices hdevices).1
    rw [List.map_map, List.map_map, List.map_map] at hcards
    rw [hids]
    exact hcards
  · intro raw answers hmem
    exact absurd hmem List.not_mem_nil
  · intro j n hn
    obtain ⟨pair, hpair, rfl⟩ := List.mem_map.mp (List.mem_of_getElem? hn)
    rw [found_eq hpair]
    exact ⟨ReceiveInv.init _, rfl, Given.init, rfl, fun _ => rfl⟩

theorem transmitInv_init (hinit : Host.init readMac pciDevices retQueues = .ok host) :
    ∀ n ∈ host.nics, TransmitInv n := by
  obtain ⟨handler, -, rfl⟩ := init_eq hinit
  intro n hn
  obtain ⟨pair, hpair, rfl⟩ := List.mem_map.mp hn
  rw [found_eq hpair]
  exact TransmitInv.init _

/-! ### Every run -/

/-- The handler and its callers have taken some actions. -/
theorem hostInv_run (hinit : Host.init readMac pciDevices retQueues = .ok host₀)
    (hrun : run Host.step host₀ as = some host) :
    ∃ trace, HostInv host₀.sys.handler host trace := by
  have hkeep : ∀ mid act mid', (∃ trace, HostInv host₀.sys.handler mid trace) →
      Host.step mid act = some mid' → ∃ trace, HostInv host₀.sys.handler mid' trace := by
    rintro mid act mid' ⟨trace, h⟩ hstep
    obtain ⟨acts, h'⟩ := hostInv_step h hstep
    exact ⟨trace ++ acts, h'⟩
  exact run_invariant hkeep ⟨[], hostInv_init hinit⟩ hrun

/-- What is on the handler queue was received. -/
theorem mailbox_received (trace : List Action) (h : Handler) :
    ∀ s, run System.step (System.start h) trace = some s → ∀ letter ∈ s.mailbox, ∀ raw,
      letter.message = .packet raw → ∃ answers, Action.receive raw answers ∈ trace := by
  induction trace using List.reverseRecOn with
  | nil =>
      intro s hrun letter hmem
      cases hrun
      exact absurd hmem List.not_mem_nil
  | append_singleton trace a ih =>
      intro s hrun letter hmem raw hraw
      obtain ⟨mid, hmid, hstep⟩ := run_snoc.mp hrun
      have hold : letter ∈ mid.mailbox → ∃ answers, Action.receive raw answers ∈ trace ++ [a] := by
        intro hletter
        obtain ⟨answers, hanswers⟩ := ih mid hmid letter hletter raw hraw
        exact ⟨answers, List.mem_append_left _ hanswers⟩
      have hposted : ∀ {message : HandlerMessage} {answers : Option Nat},
          letter ∈ mid.mailbox ++ [⟨message, answers⟩] →
            letter ∈ mid.mailbox ∨ (letter = ⟨message, answers⟩) := by
        intro message answers hletter
        exact (List.mem_append.mp hletter).imp_right List.mem_singleton.mp
      cases step_move hstep with
      | getMac =>
          rcases hposted hmem with hletter | rfl
          · exact hold hletter
          · cases hraw
      | pingPosted hping hsend hip =>
          rcases hposted hmem with hletter | rfl
          · exact hold hletter
          · cases hraw
      | receive =>
          rcases hposted hmem with hletter | rfl
          · exact hold hletter
          · cases hraw
            exact ⟨_, List.mem_append_right _ (List.mem_singleton.mpr rfl)⟩
      | handled hmail hhandle =>
          refine hold ?_
          rw [hmail]
          exact List.mem_cons_of_mem _ hmem
      | _ => exact hold hmem

/-- The host does nothing on its own: no interrupt is being served, the handler has begun
and is waiting for a message, and every card is at rest. -/
structure Host.AtRest (host : Host) : Prop where
  outside : host.turn = .outside
  begun : host.begun = true
  waiting : host.sys.mailbox = []
  cards : ∀ n ∈ host.nics, n.AtRest

instance decidableHostAtRest (host : Host) : Decidable host.AtRest :=
  decidable_of_iff (host.turn = .outside ∧ host.begun = true ∧ host.sys.mailbox = [] ∧
      ∀ n ∈ host.nics, n.AtRest)
    ⟨fun h => ⟨h.1, h.2.1, h.2.2.1, h.2.2.2⟩, fun h => ⟨h.outside, h.begun, h.waiting, h.cards⟩⟩

/--
**The cards and their interrupt do not show.**  Whatever the cards, the interrupt, the
handler and the callers do, the handler and the callers have taken actions of the system of
`Requests.lean`.  The packets that it received from a card are the first frames that the
card has stored, in order, and when the host is at rest they are all of them.  Every packet
that waits on the handler queue is from a device of the handler.
-/
theorem host_refines (hinit : Host.init readMac pciDevices retQueues = .ok host₀)
    (hrun : run Host.step host₀ as = some host) :
    ∃ trace, run System.step host₀.sys trace = some host.sys ∧
      (∀ n ∈ host.nics,
        trace.filterMap (receivedFrom n.card.id) <+: n.card.rx.arrived.map (message n.card.id) ∧
        (host.AtRest →
          trace.filterMap (receivedFrom n.card.id) = n.card.rx.arrived.map (message n.card.id))) ∧
      ∀ letter ∈ host.sys.mailbox, ∀ raw, letter.message = .packet raw →
        ∃ d, host.sys.handler.devices.find? (fun d => d.id == raw.id) = some d := by
  obtain ⟨trace, h⟩ := hostInv_run hinit hrun
  have hstart : host₀.sys = System.start host₀.sys.handler := by
    obtain ⟨handler, -, rfl⟩ := init_eq hinit
    rfl
  refine ⟨trace, hstart ▸ h.run, ?_, ?_⟩
  · intro n hn
    obtain ⟨j, hj⟩ := List.getElem?_of_mem hn
    have hcard := h.card j n hj
    rw [hcard.frames]
    refine ⟨hcard.receive.delivered_prefix, ?_⟩
    intro hrest
    exact hcard.receive.quiet (hrest.cards n hn).idle (hrest.cards n hn).quiet
  · intro letter hmem raw hraw
    obtain ⟨answers, hanswers⟩ := mailbox_received trace _ host.sys h.run letter hmem raw hraw
    have hknown := h.known raw answers hanswers
    rw [← h.devices, List.mem_map] at hknown
    obtain ⟨d, hd, hid⟩ := hknown
    refine Option.isSome_iff_exists.mp ?_
    rw [List.find?_isSome]
    exact ⟨d, hd, beq_iff_eq.mpr hid⟩

end Start

/-- What a run from the set-up of the functions on a bus leads to. -/
def hostFrom (pciDevices : List Pci.Device) (as : List HostAction) : Option (Host × Host) := do
  let host₀ ← (Host.init (fun _ => someMac) pciDevices (fun _ => .new)).toOption
  let host ← run Host.step host₀ as
  return (host₀, host)

theorem exists_of_hostFrom {pciDevices : List Pci.Device} {as : List HostAction} {B : Type}
    {f : Host × Host → B} {b : B} (h : (hostFrom pciDevices as).map f = some b) :
    ∃ host₀ host, Host.init (fun _ => someMac) pciDevices (fun _ => .new) = .ok host₀ ∧
      run Host.step host₀ as = some host ∧ f (host₀, host) = b :=
  exists_of_started h

/-- A function on the bus with the ids of an E1000, or with other ones. -/
def pciFunction (id : UInt16) : Pci.Device where
  bus := 0
  slot := 0
  func := 0
  generic := ⟨id, 0x8086, 0, 0, .networkController .ethernet, 0, 0, 0, 0⟩
  headerType := .generic (Vector.replicate 6 (.memorySpace 0 false 0)) 0 11

/-- A bridge and a card. -/
def bridgeAndCard : List Pci.Device := [pciFunction 0x1237, pciFunction 0x100E]

/-- The Discover is sent, and the response of a station arrives and is handled. -/
def oneResponse : List HostAction :=
  [.start, .receive 0 (arpResponse hostMac hostIp) 0, .interrupt, .loop]
    ++ List.replicate 12 .driver ++ [.loop, .loop, .handle, .transmit 0, .interrupt, .loop]
    ++ List.replicate 5 .driver ++ [.loop, .loop]

theorem host_refines_response :
    ∃ host₀ host, Host.init (fun _ => someMac) bridgeAndCard (fun _ => .new) = .ok host₀ ∧
      run Host.step host₀ oneResponse = some host ∧ host.sys.handler.ips hostIp = some hostMac ∧
      ∃ trace, run System.step host₀.sys trace = some host.sys ∧
        trace.filterMap (receivedFrom 1) = [message 1 (arpResponse hostMac hostIp)] := by
  obtain ⟨host₀, host, hinit, hrun, hvalues⟩ := exists_of_hostFrom (by decide +kernel :
    (hostFrom bridgeAndCard oneResponse).map (fun r => decide
      (r.2.sys.handler.ips hostIp = some hostMac ∧
        r.2.nics.map (fun n => (n.card.id, n.card.rx.arrived))
          = [(1, [arpResponse hostMac hostIp])] ∧ r.2.AtRest)) = some true)
  obtain ⟨hips, hnics, hrest⟩ := of_decide_eq_true hvalues
  obtain ⟨n, hn, hcard⟩ := List.map_eq_singleton_iff.mp hnics
  rw [Prod.mk.injEq] at hcard
  obtain ⟨trace, htrace, hframes, -⟩ := host_refines hinit hrun
  have hall := (hframes n (by rw [hn]; exact List.mem_singleton.mpr rfl)).2 hrest
  rw [hcard.1, hcard.2] at hall
  exact ⟨host₀, host, hinit, hrun, hips, trace, htrace, hall⟩

section Sending

variable {readMac : Nat → Mac} {pciDevices : List Pci.Device} {retQueues : Nat → RetQueue}
  {host₀ host : Host} {as : List HostAction}

/-- No tail write of a card that is served closes its ring. -/
def Host.room (host : Host) : HostAction → Bool
  | .driver =>
      match host.turn with
      | .inside k => host.nics[k]?.all fun n => n.room .driver
      | _ => true
  | _ => true

/-- What the steps of a card keep, the steps of the host keep for every card.  Only for the
handler's steps there may be a condition. -/
theorem nics_step {P ok : Nic → Prop} {act : HostAction}
    (hP : ∀ n a n', P n → (a = .driver → ok n) → n.step a = some n' → P n')
    (hok : act = .driver → ∀ k, host₀.turn = .inside k → ∀ n, host₀.nics[k]? = some n → ok n)
    (h : ∀ n ∈ host₀.nics, P n) (hstep : host₀.step act = some host) : ∀ n ∈ host.nics, P n := by
  have hafter : ∀ {k : Nat} {a : NicAction} {n n' : Nic}, host₀.nics[k]? = some n →
      (a = .driver → ok n) → n.step a = some n' → ∀ m ∈ (host₀.after k n n').nics, P m := by
    intro k a n n' hn hcond hn' m hm
    rcases List.mem_or_eq_of_mem_set hm with hold | rfl
    · exact h m hold
    · exact hP n a m (h n (List.mem_of_getElem? hn)) hcond hn'
  have hsend : ∀ {old : Nat → List Nat} {handler : Handler},
      ∀ m ∈ sendFrom old handler host₀.nics, P m := by
    intro old handler m hm
    obtain ⟨j, hj, rfl⟩ := List.mem_mapIdx.mp hm
    refine E1000.enqueueAll_keeps ?_ _ _ (h _ (List.getElem_mem hj))
    intro n len hn
    obtain ⟨mid, hmid, hnotify⟩ := E1000.enqueue_steps n len
    exact hP mid .notify _ (hP n (.send len) mid hn nofun hmid) nofun hnotify
  cases host_move hstep with
  | card hact hn hn' =>
      refine hafter hn ?_ hn'
      rintro rfl
      cases act <;> cases hact
  | serve hturn hn hn' => exact hafter (a := .interrupt) hn nofun hn'
  | driver hturn hn hn' => exact hafter hn (fun _ => hok rfl _ hturn _ hn) hn'
  | start hout hbegun => exact hsend
  | handle hout hbegun hsys => exact hsend
  | _ => exact h

theorem transmitInv_step {act : HostAction} (h : ∀ n ∈ host₀.nics, TransmitInv n)
    (hroom : host₀.room act = true) (hstep : host₀.step act = some host) :
    ∀ n ∈ host.nics, TransmitInv n := by
  have hkeep : ∀ n a n', TransmitInv n → (a = .driver → n.room .driver = true) →
      n.step a = some n' → TransmitInv n' := by
    intro n a n' hn hcond hn'
    refine hn.step ?_ hn'
    cases a <;> first | rfl | exact hcond rfl
  refine nics_step hkeep ?_ h hstep
  rintro rfl k hturn n hn
  simpa [Host.room, hturn, hn] using hroom

/--
**Every card sends what its device enqueues.**  As long as no tail write closes a ring, what
a card has sent are the first packets that the handler has enqueued on the device of the
card, each from its own box, in order, and when the host is at rest they are all of them.
-/
theorem host_sends (hinit : Host.init readMac pciDevices retQueues = .ok host₀)
    (hrun : run Host.step host₀ as = some host)
    (hroom : StepsMeet Host.step (fun host a => host.room a = true) host₀ as) :
    ∀ (j : Nat) n, host.nics[j]? = some n → ∃ d, host.sys.handler.devices[j]? = some d ∧
      d.id = n.card.id ∧
      n.card.tx.transmitted
        <+: (boxed (d.packetQueue.map fun packet => packet.buffer.len)).map
          E1000.RawBuffer.transmission ∧
      (host.AtRest → n.card.tx.transmitted
        = (boxed (d.packetQueue.map fun packet => packet.buffer.len)).map
          E1000.RawBuffer.transmission) := by
  intro j n hn
  obtain ⟨trace, h⟩ := hostInv_run hinit hrun
  have halong : Along Host.step (fun host => ∀ n ∈ host.nics, TransmitInv n) host₀ as :=
    along_of_stepsMeet (fun _ _ _ h hr hs => transmitInv_step h hr hs) (transmitInv_init hinit)
      hroom
  have htransmit : TransmitInv n := halong.last hrun n (List.mem_of_getElem? hn)
  obtain ⟨d, hd, hid⟩ := h.device hn
  have hqueued : queued host.sys.handler j = d.packetQueue.map fun packet => packet.buffer.len := by
    rw [queued, hd]
  have hgiven := (h.card j n hn).given.queued
  refine ⟨d, hd, hid, ?_, ?_⟩
  · refine htransmit.transmitted_prefix.trans ?_
    rw [hgiven]
    cases host.begun with
    | false => exact List.nil_prefix
    | true =>
        rw [if_pos rfl, hqueued]
  · intro hrest
    rw [htransmit.rest (hrest.cards n (List.mem_of_getElem? hn)), hgiven, hrest.begun, if_pos rfl,
      hqueued]

end Sending

/-- A caller asks for an address before the host starts; the Discover and the ARP request are
sent one after the other. -/
def discoverAndAsk : List HostAction :=
  [.call (.getMac hostIp), .start, .handle, .interrupt, .loop] ++ List.replicate 9 .driver
    ++ [.loop, .loop, .transmit 0, .transmit 0, .interrupt, .loop] ++ List.replicate 6 .driver
    ++ [.loop, .loop]

theorem host_sends_both :
    ∃ host₀ host n, Host.init (fun _ => someMac) bridgeAndCard (fun _ => .new) = .ok host₀ ∧
      run Host.step host₀ discoverAndAsk = some host ∧ host.nics = [n] ∧
      ∃ d, host.sys.handler.devices[0]? = some d ∧ d.packetQueue.length = 2 ∧
        n.card.tx.transmitted = (boxed (d.packetQueue.map fun packet => packet.buffer.len)).map
          E1000.RawBuffer.transmission := by
  obtain ⟨host₀, host, hinit, hrun, hvalues⟩ := exists_of_hostFrom (by decide +kernel :
    (hostFrom bridgeAndCard discoverAndAsk).map (fun r => decide
      (r.2.nics.map (fun n => n.card.id) = [1] ∧
        r.2.sys.handler.devices[0]?.map (fun d => d.packetQueue.length) = some 2 ∧ r.2.AtRest ∧
        StepsMeet Host.step (fun host a => host.room a = true) r.1 discoverAndAsk)) = some true)
  obtain ⟨hnics, hqueue, hrest, hroom⟩ := of_decide_eq_true hvalues
  obtain ⟨n, hn, -⟩ := List.map_eq_singleton_iff.mp hnics
  obtain ⟨d, hd, -, -, hall⟩ := host_sends hinit hrun hroom 0 n (by rw [hn]; rfl)
  rw [hd, Option.map_some, Option.some.injEq] at hqueue
  exact ⟨host₀, host, n, hinit, hrun, hn, d, hd, hqueue, hall hrest⟩

end Rucoonos.Net
