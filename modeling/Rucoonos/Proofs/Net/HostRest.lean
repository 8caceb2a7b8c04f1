/-
A host that is left alone comes to rest.

When no more frames arrive and no caller asks for anything, what the cards, the interrupt
and the handler still do is bounded.  `Host.work` adds up what every card has left to do, as
in `Device/Rest.lean`, with prices for what comes of it: a message on the handler queue pays
for one packet on every device, and a raised cause pays for a whole round of the interrupt
over all cards.  A card that the round has not come to yet has its interrupt paid already.
-/
import Rucoonos.Lib.Weights
import Rucoonos.Proofs.Net.Host

namespace Rucoonos.Net

open Lts Slice Weights
open E1000 (Nic NicAction WorkInv)

variable {host host' : Host} {h₀ : Handler} {trace : List Action}

/-! ### What is left to do -/

/-- The round of the interrupt is still to come to the `j`-th card. -/
def Turn.visits (j : Nat) : Turn → Bool
  | .outside => false
  | .before k => decide (k ≤ j)
  | .inside k => decide (k < j)

/-- What is left of a round over `count` cards, apart from their handlers. -/
def Turn.work (count : Nat) : Turn → Nat
  | .outside => 0
  | .before k => 16 * (count - k) + 1
  | .inside k => 16 * (count - k) - 14

/-- A raised cause pays for a round. -/
def alarm (count : Nat) : Nat := 16 * count + 2

/-- A packet pays for its way through the ring and for the causes it raises. -/
def perPacket (count : Nat) : Nat := 2 * alarm count + 4

/-- A message pays for a packet on every device. -/
def perMessage (count : Nat) : Nat := perPacket count * count + 1

/-- What the `j`-th card has left to do. -/
def share (count : Nat) (turn : Turn) (j : Nat) (n : Nic) : Nat :=
  n.card.work (perMessage count) (alarm count)
    + if n.asserted = true ∧ turn.visits j = false then alarm count else 0

def Host.work (host : Host) : Nat :=
  let count := host.nics.length
  total (share count host.turn) host.nics + host.turn.work count
    + perMessage count * host.sys.mailbox.length
    + if host.begun then 0
      else total (fun j _ => perPacket count * (queued host.sys.handler j).length) host.nics + 1

/-! ### What a step costs -/

theorem enqueueAll_work (price alarm : Nat) (lens : List Nat) :
    ∀ n : Nic, (n.enqueueAll lens).card.work price alarm
      = n.card.work price alarm + (alarm + 4) * lens.length := by
  induction lens with
  | nil => exact fun _ => rfl
  | cons len rest ih =>
      intro n
      have hone : (n.enqueue len).card.work price alarm
          = n.card.work price alarm + (alarm + 4) := by
        simp only [E1000.Card.work, Nic.enqueue, E1000.TxRing.send, E1000.Card.unread,
          E1000.Card.unsent, List.length_append, List.length_singleton, Nat.mul_succ]
        omega
      rw [Nic.enqueueAll, List.foldl_cons, ← Nic.enqueueAll, ih, hone, List.length_cons,
        Nat.mul_succ]
      omega

/-- Some more packets for a card. -/
theorem share_enqueueAll (count : Nat) (turn : Turn) (j : Nat) (n : Nic) (lens : List Nat) :
    share count turn j (n.enqueueAll lens)
      ≤ share count turn j n + perPacket count * lens.length := by
  cases lens with
  | nil => exact Nat.le_refl _
  | cons len rest =>
      unfold share
      rw [enqueueAll_work, perPacket]
      have hraised : (if ((n.enqueueAll (len :: rest)).asserted = true ∧ turn.visits j = false)
          then alarm count else 0) ≤ alarm count := by
        split
        · exact Nat.le_refl _
        · exact Nat.zero_le _
      have hpaid : (alarm count + 4) * (len :: rest).length + alarm count
          ≤ (2 * alarm count + 4) * (len :: rest).length := by
        have hmore : alarm count ≤ alarm count * (len :: rest).length :=
          Nat.le_mul_of_pos_right _ (Nat.succ_pos _)
        have hsum : (2 * alarm count + 4) * (len :: rest).length
            = (alarm count + 4) * (len :: rest).length + alarm count * (len :: rest).length := by
          rw [← Nat.add_mul]
          congr 1
          omega
        omega
      omega

theorem share_quiet {count : Nat} {turn : Turn} {j : Nat} {n : Nic} (h : n.asserted = false) :
    share count turn j n = n.card.work (perMessage count) (alarm count) := by
  rw [share, h, if_neg (by simp), Nat.add_zero]

theorem share_le (count : Nat) (turn : Turn) (j : Nat) (n : Nic) :
    n.card.work (perMessage count) (alarm count) ≤ share count turn j n ∧
      share count turn j n ≤ n.card.work (perMessage count) (alarm count) + alarm count := by
  unfold share
  split <;> omega

/-- What a step of one card changes. -/
theorem work_after {k : Nat} {n : Nic} (n' : Nic) (hn : host.nics[k]? = some n) :
    (host.after k n n').work + share host.nics.length host.turn k n
      = host.work + share host.nics.length host.turn k n'
        + perMessage host.nics.length * (news n n').length := by
  have hset := total_set (w := share host.nics.length host.turn) n' hn
  have hstart := total_set
    (w := fun j _ => perPacket host.nics.length * (queued host.sys.handler j).length) n' hn
  simp only [Host.work, Host.after, System.deliver, List.length_set, List.length_append,
    List.length_map, Nat.mul_add]
  split <;> omega

/-- The card sends a packet. -/
theorem transmit_step_work {k : Nat} {n n' : Nic} (hinv : WorkInv n) (hn : host.nics[k]? = some n)
    (hn' : n.step .transmit = some n') : (host.after k n n').work < host.work := by
  have hafter := work_after n' hn
  cases E1000.nic_step hn' with
  | transmit card hcard =>
      have hless := E1000.transmit_work (perMessage host.nics.length) (alarm host.nics.length)
        hinv.tx hcard
      have hrx : card.rx = n.card.rx := by
        obtain ⟨-, rfl⟩ := E1000.transmit_eq hcard
        rfl
      have hold := (share_le host.nics.length host.turn k n).1
      have hnew := (share_le host.nics.length host.turn k
        { n with card, icr := n.icr ||| (n.card.tx.descs n.card.tx.tdh).report }).2
      simp only [news, hrx, List.drop_length, List.length_nil, Nat.mul_zero, Nat.add_zero] at hafter
      simp only at hnew
      omega

/-- The handler of the card that is served takes a step. -/
theorem driver_step_work {k : Nat} {n n' : Nic} (hinv : WorkInv n)
    (hreceive : E1000.ReceiveInv n.card.id n) (hn : host.nics[k]? = some n)
    (hn' : n.step .driver = some n') : (host.after k n n').work < host.work := by
  have hafter := work_after n' hn
  have hnews := congrArg List.length (news_spec hreceive hn').1
  rw [List.length_append] at hnews
  cases E1000.nic_step hn' with
  | driver card hcard =>
      have hless := E1000.driver_work (perMessage host.nics.length) (alarm host.nics.length)
        hinv.rx hinv.tx hcard
      rw [hnews, Nat.mul_add] at hless
      have hshare : share host.nics.length host.turn k { n with card }
            + n.card.work (perMessage host.nics.length) (alarm host.nics.length)
          = share host.nics.length host.turn k n
            + card.work (perMessage host.nics.length) (alarm host.nics.length) := by
        have hsame : Nic.asserted { n with card } = n.asserted := rfl
        simp only [share, hsame]
        omega
      omega

/-- The round comes to a card. -/
theorem serve_work {k : Nat} {n n' : Nic} (hturn : host.turn = .before k)
    (hn : host.nics[k]? = some n) (hn' : n.step .interrupt = some n') :
    Host.work { host.after k n n' with turn := .inside k } < host.work := by
  have hk : k < host.nics.length := (List.getElem?_eq_some_iff.mp hn).1
  have hafter := work_after n' hn
  cases E1000.nic_step hn' with
  | interrupt card hcard =>
      have hmore := E1000.interrupt_work (perMessage host.nics.length) (alarm host.nics.length)
        hcard
      have hquiet : Nic.asserted { n with card, icr := 0 } = false := by simp [Nic.asserted]
      have hpaid : share host.nics.length (.before k) k n
          = n.card.work (perMessage host.nics.length) (alarm host.nics.length) := by
        simp [share, Turn.visits]
      have hrx : card.rx = n.card.rx := by
        obtain ⟨-, rfl⟩ := E1000.interrupt_eq hcard
        rfl
      -- The card that is served has no cause left, so its visit no longer matters.
      have hsame : total (share host.nics.length (.inside k))
            (host.nics.set k { n with card, icr := 0 })
          = total (share host.nics.length (.before k))
            (host.nics.set k { n with card, icr := 0 }) := by
        refine total_congr ?_
        intro j m hm
        rcases getElem?_set_eq_some.mp hm with ⟨rfl, -, rfl⟩ | ⟨hne, -⟩
        · rw [share_quiet hquiet, share_quiet hquiet]
        · have hvisits : Turn.visits j (.inside k) = Turn.visits j (.before k) := by
            simp only [Turn.visits, decide_eq_decide]
            omega
          rw [share, share, hvisits]
      rw [hturn, hpaid, share_quiet hquiet] at hafter
      simp only [news, hrx, List.drop_length, List.length_nil, Nat.mul_zero, Nat.add_zero] at hafter
      simp only [Host.work, Host.after, List.length_set, hturn, Turn.work, hsame] at hafter ⊢
      omega

/-- A round begins while a cause is raised. -/
theorem enter_work {k : Nat} {n : Nic} (hout : host.turn = .outside)
    (hn : host.nics[k]? = some n) (hasserted : n.asserted = true) :
    Host.work { host with turn := .before 0 } < host.work := by
  have hless : total (share host.nics.length (.before 0)) host.nics + alarm host.nics.length
      ≤ total (share host.nics.length .outside) host.nics := by
    refine total_add_le _ ?_ hn ?_
    · intro j m hm
      have hpaid : share host.nics.length (.before 0) j m
          = m.card.work (perMessage host.nics.length) (alarm host.nics.length) := by
        simp [share, Turn.visits]
      rw [hpaid]
      exact (share_le host.nics.length .outside j m).1
    · simp [share, Turn.visits, hasserted]
  simp only [Host.work, hout, Turn.work, alarm] at hless ⊢
  omega

/-- Turns that visit the same cards are worth the same, but for the round itself. -/
theorem turn_work {t : Turn}
    (hvisits : ∀ j, j < host.nics.length → t.visits j = host.turn.visits j)
    (hless : t.work host.nics.length < host.turn.work host.nics.length) :
    Host.work { host with turn := t } < host.work := by
  have hsame : total (share host.nics.length t) host.nics
      = total (share host.nics.length host.turn) host.nics := by
    refine total_congr ?_
    intro j n hn
    rw [share, share, hvisits j (List.getElem?_eq_some_iff.mp hn).1]
  simp only [Host.work, hsame]
  omega

theorem leave_work {k : Nat} (hturn : host.turn = .before k) (hall : host.nics.length ≤ k) :
    Host.work { host with turn := .outside } < host.work := by
  refine turn_work ?_ ?_
  · intro j hj
    rw [hturn]
    simp only [Turn.visits]
    rw [eq_comm, decide_eq_false_iff_not]
    omega
  · rw [hturn]
    exact Nat.succ_pos _

theorem next_work {k : Nat} {n : Nic} (hturn : host.turn = .inside k)
    (hn : host.nics[k]? = some n) :
    Host.work { host with turn := .before (k + 1) } < host.work := by
  have hk : k < host.nics.length := (List.getElem?_eq_some_iff.mp hn).1
  refine turn_work ?_ ?_
  · intro j _
    rw [hturn]
    rfl
  · rw [hturn]
    simp only [Turn.work]
    omega

/-- The Discovers are paid for. -/
theorem start_work (hbegun : host.begun = false) :
    Host.work { host with
      begun := true, nics := sendFrom (fun _ => []) host.sys.handler host.nics } < host.work := by
  have hlen : (sendFrom (fun _ => []) host.sys.handler host.nics).length = host.nics.length := by
    rw [sendFrom, List.length_mapIdx]
  have hless : total (share host.nics.length host.turn)
        (sendFrom (fun _ => []) host.sys.handler host.nics)
      ≤ total (share host.nics.length host.turn) host.nics
        + total (fun j _ => perPacket host.nics.length * (queued host.sys.handler j).length)
          host.nics := by
    rw [sendFrom, total_mapIdx, ← total_add]
    have hle := total_le (l := host.nics) 0 fun j n _ =>
      share_enqueueAll host.nics.length host.turn j n (queued host.sys.handler j)
    rwa [Nat.zero_mul, Nat.add_zero] at hle
  simp only [Host.work, hlen, hbegun, if_true, Bool.false_eq_true, if_false]
  omega

/-- A message pays for what the handler sends. -/
theorem handle_work (h : HostInv h₀ host trace) (hbegun : host.begun = true) {sys : System}
    (hsys : host.sys.step .handle = some sys) :
    Host.work { host with
      sys, nics := sendFrom (queued host.sys.handler) sys.handler host.nics } < host.work := by
  cases step_move hsys with
  | handled hmail hhandle =>
      rename_i letter rest h'
      have hlen : (sendFrom (queued host.sys.handler) h' host.nics).length = host.nics.length := by
        rw [sendFrom, List.length_mapIdx]
      have hsent := (step_sent hhandle).2
      have hone : ∀ (j : Nat) n, host.nics[j]? = some n →
          ((queued h' j).drop (queued host.sys.handler j).length).length ≤ 1 := by
        intro j n hn
        obtain ⟨d, hd, -⟩ := h.device hn
        obtain ⟨d', hd', hsame⟩ := hsent j d hd
        rw [queued, queued, hd, hd']
        rcases hsame.queue with heq | ⟨packet, heq, -⟩
        · simp [heq]
        · simp [heq]
      have hless : total (share host.nics.length host.turn)
            (sendFrom (queued host.sys.handler) h' host.nics)
          ≤ total (share host.nics.length host.turn) host.nics
            + perPacket host.nics.length * host.nics.length := by
        rw [sendFrom, total_mapIdx]
        refine total_le _ ?_
        intro j n hn
        have hcost := share_enqueueAll host.nics.length host.turn j n
          ((queued h' j).drop (queued host.sys.handler j).length)
        have hpaid := Nat.mul_le_mul_left (perPacket host.nics.length) (hone j n hn)
        omega
      have hrest : (host.sys.handled letter rest h').mailbox = rest := rfl
      have hhandler : (host.sys.handled letter rest h').handler = h' := rfl
      simp only [Host.work, hrest, hhandler, hlen, hbegun, if_true, hmail, List.length_cons,
        Nat.mul_succ]
      have hprice : perMessage host.nics.length
          = perPacket host.nics.length * host.nics.length + 1 := rfl
      omega

/-! ### Every run -/

/-- The steps that the host takes on its own. -/
def Host.own (host : Host) : HostAction → Bool
  | .transmit _ | .loop | .driver | .start | .handle => true
  | .interrupt => host.nics.any fun n => n.asserted
  | _ => false

/-- Every step of its own leaves less to do. -/
theorem own_work (h : HostInv h₀ host trace) (hwork : ∀ n ∈ host.nics, WorkInv n)
    {act : HostAction} (hown : host.own act = true) (hstep : host.step act = some host') :
    host'.work < host.work := by
  cases host_move hstep with
  | card hact hn hn' =>
      cases act with
      | transmit k =>
          cases hact
          exact transmit_step_work (hwork _ (List.mem_of_getElem? hn)) hn hn'
      | receive k frame bits => cases hown
      | raise k causes => cases hown
      | _ => cases hact
  | enter hout =>
      obtain ⟨n, hmem, hasserted⟩ := List.any_eq_true.mp hown
      obtain ⟨k, hk⟩ := List.getElem?_of_mem hmem
      exact enter_work hout hk hasserted
  | serve hturn hn hn' => exact serve_work hturn hn hn'
  | leave hturn hall => exact leave_work hturn hall
  | next hturn hn hidle => exact next_work hturn hn
  | driver hturn hn hn' =>
      exact driver_step_work (hwork _ (List.mem_of_getElem? hn)) (h.card _ _ hn).receive hn hn'
  | start hout hbegun => exact start_work hbegun
  | call hout ha hsys => cases hown
  | handle hout hbegun hsys => exact handle_work h hbegun hsys

/-- The card that is being served is one of the cards. -/
def InRange (host : Host) : Prop := ∀ k, host.turn = .inside k → k < host.nics.length

theorem inRange_step {act : HostAction} (h : InRange host) (hstep : host.step act = some host') :
    InRange host' := by
  cases host_move hstep with
  | card hact hn hn' =>
      intro k hk
      rw [Host.after, List.length_set]
      exact h k hk
  | serve hturn hn hn' =>
      intro k hk
      cases hk
      show _ < (host.nics.set _ _).length
      rw [List.length_set]
      exact (List.getElem?_eq_some_iff.mp hn).1
  | driver hturn hn hn' =>
      intro k hk
      rw [Host.after, List.length_set]
      exact h k hk
  | start hout hbegun =>
      intro k hk
      rw [hout] at hk
      cases hk
  | handle hout hbegun hsys =>
      intro k hk
      rw [hout] at hk
      cases hk
  | call hout ha hsys => exact h
  | enter hout => exact fun k hk => by cases hk
  | leave hturn hall => exact fun k hk => by cases hk
  | next hturn hn hidle => exact fun k hk => by cases hk

theorem onNic_enabled {k : Nat} {a : NicAction} {n n' : Nic} (hn : host.nics[k]? = some n)
    (hn' : n.step a = some n') : host.onNic k a = some (host.after k n n') := by
  rw [Host.onNic, hn]
  simp only [hn', Option.map_some]
  rfl

/-- While an interrupt is served there is always a next step. -/
theorem round_goes_on (h : HostInv h₀ host trace) (hrange : InRange host)
    (hturn : host.turn ≠ .outside) :
    ∃ act host', host.own act = true ∧ host.step act = some host' := by
  cases ht : host.turn with
  | outside => exact absurd ht hturn
  | before k =>
      refine ⟨.loop, ?_⟩
      simp only [Host.step, ht, Host.own, true_and]
      by_cases hk : k < host.nics.length
      · have hn := List.getElem?_eq_getElem hk
        obtain ⟨n', hn'⟩ := E1000.interrupt_enabled
          ((h.card k _ hn).idle (by simp [ht]))
        rw [if_pos hk, onNic_enabled hn hn']
        exact ⟨_, rfl⟩
      · rw [if_neg hk]
        exact ⟨_, rfl⟩
  | inside k =>
      obtain ⟨n, hn⟩ : ∃ n, host.nics[k]? = some n := ⟨_, List.getElem?_eq_getElem (hrange k ht)⟩
      by_cases hidle : n.card.point = .idle
      · refine ⟨.loop, { host with turn := .before (k + 1) }, rfl, ?_⟩
        simp only [Host.step, ht, hn, Option.map_some, hidle, if_true]
      · obtain ⟨n', hn'⟩ := E1000.driver_enabled hidle
        refine ⟨.driver, host.after k n n', rfl, ?_⟩
        simp only [Host.step, ht]
        exact onNic_enabled hn hn'

/-- The message at the head of the handler queue makes the handler panic. -/
def Host.Panics (host : Host) : Prop :=
  ∃ letter rest, host.sys.mailbox = letter :: rest ∧
    Net.step host.sys.handler letter.message = none

/-- Outside an interrupt a host that can do nothing on its own is at rest, or its handler
is about to panic. -/
theorem rest_of_stuck (h : HostInv h₀ host trace) (hrange : InRange host)
    (hstuck : ∀ act, host.own act = true → host.step act = none) :
    host.AtRest ∨ host.Panics := by
  have hout : host.turn = .outside := by
    by_contra hturn
    obtain ⟨act, host', hown, hstep⟩ := round_goes_on h hrange hturn
    rw [hstuck act hown] at hstep
    cases hstep
  have hbegun : host.begun = true := by
    by_contra hc
    have hnone := hstuck .start rfl
    rw [Host.step, if_pos ⟨hout, Bool.eq_false_iff.mpr hc⟩] at hnone
    cases hnone
  have hcards : ∀ n ∈ host.nics, n.AtRest := by
    intro n hmem
    obtain ⟨k, hn⟩ := List.getElem?_of_mem hmem
    have hcard := h.card k n hn
    refine ⟨hcard.idle (by simp [hout]), ?_, hcard.notified, ?_⟩
    · by_contra hc
      have hasserted : host.nics.any (fun n => n.asserted) = true :=
        List.any_eq_true.mpr ⟨n, hmem, Bool.of_not_eq_false hc⟩
      have hnone := hstuck .interrupt hasserted
      rw [Host.step, if_pos hout] at hnone
      cases hnone
    · by_contra hne
      obtain ⟨n', hn'⟩ := E1000.transmit_enabled hne
      have hnone := hstuck (.transmit k) rfl
      rw [Host.step, onNic_enabled hn hn'] at hnone
      cases hnone
  cases hmail : host.sys.mailbox with
  | nil => exact Or.inl ⟨hout, hbegun, hmail, hcards⟩
  | cons letter rest =>
      refine Or.inr ⟨letter, rest, hmail, ?_⟩
      have hnone := hstuck .handle rfl
      rw [Host.step, if_pos ⟨hout, hbegun⟩, Option.map_eq_none_iff, System.step, hmail] at hnone
      exact Option.map_eq_none_iff.mp hnone

section Run

variable {readMac : Nat → Mac} {pciDevices : List Pci.Device} {retQueues : Nat → RetQueue}
  {host₀ : Host} {as bs : List HostAction}

/-- All that is needed of a host that can be reached. -/
structure RestInv (h₀ : Handler) (host : Host) : Prop where
  traced : ∃ trace, HostInv h₀ host trace
  cards : ∀ n ∈ host.nics, WorkInv n
  range : InRange host

theorem RestInv.init (hinit : Host.init readMac pciDevices retQueues = .ok host) :
    RestInv host.sys.handler host where
  traced := ⟨[], hostInv_init hinit⟩
  cards := by
    obtain ⟨handler, -, rfl⟩ := init_eq hinit
    intro n hn
    obtain ⟨pair, hpair, rfl⟩ := List.mem_map.mp hn
    rw [found_eq hpair]
    exact WorkInv.init _
  range := by
    obtain ⟨handler, -, rfl⟩ := init_eq hinit
    exact fun k hk => by cases hk

theorem RestInv.step (h : RestInv h₀ host) {act : HostAction}
    (hstep : host.step act = some host') : RestInv h₀ host' where
  traced := by
    obtain ⟨trace, hinv⟩ := h.traced
    obtain ⟨acts, hinv'⟩ := hostInv_step hinv hstep
    exact ⟨trace ++ acts, hinv'⟩
  cards := nics_step (fun _ _ _ hn (_ : _ → True) hn' => hn.step hn') (fun _ _ _ _ _ => trivial)
    h.cards hstep
  range := inRange_step h.range hstep

/--
**A host that is left alone comes to rest.**  From every state that can be reached, when no
more frames arrive and no caller does anything, the cards, the interrupt and the handler
take no more steps than `work` says, in whatever order they take them, and when none of them
is possible any more the host is at rest or the next message makes the handler panic.
-/
theorem host_comes_to_rest (hinit : Host.init readMac pciDevices retQueues = .ok host₀)
    (hreach : run Host.step host₀ as = some host) (hrun : run Host.step host bs = some host')
    (hown : StepsMeet Host.step (fun host act => host.own act = true) host bs) :
    bs.length ≤ host.work ∧
      ((∀ act, host'.own act = true → host'.step act = none) → host'.AtRest ∨ host'.Panics) := by
  have hinv : RestInv host₀.sys.handler host :=
    run_invariant (fun _ _ _ h hs => h.step hs) (RestInv.init hinit) hreach
  constructor
  · have hlen := length_add_le_of_decreases Host.work
      (fun _ _ _ (h : RestInv host₀.sys.handler _) hs => h.step hs)
      (fun _ _ _ h ho hs => own_work h.traced.choose_spec h.cards ho hs) bs host host' hinv hown
      hrun
    omega
  · have hinv' : RestInv host₀.sys.handler host' :=
      run_invariant (fun _ _ _ h hs => h.step hs) hinv hrun
    obtain ⟨trace, htrace⟩ := hinv'.traced
    exact rest_of_stuck htrace hinv'.range

end Run

/-- The frame of `oneResponse` has arrived; everything after it is left to the host. -/
theorem host_comes_to_rest_response :
    ∃ host₀ host host', Host.init (fun _ => someMac) bridgeAndCard (fun _ => .new) = .ok host₀ ∧
      run Host.step host₀ (oneResponse.take 2) = some host ∧
      run Host.step host (oneResponse.drop 2) = some host' ∧
      (oneResponse.drop 2).length ≤ host.work ∧ host'.AtRest := by
  obtain ⟨host₀, host', hinit, hrun, hvalues⟩ := exists_of_hostFrom (by decide +kernel :
    (hostFrom bridgeAndCard oneResponse).map (fun r => decide (r.2.AtRest ∧
      ∀ host ∈ run Host.step r.1 (oneResponse.take 2),
        StepsMeet Host.step (fun host act => host.own act = true) host (oneResponse.drop 2)))
      = some true)
  obtain ⟨hrest, hown⟩ := of_decide_eq_true hvalues
  rw [← List.take_append_drop 2 oneResponse, run_append, Option.bind_eq_some_iff] at hrun
  obtain ⟨host, hreach, hrun⟩ := hrun
  exact ⟨host₀, host, host', hinit, hreach, hrun,
    (host_comes_to_rest hinit hreach hrun (hown host hreach)).1, hrest⟩

end Rucoonos.Net
