/-
A card that is left alone comes to rest.

The handler may be kept busy for as long as frames arrive and packets are sent, but not
longer.  Every step that the card and the handler take on their own is paid for: a packet
on the queue pays for the steps that hand it over and for the report that comes back, a
frame in the ring for its pass of the receive loop, and a cause that is raised for one run
of the handler without any of these.  `work` is what is left to pay, and each step makes it
smaller, in whatever order they are taken.

Two prices are left open for what comes of a step elsewhere.  A frame pays `price` on top of
its pass when it is put on the handler queue, and `alarm` is paid for an interrupt.
-/
import Rucoonos.Proofs.Device.Wakeups

namespace Rucoonos.E1000

open Lts Ring

variable {s s' : Card} {n n' : Nic} {t : TxRing} {p : Point}

/-! ### Indices -/

/-- The ring indices that the handler has in its hands. -/
def Point.indices : Point → List Nat
  | .txTail _ curTxHead | .txRefill _ curTxHead _ | .txWrite _ curTxHead _ _
  | .txDoorbell _ curTxHead _ _ => [curTxHead]
  | .txReclaim _ curTxHead txIndex => [curTxHead, txIndex]
  | _ => []

/-- The indices of the transmit ring are indices of it, whether it was filled up or not. -/
structure Bounded (t : TxRing) (p : Point) : Prop where
  tdh_lt : t.tdh < txDesc
  cur_lt : t.curTx < txDesc
  last_lt : t.lastReclaimedTx < txDesc
  tail : t.tdt = t.curTx
  point : ∀ i ∈ p.indices, i < txDesc

theorem Bounded.init : Bounded TxRing.init .idle where
  tdh_lt := by decide
  cur_lt := by decide
  last_lt := by decide
  tail := rfl
  point := by intro i hi; cases hi

theorem Bounded.goTo {q : Point} (h : Bounded t p) (hq : ∀ i ∈ q.indices, i < txDesc) :
    Bounded t q := { h with point := hq }

theorem Point.indices_beforeTx (h : p.beforeTx = true) : p.indices = [] := by
  cases p <;> first | rfl | cases h

theorem Bounded.reclaimPoint_indices {cause : InterruptCauseRegister} {curTxHead : Nat}
    (h : Bounded t p) (hhead : curTxHead < txDesc) :
    ∀ i ∈ (reclaimPoint t cause curTxHead).indices, i < txDesc := by
  intro i hi
  unfold reclaimPoint at hi
  split at hi
  · simp only [Point.indices, List.mem_cons, List.not_mem_nil, or_false] at hi
    rcases hi with rfl | rfl
    · exact hhead
    · exact h.last_lt
  · cases hi

theorem bounded_step {a : Action} (h : Bounded s.tx s.point) (hstep : step s a = some s') :
    Bounded s'.tx s'.point := by
  cases step_tx hstep with
  | transmit hne htx hpoint =>
      rw [htx, hpoint]
      exact { h with tdh_lt := succ_mod_lt h.tdh_lt }
  | send len htx hpoint =>
      rw [htx, hpoint]
      exact { h with }
  | receive frame bits htx hpoint =>
      rw [htx, hpoint]
      exact h
  | before a htx hat hpoint =>
      rw [htx]
      refine h.goTo ?_
      rw [Point.indices_beforeTx hpoint]
      exact fun i hi => absurd hi List.not_mem_nil
  | readHead cause hat htx hpoint =>
      rw [htx, hpoint]
      refine h.goTo ?_
      intro i hi
      rw [List.mem_singleton.mp hi]
      exact h.tdh_lt
  | readTail cause curTxHead hat htx hpoint =>
      rw [htx, hpoint]
      refine h.goTo ?_
      have hhead : curTxHead < txDesc := h.point curTxHead (by rw [hat]; exact List.mem_cons_self)
      unfold refillPoint
      split
      · intro i hi
        rw [List.mem_singleton.mp hi]
        exact hhead
      · exact h.reclaimPoint_indices hhead
  | dequeue cause curTxHead left packet rest hat hqueue htx hpoint =>
      rw [hat] at h
      rw [htx, hpoint]
      exact { h with }
  | refilled cause curTxHead left hat htx hpoint =>
      rw [htx, hpoint]
      refine h.goTo (h.reclaimPoint_indices (h.point curTxHead ?_))
      rw [hat]
      exact List.mem_cons_self
  | fill cause curTxHead left packet hat htx hpoint =>
      rw [hat] at h
      rw [htx, hpoint]
      exact { h with }
  | doorbell cause curTxHead left packet hat htx hpoint =>
      rw [hat] at h
      rw [htx, hpoint]
      exact { h with cur_lt := succ_mod_lt h.cur_lt, tail := rfl }
  | reclaim cause curTxHead txIndex hat hne hstatus htx hpoint =>
      rw [hat] at h
      have hindex : txIndex < txDesc := h.point txIndex (by simp [Point.indices])
      rw [htx, hpoint]
      refine { h with last_lt := succ_mod_lt hindex, point := ?_ }
      intro i hi
      simp only [Point.indices, List.mem_cons, List.not_mem_nil, or_false] at hi
      rcases hi with rfl | rfl
      · exact h.point i (by simp [Point.indices])
      · exact succ_mod_lt hindex
  | skip cause curTxHead txIndex hat hne hstatus htx hpoint =>
      rw [hat] at h
      have hindex : txIndex < txDesc := h.point txIndex (by simp [Point.indices])
      rw [htx, hpoint]
      refine { h with point := ?_ }
      intro i hi
      simp only [Point.indices, List.mem_cons, List.not_mem_nil, or_false] at hi
      rcases hi with rfl | rfl
      · exact h.point i (by simp [Point.indices])
      · exact succ_mod_lt hindex
  | finish cause curTxHead hat htx hpoint =>
      rw [htx, hpoint]
      exact h.goTo (fun i hi => absurd hi List.not_mem_nil)

/-! ### What is left to do -/

/-- What the handler still has to do at a point of it, apart from the frames in the ring
and the packets on the queue. -/
def Point.work (alarm : Nat) : Point → Nat
  | .idle => 0
  | .txReclaim _ curTxHead txIndex => dist txDesc txIndex curTxHead + 1
  | .txRefill .. => 9
  | .txTail .. => 10
  | .txHead .. => 11
  | .rxRead .. => 13
  | .rxEnqueue .. => 12
  | .rxClear .. => 17
  | .rxAdvance .. => 16
  | .rxTail .. => 15
  | .txWrite .. => alarm + 12
  | .txDoorbell .. => alarm + 11

/-- The frames that were stored and not copied. -/
def Card.unread (s : Card) : Nat := dist rxDesc (nextRx s.rx s.point) s.rx.rdh

/-- The packets between head and tail. -/
def Card.unsent (s : Card) : Nat := dist txDesc s.tx.tdh s.tx.tdt

def Card.work (price alarm : Nat) (s : Card) : Nat :=
  (price + 6) * s.unread + (alarm + 4) * s.tx.packetQueue.length + (alarm + 1) * s.unsent
    + s.point.work alarm

def Nic.work (price alarm : Nat) (n : Nic) : Nat :=
  n.card.work price alarm + (alarm + 1) * n.notifying + if n.asserted then alarm else 0

theorem reclaimPoint_work {alarm : Nat} {cause : InterruptCauseRegister} {curTxHead : Nat}
    (hhead : curTxHead < txDesc) : (reclaimPoint t cause curTxHead).work alarm < 9 := by
  unfold reclaimPoint
  split
  · have hlt := dist_lt (i := t.lastReclaimedTx) hhead
    show dist txDesc t.lastReclaimedTx curTxHead + 1 < 9
    unfold txDesc at hlt ⊢
    omega
  · exact Nat.succ_pos 8

theorem refillPoint_work {alarm : Nat} {cause : InterruptCauseRegister}
    {curTxHead curTxTail : Nat} (hhead : curTxHead < txDesc) :
    (refillPoint t cause curTxHead curTxTail).work alarm < 10 := by
  unfold refillPoint
  split
  · exact Nat.lt_succ_self 9
  · exact Nat.lt_succ_of_lt (reclaimPoint_work hhead)

theorem dist_succ_right_le {i j : Nat} (hi : i < txDesc) (hj : j < txDesc) :
    dist txDesc i ((j + 1) % txDesc) ≤ dist txDesc i j + 1 := by
  by_cases hclosed : (j + 1) % txDesc = i
  · rw [hclosed, dist_self]
    exact Nat.zero_le _
  · exact (dist_succ_right hi hj hclosed).le

/-- A step that only moves the handler on. -/
theorem work_lt_of_point (price alarm : Nat) (hunread : s'.unread = s.unread)
    (hqueue : s'.tx.packetQueue = s.tx.packetQueue) (hunsent : s'.unsent = s.unsent)
    (hdelivered : s'.rx.delivered = s.rx.delivered)
    (hpoint : s'.point.work alarm < s.point.work alarm) :
    s'.work price alarm + price * s'.rx.delivered.length
      < s.work price alarm + price * s.rx.delivered.length := by
  unfold Card.work
  rw [hunread, hqueue, hunsent, hdelivered]
  omega

theorem unread_between (hat : s.point.betweenPasses = true)
    (hat' : s'.point.betweenPasses = true) (hrx : s'.rx = s.rx) : s'.unread = s.unread := by
  unfold Card.unread
  rw [nextRx_between hat, nextRx_between hat', hrx]

/-- A pass over a frame: the slot is not counted any more, and one message is on the
handler queue. -/
theorem enqueue_work (price alarm : Nat) {cause : InterruptCauseRegister} {desc : RxDesc}
    (hrx : RxInv s.rx s.point) (hat : s.point = .rxEnqueue cause desc)
    (hrx' : s'.rx = s.rx.enqueue s.id desc) (htx' : s'.tx = s.tx)
    (hpoint' : s'.point = .rxClear cause desc) :
    s'.work price alarm + price * s'.rx.delivered.length
      < s.work price alarm + price * s.rx.delivered.length := by
  have hunread : s'.unread + 1 = s.unread := by
    rw [hat] at hrx
    unfold Card.unread
    rw [hrx', hpoint', hat]
    exact dist_succ_left hrx.cur_lt hrx.rdh_lt (hrx.busy rfl).symm
  have hunsent : s'.unsent = s.unsent := by
    unfold Card.unsent
    rw [htx']
  have hdelivered : s'.rx.delivered.length = s.rx.delivered.length + 1 := by
    rw [hrx']
    exact List.length_append
  unfold Card.work
  rw [hdelivered, ← hunread, hunsent, htx', hpoint', hat, Nat.mul_succ, Nat.mul_succ]
  simp only [Point.work]
  omega

/-- Every step of the handler makes less of it, and what it puts on the handler queue is
paid for. -/
theorem driver_work (price alarm : Nat) (hrx : RxInv s.rx s.point) (htx : Bounded s.tx s.point)
    (h : s.driver = some s') :
    s'.work price alarm + price * s'.rx.delivered.length
      < s.work price alarm + price * s.rx.delivered.length := by
  cases hp : s.point with
  | idle => simp [Card.driver, hp] at h
  | rxRead cause =>
      simp only [Card.driver, hp, Option.some.injEq] at h
      subst h
      by_cases hdd : (s.rx.descs s.rx.curRx).status &&& 0b01 = 0
      · simp only [hdd, if_true]
        refine work_lt_of_point price alarm (unread_between (by rw [hp]; rfl) rfl rfl) rfl rfl rfl
          ?_
        rw [hp]
        exact (by decide : 11 < 13)
      · simp only [hdd, if_false]
        refine work_lt_of_point price alarm ?_ rfl rfl rfl ?_
        · unfold Card.unread
          rw [hp]
          rfl
        · rw [hp]
          exact (by decide : 12 < 13)
  | rxEnqueue cause desc =>
      simp only [Card.driver, hp, Option.some.injEq] at h
      subst h
      exact enqueue_work price alarm hrx hp rfl rfl rfl
  | rxClear cause desc =>
      simp only [Card.driver, hp, Option.some.injEq] at h
      subst h
      refine work_lt_of_point price alarm ?_ rfl rfl rfl ?_
      · unfold Card.unread
        rw [hp]
        rfl
      · rw [hp]
        exact (by decide : 16 < 17)
  | rxAdvance cause =>
      simp only [Card.driver, hp, Option.some.injEq] at h
      subst h
      refine work_lt_of_point price alarm ?_ rfl rfl rfl ?_
      · unfold Card.unread
        rw [hp]
        rfl
      · rw [hp]
        exact (by decide : 15 < 16)
  | rxTail cause oldRx =>
      simp only [Card.driver, hp, Option.some.injEq] at h
      subst h
      refine work_lt_of_point price alarm ?_ rfl rfl rfl ?_
      · unfold Card.unread
        rw [hp]
        rfl
      · rw [hp]
        exact (by decide : 13 < 15)
  | txHead cause =>
      simp only [Card.driver, hp, Option.some.injEq] at h
      subst h
      refine work_lt_of_point price alarm (unread_between (by rw [hp]; rfl) rfl rfl) rfl rfl rfl ?_
      rw [hp]
      exact (by decide : 10 < 11)
  | txTail cause curTxHead =>
      simp only [Card.driver, hp, Option.some.injEq] at h
      subst h
      have hhead : curTxHead < txDesc := htx.point curTxHead (by rw [hp]; exact List.mem_cons_self)
      refine work_lt_of_point price alarm
        (unread_between (by rw [hp]; rfl) (refillPoint_between ..) rfl) rfl rfl rfl ?_
      rw [hp]
      exact refillPoint_work hhead
  | txRefill cause curTxHead left =>
      have hhead : curTxHead < txDesc := htx.point curTxHead (by rw [hp]; exact List.mem_cons_self)
      simp only [Card.driver, hp] at h
      split at h
      · rename_i left packet rest hqueue
        rw [Option.some.injEq] at h
        have hunread : s'.unread = s.unread := by
          rw [← h]
          exact unread_between (by rw [hp]; rfl) rfl rfl
        rw [Card.work, Card.work, hunread, hqueue, hp, List.length_cons, ← h, Nat.mul_succ]
        simp only [Point.work, Card.unsent]
        omega
      · rw [Option.some.injEq] at h
        subst h
        refine work_lt_of_point price alarm
          (unread_between (by rw [hp]; rfl) (reclaimPoint_between ..) rfl) rfl rfl rfl ?_
        rw [hp]
        exact reclaimPoint_work hhead
  | txWrite cause curTxHead left packet =>
      simp only [Card.driver, hp, Option.some.injEq] at h
      subst h
      refine work_lt_of_point price alarm (unread_between (by rw [hp]; rfl) rfl rfl) rfl rfl rfl ?_
      rw [hp]
      exact Nat.lt_succ_self _
  | txDoorbell cause curTxHead left packet =>
      simp only [Card.driver, hp, Option.some.injEq] at h
      have hunread : s'.unread = s.unread := by
        rw [← h]
        exact unread_between (by rw [hp]; rfl) rfl rfl
      have hunsent : s'.unsent ≤ s.unsent + 1 := by
        rw [← h]
        unfold Card.unsent
        rw [htx.tail]
        exact dist_succ_right_le htx.tdh_lt htx.cur_lt
      have hpaid := Nat.mul_le_mul_left (alarm + 1) hunsent
      rw [Nat.mul_succ] at hpaid
      have hwork : s'.point.work alarm = 9 := by rw [← h]; rfl
      have hqueue : s'.tx.packetQueue = s.tx.packetQueue := by rw [← h]; rfl
      have hdelivered : s'.rx = s.rx := by rw [← h]
      rw [Card.work, Card.work, hunread, hwork, hqueue, hdelivered, hp]
      simp only [Point.work]
      omega
  | txReclaim cause curTxHead txIndex =>
      have hhead : curTxHead < txDesc := htx.point curTxHead (by rw [hp]; simp [Point.indices])
      have hindex : txIndex < txDesc := htx.point txIndex (by rw [hp]; simp [Point.indices])
      simp only [Card.driver, hp] at h
      split at h
      · rw [Option.some.injEq] at h
        subst h
        refine work_lt_of_point price alarm (unread_between (by rw [hp]; rfl) rfl rfl) rfl rfl rfl
          ?_
        rw [hp]
        exact Nat.succ_pos _
      · rename_i hne
        rw [Option.some.injEq] at h
        subst h
        have hless : dist txDesc ((txIndex + 1) % 8) curTxHead + 1
            < dist txDesc txIndex curTxHead + 1 :=
          Nat.lt_succ_of_le (dist_succ_left hindex hhead hne).le
        refine work_lt_of_point price alarm (unread_between (by rw [hp]; rfl) rfl rfl) ?_ ?_ rfl ?_
        · split <;> rfl
        · unfold Card.unsent
          split <;> rfl
        · rw [hp]
          exact hless

/-! ### Every run -/

/-- The steps that the card and the handler take on their own: the card sends what is in
its ring, a sender goes on to `notify`, an asserted line enters the handler, and the
handler goes on. -/
def Nic.own (n : Nic) : NicAction → Bool
  | .transmit | .notify | .driver => true
  | .interrupt => n.asserted
  | _ => false

structure WorkInv (n : Nic) : Prop where
  rx : RxInv n.card.rx n.card.point
  tx : Bounded n.card.tx n.card.point

theorem WorkInv.init (id : Nat) : WorkInv (Nic.init id) := ⟨RxInv.init, Bounded.init⟩

theorem WorkInv.step {a : NicAction} (h : WorkInv n) (hstep : n.step a = some n') :
    WorkInv n' where
  rx := nic_keeps (P := fun s => RxInv s.rx s.point) (fun _ _ _ hs hc => rxInv_step hc hs) h.rx
    hstep
  tx := nic_keeps (P := fun s => Bounded s.tx s.point) (fun _ _ _ hs hc => bounded_step hs hc) h.tx
    hstep

theorem transmit_work (price alarm : Nat) (h : Bounded s.tx s.point)
    (hstep : E1000.step s .transmit = some s') :
    s'.work price alarm + (alarm + 1) = s.work price alarm := by
  obtain ⟨hne, rfl⟩ := transmit_eq hstep
  rw [h.tail] at hne
  have hunsent := dist_succ_left h.tdh_lt h.cur_lt hne
  rw [← h.tail] at hunsent
  simp only [Card.work, Card.unread, Card.unsent, TxRing.transmit, ← hunsent, Nat.mul_succ]
  omega

/-- The handler is entered. -/
theorem interrupt_work (price alarm : Nat) {raw : UInt32}
    (hstep : E1000.step s (.interrupt raw) = some s') :
    s'.work price alarm ≤ s.work price alarm + 13 := by
  obtain ⟨hidle, hat⟩ := interrupt_eq hstep
  have hunread : s'.unread = s.unread := by
    refine unread_between (by rw [hidle]; rfl) ?_ (by rw [hat])
    rw [hat]
    show (if _ then _ else _ : Point).betweenPasses = true
    split <;> rfl
  have hwork : s'.point.work alarm ≤ 13 := by
    rw [hat]
    show (if _ then _ else _ : Point).work alarm ≤ 13
    split <;> simp [Point.work]
  have htx : s'.tx = s.tx := by rw [hat]
  rw [Card.work, Card.work, hunread, Card.unsent, Card.unsent, htx]
  omega

/-- Every step of its own leaves less to do. -/
theorem own_step_work {a : NicAction} (h : WorkInv n) (hown : n.own a = true)
    (hstep : n.step a = some n') : n'.work 0 14 < n.work 0 14 := by
  cases nic_step hstep with
  | transmit card hcard =>
      have hless := transmit_work 0 14 h.tx hcard
      obtain ⟨-, rfl⟩ := transmit_eq hcard
      simp only [Nic.work]
      split <;> omega
  | receive frame bits card hcard => cases hown
  | raise causes => cases hown
  | send len card hcard => cases hown
  | notify left hleft =>
      simp only [Nic.work, hleft]
      split <;> omega
  | interrupt card hcard =>
      have hasserted : n.asserted = true := hown
      have hquiet : Nic.asserted { n with card, icr := 0 } = false := by simp [Nic.asserted]
      have hmore := interrupt_work 0 14 hcard
      simp only [Nic.work, hquiet, hasserted, if_true, Bool.false_eq_true, if_false]
      omega
  | driver card hcard =>
      have hless := driver_work 0 14 h.rx h.tx hcard
      have hsame : Nic.asserted { n with card } = n.asserted := rfl
      simp only [Nic.work, hsame]
      omega

/-- Inside the handler there is always a next step. -/
theorem driver_enabled (h : n.card.point ≠ .idle) : ∃ n', n.step .driver = some n' := by
  obtain ⟨card, hcard⟩ : ∃ card, n.card.driver = some card := by
    unfold Card.driver
    split
    · rename_i hat
      exact absurd hat h
    all_goals first
      | exact ⟨_, rfl⟩
      | (split <;> exact ⟨_, rfl⟩)
  exact ⟨_, by rw [Nic.step, E1000.step, hcard, Option.map_some]⟩

theorem interrupt_enabled (h : n.card.point = .idle) : ∃ n', n.step .interrupt = some n' := by
  obtain ⟨card, hcard⟩ : ∃ card, E1000.step n.card (.interrupt n.icr) = some card := by
    rw [E1000.step, Card.interrupt, h]
    exact ⟨_, rfl⟩
  exact ⟨_, by rw [Nic.step, hcard, Option.map_some]⟩

theorem transmit_enabled (h : n.card.tx.tdh ≠ n.card.tx.tdt) :
    ∃ n', n.step .transmit = some n' := by
  have hcard : E1000.step n.card .transmit = some { n.card with tx := n.card.tx.transmit } := by
    rw [E1000.step, if_neg h]
  exact ⟨_, by rw [Nic.step, hcard, Option.map_some]⟩

/-- A card that is not at rest can take a step of its own. -/
theorem own_step_of_not_rest (h : ¬ n.AtRest) :
    ∃ a n', n.own a = true ∧ n.step a = some n' := by
  by_cases hidle : n.card.point = .idle
  · by_cases hsent : n.card.tx.tdh = n.card.tx.tdt
    · cases hnotify : n.notifying with
      | succ left => exact ⟨.notify, _, rfl, by rw [Nic.step, hnotify]⟩
      | zero =>
          have hasserted : n.asserted = true := by
            by_contra hc
            exact h ⟨hidle, Bool.eq_false_iff.mpr hc, hnotify, hsent⟩
          obtain ⟨n', hn'⟩ := interrupt_enabled hidle
          exact ⟨.interrupt, n', hasserted, hn'⟩
    · obtain ⟨n', hn'⟩ := transmit_enabled hsent
      exact ⟨.transmit, n', rfl, hn'⟩
  · obtain ⟨n', hn'⟩ := driver_enabled hidle
    exact ⟨.driver, n', rfl, hn'⟩

/-- At rest there is none to take. -/
theorem Nic.AtRest.no_step {a : NicAction} (h : n.AtRest) (hown : n.own a = true) :
    n.step a = none := by
  cases a with
  | transmit =>
      rw [Nic.step, E1000.step, if_pos h.sent]
      rfl
  | notify => rw [Nic.step, h.notified]
  | interrupt =>
      have hasserted : n.asserted = true := hown
      rw [h.quiet] at hasserted
      cases hasserted
  | driver =>
      rw [Nic.step, E1000.step, Card.driver, h.idle]
      rfl
  | _ => cases hown

/--
**A card that is left alone comes to rest.**  However the card, the senders and the handler
take turns, from any state that can be reached they take no more steps of their own than
`work` says, and only at rest is none of them possible.
-/
theorem comes_to_rest (id : Nat) (as bs : List NicAction) (n n' : Nic)
    (hreach : run Nic.step (Nic.init id) as = some n) (hrun : run Nic.step n bs = some n')
    (hown : StepsMeet Nic.step (fun n a => n.own a = true) n bs) :
    bs.length ≤ n.work 0 14 ∧ (n'.AtRest ↔ ∀ a, n'.own a = true → n'.step a = none) := by
  have hinv : WorkInv n := run_invariant (fun _ _ _ h hs => h.step hs) (WorkInv.init id) hreach
  constructor
  · have hlen := length_add_le_of_decreases (fun n : Nic => n.work 0 14)
      (fun _ _ _ (h : WorkInv _) hs => h.step hs)
      (fun _ _ _ h ho hs => own_step_work h ho hs) bs n n' hinv hown hrun
    omega
  · constructor
    · exact fun hrest a => hrest.no_step
    · intro hstuck
      by_contra hrest
      obtain ⟨a, mid, ho, hs⟩ := own_step_of_not_rest hrest
      rw [hstuck a ho] at hs
      cases hs

/-- What is left to do when three packets have been put on the queue and the sender of one has
called `notify`. -/
def afterThreeSends : List NicAction :=
  [.notify, .notify, .interrupt] ++ List.replicate 12 .driver
    ++ [.transmit, .transmit, .transmit, .interrupt] ++ List.replicate 7 .driver

theorem comes_to_rest_threeSends :
    ∃ n n', run Nic.step (Nic.init 3) [.send 60, .send 70, .notify, .send 42] = some n ∧
      run Nic.step n afterThreeSends = some n' ∧ afterThreeSends.length ≤ n.work 0 14 ∧
      ∀ a, n'.own a = true → n'.step a = none := by
  have hends : (run Nic.step (Nic.init 3) [.send 60, .send 70, .notify, .send 42]).map
      (fun n => (run Nic.step n afterThreeSends).map fun n' => decide
        (StepsMeet Nic.step (fun n a => n.own a = true) n afterThreeSends ∧ n'.AtRest))
        = some (some true) := by decide +kernel
  obtain ⟨n, hn, hafter⟩ := Option.map_eq_some_iff.mp hends
  obtain ⟨n', hn', hvalues⟩ := Option.map_eq_some_iff.mp hafter
  obtain ⟨hown, hrest⟩ := of_decide_eq_true hvalues
  obtain ⟨hlength, hstuck⟩ := comes_to_rest 3 _ afterThreeSends n n' hn hn' hown
  exact ⟨n, n', hn, hn', hlength, hstuck.mp hrest⟩

end Rucoonos.E1000
