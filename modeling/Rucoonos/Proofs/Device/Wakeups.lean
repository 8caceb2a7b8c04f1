/-
No wake-up is lost: a card at rest has delivered every frame and sent every packet.

The handler does all of its work inside an interrupt, so whatever is left in the rings or
on the packet queue when it returns has to be covered by an interrupt that is still to
come.  Here that is followed step by step.  A frame the card has stored is covered by RXT
in the cause register until the handler is in its receive loop, and the loop does not end
before it has seen a clear DD bit.  A packet on the queue is covered by its sender, who has
not called `notify` yet, then by TXD_LOW, or by the packets in the ring, each of which
raises TXDW when it is sent, or by a handler that has read one of the two and is on its way
to the refill loop.

The refill is skipped when the head and the tail that the handler read differ.  This is
safe because the head is read first: if the card is still at work on the ring it will
raise TXDW later, and if it is done the two are equal.
-/
import Rucoonos.Device.Interrupts
import Rucoonos.Proofs.Device.Registers
import Rucoonos.Proofs.Device.Traffic

namespace Rucoonos.E1000

open Lts Ring

variable {s s' : Card} {n n' : Nic} {t : TxRing} {p : Point}

/-! ### What a step does to the registers -/

/-- Everything a step can do to a card with its interrupt registers. -/
inductive NicStep (n : Nic) : NicAction → Nic → Prop
  | transmit (card : Card) (hcard : step n.card .transmit = some card) :
      NicStep n .transmit
        { n with card, icr := n.icr ||| (n.card.tx.descs n.card.tx.tdh).report }
  | receive (frame : Bytes) (bits : UInt8) (card : Card)
      (hcard : step n.card (.receive frame bits) = some card) :
      NicStep n (.receive frame bits) { n with card, icr := n.icr ||| icrRxt }
  | raise (causes : UInt32) : NicStep n (.raise causes) { n with icr := n.icr ||| causes }
  | send (len : Nat) (card : Card) (hcard : step n.card (.send len) = some card) :
      NicStep n (.send len) { n with card, notifying := n.notifying + 1 }
  | notify (left : Nat) (hleft : n.notifying = left + 1) :
      NicStep n .notify { n with icr := n.icr ||| notifyCause, notifying := left }
  | interrupt (card : Card) (hcard : step n.card (.interrupt n.icr) = some card) :
      NicStep n .interrupt { n with card, icr := 0 }
  | driver (card : Card) (hcard : step n.card .driver = some card) :
      NicStep n .driver { n with card }

theorem nic_step {a : NicAction} (h : n.step a = some n') : NicStep n a n' := by
  cases a with
  | transmit =>
      obtain ⟨card, hcard, rfl⟩ := Option.map_eq_some_iff.mp h
      exact NicStep.transmit card hcard
  | receive frame bits =>
      obtain ⟨card, hcard, rfl⟩ := Option.map_eq_some_iff.mp h
      exact NicStep.receive frame bits card hcard
  | raise causes =>
      simp only [Nic.step, Option.some.injEq] at h
      subst h
      exact NicStep.raise causes
  | send len =>
      rw [Nic.step, Option.map_eq_some_iff] at h
      obtain ⟨card, hcard, rfl⟩ := h
      exact NicStep.send len card hcard
  | notify =>
      simp only [Nic.step] at h
      split at h
      · cases h
      · rename_i left hleft
        rw [Option.some.injEq] at h
        subst h
        exact NicStep.notify left hleft
  | interrupt =>
      obtain ⟨card, hcard, rfl⟩ := Option.map_eq_some_iff.mp h
      exact NicStep.interrupt card hcard
  | driver =>
      obtain ⟨card, hcard, rfl⟩ := Option.map_eq_some_iff.mp h
      exact NicStep.driver card hcard

/-- The step of the card that a step is, if it is one. -/
def NicAction.onCard (icr : UInt32) : NicAction → Option Action
  | .transmit => some .transmit
  | .receive frame bits => some (.receive frame bits)
  | .send len => some (.send len)
  | .interrupt => some (.interrupt icr)
  | .driver => some .driver
  | .raise _ | .notify => none

/-- A step is a step of the card or leaves the card alone. -/
theorem nic_card {a : NicAction} (h : n.step a = some n') :
    (a.onCard n.icr = none ∧ n'.card = n.card) ∨
      ∃ b, a.onCard n.icr = some b ∧ step n.card b = some n'.card := by
  cases nic_step h with
  | transmit card hcard => exact Or.inr ⟨_, rfl, hcard⟩
  | receive frame bits card hcard => exact Or.inr ⟨_, rfl, hcard⟩
  | raise causes => exact Or.inl ⟨rfl, rfl⟩
  | send len card hcard => exact Or.inr ⟨_, rfl, hcard⟩
  | notify left hleft => exact Or.inl ⟨rfl, rfl⟩
  | interrupt card hcard => exact Or.inr ⟨_, rfl, hcard⟩
  | driver card hcard => exact Or.inr ⟨_, rfl, hcard⟩

/-- What every step of the card keeps, every step keeps. -/
theorem nic_keeps {P : Card → Prop} (hP : ∀ s a s', P s → step s a = some s' → P s')
    {a : NicAction} (h : P n.card) (hstep : n.step a = some n') : P n'.card := by
  rcases nic_card hstep with ⟨-, heq⟩ | ⟨b, -, hcard⟩
  · rw [heq]
    exact h
  · exact hP _ b _ h hcard

theorem nic_imask {a : NicAction} (h : n.step a = some n') : n'.imask = n.imask := by
  cases nic_step h <;> rfl

/-- The card sends what is at its head. -/
theorem transmit_eq (h : step s .transmit = some s') :
    s.tx.tdh ≠ s.tx.tdt ∧ s' = { s with tx := s.tx.transmit } := by
  simp only [step] at h
  split at h
  · cases h
  · rename_i hne
    rw [Option.some.injEq] at h
    exact ⟨hne, h.symm⟩

theorem receive_eq {frame : Bytes} {bits : UInt8} (h : step s (.receive frame bits) = some s') :
    s' = { s with rx := s.rx.receive frame bits } := by
  simp only [step] at h
  split at h
  · cases h
  · rw [Option.some.injEq] at h
    exact h.symm

/-- The handler is entered from outside, and starts with the receive loop if there is a
cause for it. -/
theorem interrupt_eq {raw : UInt32} (h : step s (.interrupt raw) = some s') :
    s.point = .idle ∧ s' = { s with
      point := if (InterruptCauseRegister.ofRaw raw).rxt then .rxRead (.ofRaw raw)
        else .txHead (.ofRaw raw) } := by
  simp only [step, Card.interrupt] at h
  split at h
  · rename_i hidle
    rw [Option.some.injEq] at h
    exact ⟨hidle, h.symm⟩
  · cases h

/-! ### The causes -/

theorem bit_or (a b i : UInt32) (hi : i.toNat < 32) : bit (a ||| b) i = (bit a i || bit b i) := by
  rw [bit_eq_testBit _ hi, bit_eq_testBit _ hi, bit_eq_testBit _ hi, UInt32.toNat_or,
    Nat.testBit_or]

theorem bit_and (a b i : UInt32) (hi : i.toNat < 32) : bit (a &&& b) i = (bit a i && bit b i) := by
  rw [bit_eq_testBit _ hi, bit_eq_testBit _ hi, bit_eq_testBit _ hi, UInt32.toNat_and,
    Nat.testBit_and]

/-- The causes on which the handler looks at the packet queue. -/
def InterruptCauseRegister.refills (c : InterruptCauseRegister) : Bool := c.txdLow || c.txdw

/-- The register holds a cause on which the handler will look at the packet queue. -/
def raisesRefill (icr : UInt32) : Bool := (InterruptCauseRegister.ofRaw icr).refills

/-- It holds the cause on which the handler enters the receive loop. -/
def raisesRxt (icr : UInt32) : Bool := (InterruptCauseRegister.ofRaw icr).rxt

@[simp] theorem raisesRefill_or (a b : UInt32) :
    raisesRefill (a ||| b) = (raisesRefill a || raisesRefill b) := by
  simp only [raisesRefill, InterruptCauseRegister.refills, InterruptCauseRegister.ofRaw]
  rw [bit_or _ _ 15 (by decide), bit_or _ _ 0 (by decide)]
  grind

@[simp] theorem raisesRxt_or (a b : UInt32) : raisesRxt (a ||| b) = (raisesRxt a || raisesRxt b) :=
  bit_or a b 7 (by decide)

theorem raisesRefill_notify : raisesRefill notifyCause = true := by decide

theorem raisesRefill_txdw : raisesRefill icrTxdw = true := by decide

theorem raisesRxt_rxt : raisesRxt icrRxt = true := by decide

/-- The mask lets all of them through. -/
theorem quiet_of_not_asserted (hmask : n.imask = enabledCauses.toRaw) (h : n.asserted = false) :
    raisesRefill n.icr = false ∧ raisesRxt n.icr = false := by
  have hzero : n.icr &&& n.imask = 0 := by simpa [Nic.asserted] using h
  have hclear : ∀ i : UInt32, i.toNat < 32 → bit n.imask i = true → bit n.icr i = false := by
    intro i hi hset
    have hboth := bit_and n.icr n.imask i hi
    rw [hzero, hset, Bool.and_true] at hboth
    rw [← hboth]
    simp [bit]
  rw [hmask] at hclear
  have h15 := hclear 15 (by decide) (by decide)
  have h0 := hclear 0 (by decide) (by decide)
  have h7 := hclear 7 (by decide) (by decide)
  refine ⟨?_, h7⟩
  simp [raisesRefill, InterruptCauseRegister.refills, InterruptCauseRegister.ofRaw, h15, h0]

/-! ### Frames -/

/-- The handler is in its receive loop. -/
def Point.inRx : Point → Bool
  | .rxRead .. | .rxEnqueue .. | .rxClear .. | .rxAdvance .. | .rxTail .. => true
  | _ => false

theorem reclaimPoint_inRx (t : TxRing) (cause : InterruptCauseRegister) (curTxHead : Nat) :
    (reclaimPoint t cause curTxHead).inRx = false := by
  unfold reclaimPoint
  split <;> rfl

theorem refillPoint_inRx (t : TxRing) (cause : InterruptCauseRegister)
    (curTxHead curTxTail : Nat) : (refillPoint t cause curTxHead curTxTail).inRx = false := by
  unfold refillPoint
  split
  · rfl
  · exact reclaimPoint_inRx t cause curTxHead

/-- Outside the receive loop the handler leaves the receive ring alone. -/
theorem driver_outside (h : s.driver = some s') (hout : s.point.inRx = false) :
    s'.rx = s.rx ∧ s'.point.inRx = false := by
  cases hp : s.point with
  | idle => simp [Card.driver, hp] at h
  | txHead cause =>
      simp only [Card.driver, hp, Option.some.injEq] at h
      subst h
      exact ⟨rfl, rfl⟩
  | txTail cause curTxHead =>
      simp only [Card.driver, hp, Option.some.injEq] at h
      subst h
      exact ⟨rfl, refillPoint_inRx ..⟩
  | txRefill cause curTxHead left =>
      simp only [Card.driver, hp] at h
      split at h
      · rw [Option.some.injEq] at h
        subst h
        exact ⟨rfl, rfl⟩
      · rw [Option.some.injEq] at h
        subst h
        exact ⟨rfl, reclaimPoint_inRx ..⟩
  | txWrite cause curTxHead left packet =>
      simp only [Card.driver, hp, Option.some.injEq] at h
      subst h
      exact ⟨rfl, rfl⟩
  | txDoorbell cause curTxHead left packet =>
      simp only [Card.driver, hp, Option.some.injEq] at h
      subst h
      exact ⟨rfl, rfl⟩
  | txReclaim cause curTxHead txIndex =>
      simp only [Card.driver, hp] at h
      split at h
      · rw [Option.some.injEq] at h
        subst h
        exact ⟨rfl, rfl⟩
      · rw [Option.some.injEq] at h
        subst h
        exact ⟨rfl, rfl⟩
  | _ =>
      rw [hp] at hout
      cases hout

/-- The loop ends at a clear DD bit, and only there. -/
theorem driver_leaves (h : s.driver = some s') (hin : s.point.inRx = true)
    (hout : s'.point.inRx = false) :
    (∃ cause, s.point = .rxRead cause) ∧ s'.rx = s.rx ∧
      (s.rx.descs s.rx.curRx).status &&& 0b01 = 0 := by
  cases hp : s.point with
  | rxRead cause =>
      simp only [Card.driver, hp, Option.some.injEq] at h
      subst h
      refine ⟨⟨cause, rfl⟩, rfl, ?_⟩
      by_contra hdd
      simp only [hdd, if_false] at hout
      cases hout
  | rxEnqueue cause desc =>
      simp only [Card.driver, hp, Option.some.injEq] at h
      subst h
      cases hout
  | rxClear cause desc =>
      simp only [Card.driver, hp, Option.some.injEq] at h
      subst h
      cases hout
  | rxAdvance cause =>
      simp only [Card.driver, hp, Option.some.injEq] at h
      subst h
      cases hout
  | rxTail cause oldRx =>
      simp only [Card.driver, hp, Option.some.injEq] at h
      subst h
      cases hout
  | _ =>
      rw [hp] at hin
      cases hin

/-- A frame that was stored and not read is covered by RXT or by the receive loop. -/
def RxCovered (n : Nic) : Prop :=
  n.card.rx.curRx ≠ n.card.rx.rdh → raisesRxt n.icr = true ∨ n.card.point.inRx = true

/-- A clear DD bit at `cur_rx` means that nothing is left to read. -/
theorem RxInv.read_all {r : RxRing} {cause : InterruptCauseRegister} (h : RxInv r (.rxRead cause))
    (hdd : (r.descs r.curRx).status &&& 0b01 = 0) : r.curRx = r.rdh := by
  have hnone := (h.done r.curRx h.cur_lt).not.mp (not_not_intro hdd)
  change ¬ dist rxDesc r.curRx r.curRx < dist rxDesc r.curRx r.rdh at hnone
  rw [dist_self, Nat.pos_iff_ne_zero, not_not, dist_eq_zero h.cur_lt] at hnone
  exact hnone

theorem rxCovered_step {a : NicAction} (hinv : RxInv n.card.rx n.card.point) (h : RxCovered n)
    (hstep : n.step a = some n') : RxCovered n' := by
  cases nic_step hstep with
  | transmit card hcard =>
      obtain ⟨-, rfl⟩ := transmit_eq hcard
      intro hne
      rw [raisesRxt_or, Bool.or_eq_true]
      exact (h hne).imp_left Or.inl
  | receive frame bits card hcard =>
      intro _
      left
      rw [raisesRxt_or, raisesRxt_rxt, Bool.or_true]
  | raise causes =>
      intro hne
      rw [raisesRxt_or, Bool.or_eq_true]
      exact (h hne).imp_left Or.inl
  | send len card hcard =>
      simp only [step, Option.some.injEq] at hcard
      subst hcard
      exact h
  | notify left hleft =>
      intro hne
      rw [raisesRxt_or, Bool.or_eq_true]
      exact (h hne).imp_left Or.inl
  | interrupt card hcard =>
      obtain ⟨hidle, rfl⟩ := interrupt_eq hcard
      intro hne
      have hrxt : (InterruptCauseRegister.ofRaw n.icr).rxt = true := by
        rcases h hne with hrxt | hin
        · exact hrxt
        · rw [hidle] at hin
          cases hin
      right
      simp only [hrxt, if_true]
      rfl
  | driver card hcard =>
      intro hne
      cases hin' : card.point.inRx with
      | true => exact Or.inr rfl
      | false =>
          cases hin : n.card.point.inRx with
          | true =>
              obtain ⟨⟨cause, hat⟩, hrx, hdd⟩ := driver_leaves hcard hin hin'
              rw [hat] at hinv
              rw [hrx] at hne
              exact absurd (hinv.read_all hdd) hne
          | false =>
              rw [(driver_outside hcard hin).1] at hne
              refine (h hne).imp_right ?_
              intro hc
              rw [hin] at hc
              cases hc

/-! ### Packets -/

/-- The handler will get to the refill loop and find room there. -/
def Point.willRefill (t : TxRing) : Point → Prop
  | .rxRead cause | .rxEnqueue cause _ | .rxClear cause _ | .rxAdvance cause | .rxTail cause _
  | .txHead cause => cause.refills = true
  | .txTail cause curTxHead => cause.refills = true ∧ curTxHead = t.tdt
  | .txRefill _ _ left => 0 < left
  | .txWrite .. | .txDoorbell .. => True
  | .idle | .txReclaim .. => False

/-- A packet on the queue is covered: by its sender, by a cause that is raised, by a packet
in the ring whose report is still to come, or by the handler. -/
def Covered (n : Nic) : Prop :=
  0 < n.notifying ∨ raisesRefill n.icr = true ∨ n.card.tx.tdh ≠ n.card.tx.tdt ∨
    n.card.point.willRefill n.card.tx

def TxCovered (n : Nic) : Prop := n.card.tx.packetQueue ≠ [] → Covered n

/-- A descriptor the card has not sent yet asks for a report. -/
def AsksReport (t : TxRing) : Prop :=
  ∀ i, (t.descs i).status &&& tstaDd = 0 → (t.descs i).cmd &&& cmdRs ≠ 0

theorem asksReport_step {a : Action} (h : AsksReport s.tx) (hstep : step s a = some s') :
    AsksReport s'.tx := by
  cases step_tx hstep with
  | transmit hne htx hpoint =>
      rw [htx]
      intro i hdd
      show (Function.update s.tx.descs s.tx.tdh _ i).cmd &&& cmdRs ≠ 0
      change (Function.update s.tx.descs s.tx.tdh _ i).status &&& tstaDd = 0 at hdd
      by_cases hi : i = s.tx.tdh
      · subst hi
        rw [Function.update_self] at hdd
        have hset : ((s.tx.descs s.tx.tdh).status ||| tstaDd) &&& tstaDd = 1 := or_one_and_one _
        rw [hset] at hdd
        exact absurd hdd (by decide)
      · rw [Function.update_of_ne hi] at hdd ⊢
        exact h i hdd
  | fill cause curTxHead left packet hat htx hpoint =>
      rw [htx]
      intro i hdd
      show (Function.update s.tx.descs s.tx.curTx (filledDesc packet) i).cmd &&& cmdRs ≠ 0
      change (Function.update s.tx.descs s.tx.curTx (filledDesc packet) i).status &&& tstaDd = 0
        at hdd
      by_cases hi : i = s.tx.curTx
      · rw [hi, Function.update_self]
        show (cmdEop ||| cmdIfcs ||| cmdRs) &&& cmdRs ≠ 0
        decide
      · rw [Function.update_of_ne hi] at hdd ⊢
        exact h i hdd
  | send len htx hpoint => rw [htx]; exact h
  | receive frame bits htx hpoint => rw [htx]; exact h
  | before a htx hat hpoint => rw [htx]; exact h
  | readHead cause hat htx hpoint => rw [htx]; exact h
  | readTail cause curTxHead hat htx hpoint => rw [htx]; exact h
  | dequeue cause curTxHead left packet rest hat hqueue htx hpoint => rw [htx]; exact h
  | refilled cause curTxHead left hat htx hpoint => rw [htx]; exact h
  | doorbell cause curTxHead left packet hat htx hpoint => rw [htx]; exact h
  | reclaim cause curTxHead txIndex hat hne hstatus htx hpoint => rw [htx]; exact h
  | skip cause curTxHead txIndex hat hne hstatus htx hpoint => rw [htx]; exact h
  | finish cause curTxHead hat htx hpoint => rw [htx]; exact h

/-- What the card sends it reports. -/
theorem report_of_pending (hinv : TxInv t p) (hrep : AsksReport t) (hne : t.tdh ≠ t.tdt) :
    (t.descs t.tdh).report = icrTxdw := by
  have hdd : (t.descs t.tdh).status &&& tstaDd = 0 := by
    refine (hinv.pending t.tdh hinv.tdh_lt).mpr (Or.inl ?_)
    rw [dist_self, Nat.pos_iff_ne_zero, Ne, dist_eq_zero hinv.tdh_lt, ← hinv.tail]
    exact hne
  rw [TxDesc.report, if_neg (hrep t.tdh hdd)]

/-- A step of the handler that takes nothing off the queue and leaves head and tail: what
the handler itself covered it still has to cover. -/
theorem TxCovered.moves (h : TxCovered n) {card : Card}
    (htx : card.tx.packetQueue = n.card.tx.packetQueue ∧ card.tx.tdh = n.card.tx.tdh ∧
      card.tx.tdt = n.card.tx.tdt)
    (hwill : n.card.tx.packetQueue ≠ [] → n.card.point.willRefill n.card.tx →
      n.card.tx.tdh ≠ n.card.tx.tdt ∨ card.point.willRefill card.tx) :
    TxCovered { n with card } := by
  obtain ⟨hqueue, htdh, htdt⟩ := htx
  intro hne
  change card.tx.packetQueue ≠ [] at hne
  show 0 < n.notifying ∨ raisesRefill n.icr = true ∨ card.tx.tdh ≠ card.tx.tdt ∨
    card.point.willRefill card.tx
  rw [hqueue] at hne
  rw [htdh, htdt]
  rcases h hne with hc | hc | hc | hc
  · exact Or.inl hc
  · exact Or.inr (Or.inl hc)
  · exact Or.inr (Or.inr (Or.inl hc))
  · exact Or.inr (Or.inr (hwill hne hc))

theorem txCovered_driver (h : TxCovered n) (hroom : roomAtDoorbell n.card .driver = true)
    {card : Card} (hcard : n.card.driver = some card) : TxCovered { n with card } := by
  cases hp : n.card.point with
  | idle => simp [Card.driver, hp] at hcard
  | rxRead cause =>
      simp only [Card.driver, hp, Option.some.injEq] at hcard
      subst hcard
      refine h.moves ⟨rfl, rfl, rfl⟩ (fun _ hwill => Or.inr ?_)
      rw [hp] at hwill
      show Point.willRefill _ (if _ then _ else _)
      split <;> exact hwill
  | rxEnqueue cause desc =>
      simp only [Card.driver, hp, Option.some.injEq] at hcard
      subst hcard
      exact h.moves ⟨rfl, rfl, rfl⟩ (fun _ hwill => Or.inr (by rw [hp] at hwill; exact hwill))
  | rxClear cause desc =>
      simp only [Card.driver, hp, Option.some.injEq] at hcard
      subst hcard
      exact h.moves ⟨rfl, rfl, rfl⟩ (fun _ hwill => Or.inr (by rw [hp] at hwill; exact hwill))
  | rxAdvance cause =>
      simp only [Card.driver, hp, Option.some.injEq] at hcard
      subst hcard
      exact h.moves ⟨rfl, rfl, rfl⟩ (fun _ hwill => Or.inr (by rw [hp] at hwill; exact hwill))
  | rxTail cause oldRx =>
      simp only [Card.driver, hp, Option.some.injEq] at hcard
      subst hcard
      exact h.moves ⟨rfl, rfl, rfl⟩ (fun _ hwill => Or.inr (by rw [hp] at hwill; exact hwill))
  | txHead cause =>
      simp only [Card.driver, hp, Option.some.injEq] at hcard
      subst hcard
      refine h.moves ⟨rfl, rfl, rfl⟩ (fun _ hwill => ?_)
      rw [hp] at hwill
      by_cases hdone : n.card.tx.tdh = n.card.tx.tdt
      · exact Or.inr ⟨hwill, hdone⟩
      · exact Or.inl hdone
  | txTail cause curTxHead =>
      simp only [Card.driver, hp, Option.some.injEq] at hcard
      subst hcard
      refine h.moves ⟨rfl, rfl, rfl⟩ (fun _ hwill => Or.inr ?_)
      rw [hp] at hwill
      have hrefill : refillPoint n.card.tx cause curTxHead n.card.tx.tdt
          = .txRefill cause curTxHead txDesc := if_pos ⟨hwill.2, hwill.1⟩
      show Point.willRefill _ (refillPoint ..)
      rw [hrefill]
      exact Nat.succ_pos 7
  | txRefill cause curTxHead left =>
      simp only [Card.driver, hp] at hcard
      split at hcard
      · rw [Option.some.injEq] at hcard
        subst hcard
        exact fun _ => Or.inr (Or.inr (Or.inr trivial))
      · rename_i hends
        rw [Option.some.injEq] at hcard
        subst hcard
        refine h.moves ⟨rfl, rfl, rfl⟩ (fun hne hwill => ?_)
        -- With passes left and a packet on the queue the loop would have gone on.
        rw [hp] at hwill
        obtain ⟨packet, rest, hqueue⟩ := List.exists_cons_of_ne_nil hne
        obtain ⟨k, rfl⟩ := Nat.exists_eq_add_of_lt hwill
        exact (hends (0 + k) packet rest rfl hqueue).elim
  | txWrite cause curTxHead left packet =>
      simp only [Card.driver, hp, Option.some.injEq] at hcard
      subst hcard
      exact fun _ => Or.inr (Or.inr (Or.inr trivial))
  | txDoorbell cause curTxHead left packet =>
      simp only [Card.driver, hp, Option.some.injEq] at hcard
      subst hcard
      simp only [roomAtDoorbell, hp, bne_iff_ne] at hroom
      exact fun _ => Or.inr (Or.inr (Or.inl hroom.symm))
  | txReclaim cause curTxHead txIndex =>
      simp only [Card.driver, hp] at hcard
      split at hcard
      · rw [Option.some.injEq] at hcard
        subst hcard
        exact h.moves ⟨rfl, rfl, rfl⟩ (fun _ hwill => by rw [hp] at hwill; cases hwill)
      · rw [Option.some.injEq] at hcard
        subst hcard
        refine h.moves ?_ (fun _ hwill => by rw [hp] at hwill; cases hwill)
        split <;> exact ⟨rfl, rfl, rfl⟩

theorem txCovered_step {a : NicAction} (hinv : TxInv n.card.tx n.card.point)
    (hrep : AsksReport n.card.tx) (h : TxCovered n)
    (hroom : a = .driver → roomAtDoorbell n.card .driver = true)
    (hstep : n.step a = some n') : TxCovered n' := by
  cases nic_step hstep with
  | transmit card hcard =>
      obtain ⟨hne, rfl⟩ := transmit_eq hcard
      intro _
      refine Or.inr (Or.inl ?_)
      rw [report_of_pending hinv hrep hne, raisesRefill_or, raisesRefill_txdw, Bool.or_true]
  | receive frame bits card hcard =>
      cases receive_eq hcard
      intro hne
      rcases h hne with hc | hc | hc
      · exact Or.inl hc
      · exact Or.inr (Or.inl (by rw [raisesRefill_or, hc, Bool.true_or]))
      · exact Or.inr (Or.inr hc)
  | raise causes =>
      intro hne
      rcases h hne with hc | hc | hc
      · exact Or.inl hc
      · exact Or.inr (Or.inl (by rw [raisesRefill_or, hc, Bool.true_or]))
      · exact Or.inr (Or.inr hc)
  | send len card hcard => exact fun _ => Or.inl (Nat.succ_pos _)
  | notify left hleft =>
      refine fun _ => Or.inr (Or.inl ?_)
      rw [raisesRefill_or, raisesRefill_notify, Bool.or_true]
  | interrupt card hcard =>
      obtain ⟨hidle, rfl⟩ := interrupt_eq hcard
      intro hne
      rcases h hne with hc | hc | hc | hc
      · exact Or.inl hc
      · refine Or.inr (Or.inr (Or.inr ?_))
        show Point.willRefill _ (if _ then _ else _)
        split <;> exact hc
      · exact Or.inr (Or.inr (Or.inl hc))
      · rw [hidle] at hc
        cases hc
  | driver card hcard => exact txCovered_driver h (hroom rfl) hcard

/-! ### Every run -/

/-- No step of the handler leaves a tail on the card's head. -/
def Nic.room (n : Nic) : NicAction → Bool
  | .driver => roomAtDoorbell n.card .driver
  | _ => true

/-- The card does nothing on its own: the handler is not running, the line is not
asserted, every sender has called `notify` and every packet in the ring was sent. -/
structure Nic.AtRest (n : Nic) : Prop where
  idle : n.card.point = .idle
  quiet : n.asserted = false
  notified : n.notifying = 0
  sent : n.card.tx.tdh = n.card.tx.tdt

instance decidableAtRest (n : Nic) : Decidable n.AtRest :=
  decidable_of_iff (n.card.point = .idle ∧ n.asserted = false ∧ n.notifying = 0 ∧
      n.card.tx.tdh = n.card.tx.tdt)
    ⟨fun h => ⟨h.1, h.2.1, h.2.2.1, h.2.2.2⟩, fun h => ⟨h.idle, h.quiet, h.notified, h.sent⟩⟩

structure ReceiveInv (id : Nat) (n : Nic) : Prop where
  imask : n.imask = enabledCauses.toRaw
  ident : n.card.id = id
  rx : RxInv n.card.rx n.card.point
  labelled : Labelled n.card
  covered : RxCovered n

structure TransmitInv (n : Nic) : Prop where
  imask : n.imask = enabledCauses.toRaw
  tx : TxInv n.card.tx n.card.point
  reports : AsksReport n.card.tx
  covered : TxCovered n

theorem ReceiveInv.init (id : Nat) : ReceiveInv id (Nic.init id) where
  imask := rfl
  ident := rfl
  rx := RxInv.init
  labelled := rfl
  covered := fun h => absurd rfl h

theorem ReceiveInv.step {id : Nat} {a : NicAction} (h : ReceiveInv id n)
    (hstep : n.step a = some n') : ReceiveInv id n' where
  imask := (nic_imask hstep).trans h.imask
  ident := nic_keeps (P := fun s => s.id = id) (fun _ _ _ hs hc => (step_id hc).trans hs) h.ident
    hstep
  rx := nic_keeps (P := fun s => RxInv s.rx s.point) (fun _ _ _ hs hc => rxInv_step hc hs) h.rx
    hstep
  labelled := by
    rcases nic_card hstep with ⟨-, heq⟩ | ⟨b, -, hcard⟩
    · rw [heq]
      exact h.labelled
    · exact labelled_step h.rx h.labelled hcard
  covered := rxCovered_step h.rx h.covered hstep

/-- What was delivered was stored. -/
theorem ReceiveInv.delivered_prefix {id : Nat} (h : ReceiveInv id n) :
    n.card.rx.delivered <+: n.card.rx.arrived.map (message id) := by
  rw [h.labelled, h.ident, ← h.rx.order, List.map_append]
  exact List.prefix_append _ _

/-- Outside the handler and with nothing raised, all that was stored was read. -/
theorem ReceiveInv.quiet {id : Nat} (h : ReceiveInv id n) (hidle : n.card.point = .idle)
    (hquiet : n.asserted = false) : n.card.rx.delivered = n.card.rx.arrived.map (message id) := by
  have hread : n.card.rx.curRx = n.card.rx.rdh := by
    by_contra hne
    rcases h.covered hne with hc | hc
    · rw [(quiet_of_not_asserted h.imask hquiet).2] at hc
      cases hc
    · rw [hidle] at hc
      cases hc
  have horder := h.rx.order
  rw [hidle] at horder
  change _ ++ between rxDesc _ n.card.rx.curRx _ = _ at horder
  rw [hread, between_self, List.append_nil] at horder
  rw [h.labelled, horder, h.ident]

theorem TransmitInv.init (id : Nat) : TransmitInv (Nic.init id) where
  imask := rfl
  tx := TxInv.init
  reports := by
    intro i hdd
    change tstaDd &&& tstaDd = 0 at hdd
    exact absurd hdd (by decide)
  covered := fun h => absurd rfl h

theorem nic_room {a : NicAction} {b : Action} (h : n.room a = true)
    (hb : a.onCard n.icr = some b) : roomAtDoorbell n.card b = true := by
  cases a with
  | driver =>
      cases hb
      exact h
  | _ => cases hb <;> rfl

theorem TransmitInv.step {a : NicAction} (h : TransmitInv n) (hroom : n.room a = true)
    (hstep : n.step a = some n') : TransmitInv n' where
  imask := (nic_imask hstep).trans h.imask
  tx := by
    rcases nic_card hstep with ⟨-, heq⟩ | ⟨b, hb, hcard⟩
    · rw [heq]
      exact h.tx
    · exact txInv_step h.tx (nic_room hroom hb) hcard
  reports := nic_keeps (P := fun s => AsksReport s.tx) (fun _ _ _ hs hc => asksReport_step hs hc)
    h.reports hstep
  covered := txCovered_step h.tx h.reports h.covered (fun ha => by rw [ha] at hroom; exact hroom)
    hstep

/-- A card at rest has sent whatever it was given. -/
theorem TransmitInv.rest (h : TransmitInv n) (hrest : n.AtRest) :
    n.card.tx.transmitted = n.card.tx.enqueued.map RawBuffer.transmission := by
  have hempty : n.card.tx.packetQueue = [] := by
    by_contra hne
    rcases h.covered hne with hc | hc | hc | hc
    · rw [hrest.notified] at hc
      cases hc
    · rw [(quiet_of_not_asserted h.imask hrest.quiet).1] at hc
      cases hc
    · exact hc hrest.sent
    · rw [hrest.idle] at hc
      cases hc
  have horder := h.tx.order
  rw [hrest.idle, ← h.tx.tail, hrest.sent, between_self] at horder
  rw [TxRing.enqueued, hempty, List.append_nil, ← horder]
  simp [Point.inHand]

/-- What was sent was given. -/
theorem TransmitInv.transmitted_prefix (h : TransmitInv n) :
    n.card.tx.transmitted <+: n.card.tx.enqueued.map RawBuffer.transmission := by
  rw [TxRing.enqueued, List.map_append, ← h.tx.order, List.append_assoc, List.append_assoc]
  exact List.prefix_append _ _

/-- The length of the packet that a step puts on the queue. -/
def NicAction.sent : NicAction → List Nat
  | .send len => [len]
  | _ => []

theorem given_nic_step {lens : List Nat} {a : NicAction} (h : Given n.card.tx lens)
    (hstep : n.step a = some n') : Given n'.card.tx (lens ++ a.sent) := by
  rcases nic_card hstep with ⟨hnone, heq⟩ | ⟨b, hb, hcard⟩
  · have hsent : a.sent = [] := by
      cases a <;> first | rfl | cases hnone
    rw [hsent, List.append_nil, heq]
    exact h
  · have hsent : a.sent = b.sent := by
      cases a <;> cases hb <;> rfl
    rw [hsent]
    exact given_step h hcard

/-- The packets put on the queue are those that the run sends. -/
theorem given_run (id : Nat) (as : List NicAction) :
    ∀ n, run Nic.step (Nic.init id) as = some n → Given n.card.tx (as.flatMap NicAction.sent) := by
  induction as using List.reverseRecOn with
  | nil =>
      intro n hrun
      rw [run_nil, Option.some.injEq] at hrun
      rw [← hrun]
      exact Given.init
  | append_singleton as a ih =>
      intro n hrun
      obtain ⟨mid, hmid, hstep⟩ := run_snoc.mp hrun
      rw [List.flatMap_append, List.flatMap_singleton]
      exact given_nic_step (ih mid hmid) hstep

/-! ### Packets from the handler -/

/-- With interrupts off a packet is two steps. -/
theorem enqueue_steps (n : Nic) (len : Nat) :
    ∃ mid, n.step (.send len) = some mid ∧ mid.step .notify = some (n.enqueue len) :=
  ⟨_, rfl, rfl⟩

/-- What one packet keeps, some packets keep. -/
theorem enqueueAll_keeps {P : Nic → Prop} (hP : ∀ n len, P n → P (n.enqueue len)) :
    ∀ (lens : List Nat) (n : Nic), P n → P (n.enqueueAll lens) := by
  intro lens
  induction lens with
  | nil => exact fun _ h => h
  | cons len rest ih => exact fun n h => ih (n.enqueue len) (hP n len h)

theorem ReceiveInv.enqueueAll {id : Nat} (h : ReceiveInv id n) (lens : List Nat) :
    ReceiveInv id (n.enqueueAll lens) := by
  refine enqueueAll_keeps ?_ lens n h
  intro n len h
  obtain ⟨mid, hsend, hnotify⟩ := enqueue_steps n len
  exact (h.step hsend).step hnotify

theorem Given.enqueueAll {n : Nic} {given : List Nat} (h : Given n.card.tx given)
    (lens : List Nat) : Given (n.enqueueAll lens).card.tx (given ++ lens) := by
  induction lens generalizing n given with
  | nil =>
      rw [List.append_nil]
      exact h
  | cons len rest ih =>
      rw [List.append_cons]
      exact ih (h.send len)

/-- The rest of the card does not notice. -/
theorem enqueueAll_same (n : Nic) (lens : List Nat) :
    (n.enqueueAll lens).card.id = n.card.id ∧ (n.enqueueAll lens).card.rx = n.card.rx ∧
      (n.enqueueAll lens).card.point = n.card.point ∧
      (n.enqueueAll lens).notifying = n.notifying :=
  enqueueAll_keeps (P := fun n' => n'.card.id = n.card.id ∧ n'.card.rx = n.card.rx ∧
    n'.card.point = n.card.point ∧ n'.notifying = n.notifying) (fun _ _ h => h) lens n
    ⟨rfl, rfl, rfl, rfl⟩

/-! ### No wake-up is lost -/

/--
**No receive wake-up is lost.**  Whenever the handler is not running and the line is not
asserted, the messages on the handler queue are the frames the card has stored, each once
and in order.
-/
theorem quiet_delivers (id : Nat) (as : List NicAction) :
    Along Nic.step (fun n => n.card.point = .idle → n.asserted = false →
      n.card.rx.delivered = n.card.rx.arrived.map (message id)) (Nic.init id) as := by
  have hinv : Along Nic.step (ReceiveInv id) (Nic.init id) as :=
    along_of_step (fun _ _ _ h hs => h.step hs) (ReceiveInv.init id) as
  exact hinv.mono (fun _ h => h.quiet)

/--
**No transmit wake-up is lost.**  As long as no tail write closes the ring, a card at rest
has sent every packet that was put on its queue, once and in order, however the senders,
the card and the handler took turns.
-/
theorem rest_sends (id : Nat) (as : List NicAction) (n : Nic)
    (hrun : run Nic.step (Nic.init id) as = some n)
    (hroom : StepsMeet Nic.step (fun n a => n.room a = true) (Nic.init id) as)
    (hrest : n.AtRest) :
    n.card.tx.transmitted
      = (boxed (as.flatMap NicAction.sent)).map RawBuffer.transmission := by
  have hinv : TransmitInv n :=
    (along_of_stepsMeet (fun _ _ _ h hr hs => h.step hr hs) (TransmitInv.init id) hroom).last hrun
  rw [hinv.rest hrest, (given_run id as n hrun).queued]

/-- Three packets: the interrupt of their senders hands them over, and the one that reports
them reclaims their boxes. -/
def threePackets : List NicAction :=
  [.send 60, .send 70, .notify, .send 42, .notify, .notify, .interrupt]
    ++ List.replicate 12 .driver ++ [.transmit, .transmit, .transmit, .interrupt]
    ++ List.replicate 7 .driver

theorem rest_sends_threePackets :
    ∃ n, run Nic.step (Nic.init 3) threePackets = some n ∧ n.AtRest ∧
      n.card.tx.transmitted
        = [⟨translateAddr 34, 60⟩, ⟨translateAddr 35, 70⟩, ⟨translateAddr 36, 42⟩] := by
  refine ⟨_, rfl, ⟨rfl, by decide, rfl, rfl⟩, ?_⟩
  exact rest_sends 3 threePackets _ rfl (by decide) ⟨rfl, by decide, rfl, rfl⟩

end Rucoonos.E1000
