/-
The transmit ring sends what it is given as long as it is never filled up.

The driver hands packets over between the card's head and its tail, and to the card
equal registers mean that there is nothing to send.  The refill loop runs up to
`TX_DESC` times on one look at the registers, so a card that stands still sees the
tail come round to its head, and the eight packets of that burst are never sent.

`sends_all_iff` says that this is the only way to lose one: a run sends every
packet, once and in order, exactly when no tail write closes the ring.
-/
import Rucoonos.Device.E1000
import Rucoonos.Lib.Ring
import Mathlib.Tactic.Common

namespace Rucoonos.E1000

open Lts Ring

variable {s s' : Card} {t : TxRing} {p : Point}

/-! ### What a step does to the transmit ring -/

/-- Points of the handler outside its transmit half. -/
def Point.beforeTx : Point → Bool
  | .txTail .. | .txRefill .. | .txWrite .. | .txDoorbell .. | .txReclaim .. => false
  | _ => true

/-- Everything a step can do to the transmit ring and to the handler's transmit half. -/
inductive TxStep (s s' : Card) : Action → Prop
  | transmit (hne : s.tx.tdh ≠ s.tx.tdt) (htx : s'.tx = s.tx.transmit)
      (hpoint : s'.point = s.point) : TxStep s s' .transmit
  | send (len : Nat) (htx : s'.tx = s.tx.send len) (hpoint : s'.point = s.point) :
      TxStep s s' (.send len)
  | receive (frame : Bytes) (bits : UInt8) (htx : s'.tx = s.tx) (hpoint : s'.point = s.point) :
      TxStep s s' (.receive frame bits)
  | before (a : Action) (htx : s'.tx = s.tx) (hat : s.point.beforeTx = true)
      (hpoint : s'.point.beforeTx = true) : TxStep s s' a
  | readHead (cause : InterruptCauseRegister) (hat : s.point = .txHead cause)
      (htx : s'.tx = s.tx) (hpoint : s'.point = .txTail cause s.tx.tdh) : TxStep s s' .driver
  | readTail (cause : InterruptCauseRegister) (curTxHead : Nat)
      (hat : s.point = .txTail cause curTxHead) (htx : s'.tx = s.tx)
      (hpoint : s'.point = refillPoint s.tx cause curTxHead s.tx.tdt) : TxStep s s' .driver
  | dequeue (cause : InterruptCauseRegister) (curTxHead left : Nat) (packet : RawBuffer)
      (rest : List RawBuffer) (hat : s.point = .txRefill cause curTxHead (left + 1))
      (hqueue : s.tx.packetQueue = packet :: rest)
      (htx : s'.tx = { s.tx with
        packetQueue := rest, dequeued := s.tx.dequeued ++ [packet] })
      (hpoint : s'.point = .txWrite cause curTxHead left packet) : TxStep s s' .driver
  | refilled (cause : InterruptCauseRegister) (curTxHead left : Nat)
      (hat : s.point = .txRefill cause curTxHead left) (htx : s'.tx = s.tx)
      (hpoint : s'.point = reclaimPoint s.tx cause curTxHead) : TxStep s s' .driver
  | fill (cause : InterruptCauseRegister) (curTxHead left : Nat) (packet : RawBuffer)
      (hat : s.point = .txWrite cause curTxHead left packet) (htx : s'.tx = s.tx.fillDesc packet)
      (hpoint : s'.point = .txDoorbell cause curTxHead left packet) : TxStep s s' .driver
  | doorbell (cause : InterruptCauseRegister) (curTxHead left : Nat) (packet : RawBuffer)
      (hat : s.point = .txDoorbell cause curTxHead left packet)
      (htx : s'.tx = s.tx.ringDoorbell)
      (hpoint : s'.point = .txRefill cause curTxHead left) : TxStep s s' .driver
  | reclaim (cause : InterruptCauseRegister) (curTxHead txIndex : Nat)
      (hat : s.point = .txReclaim cause curTxHead txIndex) (hne : txIndex ≠ curTxHead)
      (hstatus : (s.tx.descs txIndex).status = 1) (htx : s'.tx = s.tx.reclaim txIndex)
      (hpoint : s'.point = .txReclaim cause curTxHead ((txIndex + 1) % 8)) : TxStep s s' .driver
  | skip (cause : InterruptCauseRegister) (curTxHead txIndex : Nat)
      (hat : s.point = .txReclaim cause curTxHead txIndex) (hne : txIndex ≠ curTxHead)
      (hstatus : (s.tx.descs txIndex).status ≠ 1) (htx : s'.tx = s.tx)
      (hpoint : s'.point = .txReclaim cause curTxHead ((txIndex + 1) % 8)) : TxStep s s' .driver
  | finish (cause : InterruptCauseRegister) (curTxHead : Nat)
      (hat : s.point = .txReclaim cause curTxHead curTxHead) (htx : s'.tx = s.tx)
      (hpoint : s'.point = .idle) : TxStep s s' .driver

theorem driver_tx (h : s.driver = some s') : TxStep s s' .driver := by
  unfold Card.driver at h
  split at h
  · cases h
  · rename_i cause hat
    rw [Option.some.injEq] at h
    subst h
    refine TxStep.before _ rfl (by rw [hat]; rfl) ?_
    show (if _ then _ else _ : Point).beforeTx = true
    split <;> rfl
  · rename_i cause desc hat
    rw [Option.some.injEq] at h
    subst h
    exact TxStep.before _ rfl (by rw [hat]; rfl) rfl
  · rename_i cause desc hat
    rw [Option.some.injEq] at h
    subst h
    exact TxStep.before _ rfl (by rw [hat]; rfl) rfl
  · rename_i cause hat
    rw [Option.some.injEq] at h
    subst h
    exact TxStep.before _ rfl (by rw [hat]; rfl) rfl
  · rename_i cause oldRx hat
    rw [Option.some.injEq] at h
    subst h
    exact TxStep.before _ rfl (by rw [hat]; rfl) rfl
  · rename_i cause hat
    rw [Option.some.injEq] at h
    subst h
    exact TxStep.readHead cause hat rfl rfl
  · rename_i cause curTxHead hat
    rw [Option.some.injEq] at h
    subst h
    exact TxStep.readTail cause curTxHead hat rfl rfl
  · rename_i cause curTxHead left hat
    split at h
    · rename_i left packet rest hqueue
      rw [Option.some.injEq] at h
      subst h
      exact TxStep.dequeue cause curTxHead left packet rest hat hqueue rfl rfl
    · rw [Option.some.injEq] at h
      subst h
      exact TxStep.refilled cause curTxHead _ hat rfl rfl
  · rename_i cause curTxHead left packet hat
    rw [Option.some.injEq] at h
    subst h
    exact TxStep.fill cause curTxHead left packet hat rfl rfl
  · rename_i cause curTxHead left packet hat
    rw [Option.some.injEq] at h
    subst h
    exact TxStep.doorbell cause curTxHead left packet hat rfl rfl
  · rename_i cause curTxHead txIndex hat
    by_cases hend : txIndex = curTxHead
    · rw [if_pos hend, Option.some.injEq] at h
      subst h hend
      exact TxStep.finish cause txIndex hat rfl rfl
    · rw [if_neg hend, Option.some.injEq] at h
      subst h
      by_cases hstatus : (s.tx.descs txIndex).status = 1
      · refine TxStep.reclaim cause curTxHead txIndex hat hend hstatus ?_ rfl
        simp [hstatus]
      · refine TxStep.skip cause curTxHead txIndex hat hend hstatus ?_ rfl
        simp [hstatus]

theorem step_tx {a : Action} (h : step s a = some s') : TxStep s s' a := by
  cases a with
  | transmit =>
      simp only [step] at h
      split at h
      · cases h
      · rename_i hne
        rw [Option.some.injEq] at h
        subst h
        exact TxStep.transmit hne rfl rfl
  | receive frame bits =>
      simp only [step] at h
      split at h
      · cases h
      · rw [Option.some.injEq] at h
        subst h
        exact TxStep.receive frame bits rfl rfl
  | send len =>
      simp only [step, Option.some.injEq] at h
      subst h
      exact TxStep.send len rfl rfl
  | interrupt raw =>
      simp only [step, Card.interrupt] at h
      split at h
      · rename_i hat
        rw [Option.some.injEq] at h
        subst h
        refine TxStep.before _ rfl (by rw [hat]; rfl) ?_
        show (if _ then _ else _ : Point).beforeTx = true
        split <;> rfl
      · cases h
  | driver => exact driver_tx h

/-! ### The invariant -/

/-- The packet that was dequeued and is not between head and tail yet. -/
def Point.inHand : Point → List Transmission
  | .txWrite _ _ _ packet | .txDoorbell _ _ _ packet => [packet.transmission]
  | _ => []

/-- The descriptor at `cur_tx` is filled, and the tail not yet moved past it. -/
def Point.written : Point → Bool
  | .txDoorbell .. => true
  | _ => false

/-- What the card would send from a slot. -/
def TxRing.slot (t : TxRing) (i : Nat) : Transmission := (t.descs i).transmission

/-- What holds of the transmit ring as long as it was never filled up. -/
structure TxInv (t : TxRing) (p : Point) : Prop where
  tdh_lt : t.tdh < txDesc
  cur_lt : t.curTx < txDesc
  tail : t.tdt = t.curTx
  /-- The DD bit is clear in the slots of the range, and in the one just written. -/
  pending : ∀ i, i < txDesc → ((t.descs i).status &&& tstaDd = 0 ↔
    dist txDesc t.tdh i < dist txDesc t.tdh t.curTx ∨ (p.written = true ∧ i = t.curTx))
  ready : p.written = true → p.inHand = [t.slot t.curTx]
  kept : t.overwritten = []
  order : t.transmitted ++ between txDesc t.slot t.tdh t.curTx ++ p.inHand
    = t.dequeued.map RawBuffer.transmission

theorem TxInv.init : TxInv TxRing.init .idle where
  tdh_lt := by decide
  cur_lt := by decide
  tail := rfl
  pending := by
    intro i _
    show tstaDd &&& tstaDd = 0 ↔ dist txDesc 0 i < dist txDesc 0 0 ∨ (false = true ∧ _)
    simp [tstaDd]
  ready := by intro h; cases h
  kept := rfl
  order := rfl

/-- A step that leaves the ring as it is, with nothing in hand before or after. -/
theorem TxInv.idle {t' : TxRing} {q : Point} (h : TxInv t p)
    (htx : t'.tdh = t.tdh ∧ t'.tdt = t.tdt ∧ t'.curTx = t.curTx ∧ t'.descs = t.descs ∧
      t'.overwritten = t.overwritten ∧ t'.transmitted = t.transmitted ∧ t'.dequeued = t.dequeued)
    (hw : q.written = p.written) (hq : q.inHand = p.inHand) : TxInv t' q := by
  obtain ⟨htdh, htdt, hcur, hdescs, hover, hsent, hdeq⟩ := htx
  have hslot : t'.slot = t.slot := by
    unfold TxRing.slot
    rw [hdescs]
  constructor
  · rw [htdh]; exact h.tdh_lt
  · rw [hcur]; exact h.cur_lt
  · rw [htdt, hcur]; exact h.tail
  · rw [hdescs, htdh, hcur, hw]; exact h.pending
  · rw [hw, hq, hslot, hcur]; exact h.ready
  · rw [hover]; exact h.kept
  · rw [hsent, hslot, htdh, hcur, hq, hdeq]; exact h.order

theorem TxInv.transmit (h : TxInv t p) (hne : t.tdh ≠ t.tdt) : TxInv t.transmit p := by
  rw [h.tail] at hne
  have hslot : ∀ i, t.transmit.slot i = t.slot i := by
    intro i
    show (Function.update t.descs t.tdh _ i).transmission = (t.descs i).transmission
    by_cases hi : i = t.tdh
    · subst hi
      rw [Function.update_self]
      rfl
    · rw [Function.update_of_ne hi]
  constructor
  · exact succ_mod_lt h.tdh_lt
  · exact h.cur_lt
  · exact h.tail
  · intro i hi
    show (Function.update t.descs t.tdh _ i).status &&& tstaDd = 0 ↔
      dist txDesc ((t.tdh + 1) % txDesc) i < dist txDesc ((t.tdh + 1) % txDesc) t.curTx
        ∨ (p.written = true ∧ i = t.curTx)
    rw [lt_dist_succ_left h.tdh_lt hi h.cur_lt hne]
    by_cases hit : i = t.tdh
    · subst hit
      have hdd : ((t.descs t.tdh).status ||| tstaDd) &&& tstaDd = 1 := or_one_and_one _
      simp only [Function.update_self, hdd]
      simp [hne]
    · rw [Function.update_of_ne hit, h.pending i hi]
      simp [hit]
  · rw [hslot]
    exact h.ready
  · exact h.kept
  · rw [funext hslot]
    show t.transmitted ++ [t.slot t.tdh] ++ between txDesc t.slot ((t.tdh + 1) % txDesc) t.curTx
      ++ p.inHand = t.dequeued.map RawBuffer.transmission
    rw [← h.order, between_pop t.slot h.tdh_lt h.cur_lt hne]
    simp

theorem TxInv.dequeue {cause : InterruptCauseRegister} {curTxHead left : Nat}
    (h : TxInv t (.txRefill cause curTxHead (left + 1))) (packet : RawBuffer)
    (rest : List RawBuffer) :
    TxInv { t with packetQueue := rest, dequeued := t.dequeued ++ [packet] }
      (.txWrite cause curTxHead left packet) where
  tdh_lt := h.tdh_lt
  cur_lt := h.cur_lt
  tail := h.tail
  pending := h.pending
  ready := by intro hc; cases hc
  kept := h.kept
  order := by
    have horder := h.order
    change _ ++ [] = _ at horder
    rw [List.append_nil] at horder
    rw [List.map_append, ← horder]
    rfl

/-- The slot at the tail is not one the card still has to send. -/
theorem TxInv.fill {cause : InterruptCauseRegister} {curTxHead left : Nat} {packet : RawBuffer}
    (h : TxInv t (.txWrite cause curTxHead left packet)) :
    TxInv (t.fillDesc packet) (.txDoorbell cause curTxHead left packet) where
  tdh_lt := h.tdh_lt
  cur_lt := h.cur_lt
  tail := h.tail
  pending := by
    intro i hi
    show (Function.update t.descs t.curTx (filledDesc packet) i).status &&& tstaDd = 0 ↔
      dist txDesc t.tdh i < dist txDesc t.tdh t.curTx ∨ (true = true ∧ i = t.curTx)
    by_cases hic : i = t.curTx
    · subst hic
      rw [Function.update_self]
      simp [filledDesc]
    · rw [Function.update_of_ne hic, h.pending i hi]
      simp [hic, Point.written]
  ready := by
    intro _
    show [packet.transmission]
      = [(Function.update t.descs t.curTx (filledDesc packet) t.curTx).transmission]
    rw [Function.update_self]
    rfl
  kept := by
    have hsent : ¬ (t.descs t.curTx).status &&& tstaDd = 0 := by
      rw [h.pending t.curTx h.cur_lt]
      simp [Point.written]
    show (if (t.descs t.curTx).status &&& tstaDd = 0 then _ else t.overwritten) = []
    rw [if_neg hsent]
    exact h.kept
  order := by
    have hslot : (t.fillDesc packet).slot
        = Function.update t.slot t.curTx packet.transmission := by
      funext i
      show (Function.update t.descs t.curTx (filledDesc packet) i).transmission = _
      by_cases hic : i = t.curTx
      · subst hic
        rw [Function.update_self, Function.update_self]
        rfl
      · rw [Function.update_of_ne hic, Function.update_of_ne hic]
        rfl
    rw [hslot]
    show t.transmitted ++ between txDesc (Function.update t.slot t.curTx _) t.tdh t.curTx ++ _ = _
    rw [between_update_tail _ h.tdh_lt h.cur_lt]
    exact h.order

theorem TxInv.doorbell {cause : InterruptCauseRegister} {curTxHead left : Nat}
    {packet : RawBuffer} (h : TxInv t (.txDoorbell cause curTxHead left packet))
    (hroom : (t.curTx + 1) % txDesc ≠ t.tdh) :
    TxInv t.ringDoorbell (.txRefill cause curTxHead left) where
  tdh_lt := h.tdh_lt
  cur_lt := succ_mod_lt h.cur_lt
  tail := rfl
  pending := by
    intro i hi
    show (t.descs i).status &&& tstaDd = 0 ↔
      dist txDesc t.tdh i < dist txDesc t.tdh ((t.curTx + 1) % txDesc) ∨ (false = true ∧ _)
    rw [lt_dist_succ_right h.tdh_lt hi h.cur_lt hroom, h.pending i hi]
    simp [Point.written]
  ready := by intro hc; cases hc
  kept := h.kept
  order := by
    show t.transmitted ++ between txDesc t.slot t.tdh ((t.curTx + 1) % txDesc) ++ [] = _
    rw [between_push t.slot h.tdh_lt h.cur_lt hroom, List.append_nil, ← List.append_assoc,
      ← h.ready rfl]
    exact h.order

/-! ### Every run -/

/-- The transmit side as the packet queue sees it: no descriptor was filled again before
its packet was sent, and the packets sent, then those between head and tail, then the
one `enqueue_packet` is at work on, are the packets dequeued. -/
structure SendsAll (s : Card) : Prop where
  kept : s.tx.overwritten = []
  order : s.tx.transmitted ++ between 8 s.tx.slot s.tx.tdh s.tx.tdt ++ s.point.inHand
    = s.tx.dequeued.map RawBuffer.transmission

/-- A tail write leaves the tail off the card's head. -/
def roomAtDoorbell (s : Card) : Action → Bool
  | .driver =>
      match s.point with
      | .txDoorbell .. => (s.tx.curTx + 1) % 8 != s.tx.tdh
      | _ => true
  | _ => true

theorem Point.beforeTx_inHand (h : p.beforeTx = true) : p.written = false ∧ p.inHand = [] := by
  cases p <;> first | exact ⟨rfl, rfl⟩ | cases h

theorem reclaimPoint_inHand (t : TxRing) (cause : InterruptCauseRegister) (curTxHead : Nat) :
    (reclaimPoint t cause curTxHead).written = false ∧
      (reclaimPoint t cause curTxHead).inHand = [] := by
  unfold reclaimPoint
  split <;> exact ⟨rfl, rfl⟩

theorem refillPoint_inHand (t : TxRing) (cause : InterruptCauseRegister)
    (curTxHead curTxTail : Nat) :
    (refillPoint t cause curTxHead curTxTail).written = false ∧
      (refillPoint t cause curTxHead curTxTail).inHand = [] := by
  unfold refillPoint
  split
  · exact ⟨rfl, rfl⟩
  · exact reclaimPoint_inHand t cause curTxHead

theorem TxInv.sendsAll (h : TxInv s.tx s.point) : SendsAll s where
  kept := h.kept
  order := by
    rw [h.tail]
    exact h.order

theorem txInv_step {a : Action} (h : TxInv s.tx s.point) (hroom : roomAtDoorbell s a = true)
    (hstep : step s a = some s') : TxInv s'.tx s'.point := by
  cases step_tx hstep with
  | transmit hne htx hpoint =>
      rw [htx, hpoint]
      exact h.transmit hne
  | send len htx hpoint =>
      rw [htx, hpoint]
      exact h.idle ⟨rfl, rfl, rfl, rfl, rfl, rfl, rfl⟩ rfl rfl
  | receive frame bits htx hpoint =>
      rw [htx, hpoint]
      exact h
  | before a htx hat hpoint =>
      have hp := Point.beforeTx_inHand hat
      have hq := Point.beforeTx_inHand hpoint
      rw [htx]
      exact h.idle ⟨rfl, rfl, rfl, rfl, rfl, rfl, rfl⟩ (by rw [hp.1, hq.1]) (by rw [hp.2, hq.2])
  | readHead cause hat htx hpoint =>
      rw [htx, hpoint]
      rw [hat] at h
      exact h.idle ⟨rfl, rfl, rfl, rfl, rfl, rfl, rfl⟩ rfl rfl
  | readTail cause curTxHead hat htx hpoint =>
      have hq := refillPoint_inHand s.tx cause curTxHead s.tx.tdt
      rw [htx, hpoint]
      rw [hat] at h
      exact h.idle ⟨rfl, rfl, rfl, rfl, rfl, rfl, rfl⟩ hq.1 hq.2
  | dequeue cause curTxHead left packet rest hat hqueue htx hpoint =>
      rw [htx, hpoint]
      rw [hat] at h
      exact h.dequeue packet rest
  | refilled cause curTxHead left hat htx hpoint =>
      have hq := reclaimPoint_inHand s.tx cause curTxHead
      rw [htx, hpoint]
      rw [hat] at h
      exact h.idle ⟨rfl, rfl, rfl, rfl, rfl, rfl, rfl⟩ hq.1 hq.2
  | fill cause curTxHead left packet hat htx hpoint =>
      rw [htx, hpoint]
      rw [hat] at h
      exact h.fill
  | doorbell cause curTxHead left packet hat htx hpoint =>
      rw [htx, hpoint]
      rw [hat] at h
      refine h.doorbell ?_
      simpa [roomAtDoorbell, hat, txDesc] using hroom
  | reclaim cause curTxHead txIndex hat hne hstatus htx hpoint =>
      rw [htx, hpoint]
      rw [hat] at h
      exact h.idle ⟨rfl, rfl, rfl, rfl, rfl, rfl, rfl⟩ rfl rfl
  | skip cause curTxHead txIndex hat hne hstatus htx hpoint =>
      rw [htx, hpoint]
      rw [hat] at h
      exact h.idle ⟨rfl, rfl, rfl, rfl, rfl, rfl, rfl⟩ rfl rfl
  | finish cause curTxHead hat htx hpoint =>
      rw [htx, hpoint]
      rw [hat] at h
      exact h.idle ⟨rfl, rfl, rfl, rfl, rfl, rfl, rfl⟩ rfl rfl

/-- A tail write that closes the ring empties the range: at least the packet just written
is lost. -/
theorem not_sendsAll_of_closed {a : Action} (h : TxInv s.tx s.point)
    (hroom : ¬ roomAtDoorbell s a = true) (hstep : step s a = some s') : ¬ SendsAll s' := by
  unfold roomAtDoorbell at hroom
  split at hroom
  · split at hroom
    · rename_i cause curTxHead left packet hat
      have hclosed : (s.tx.curTx + 1) % 8 = s.tx.tdh := by simpa using hroom
      simp only [step, Card.driver, hat, Option.some.injEq] at hstep
      subst hstep
      intro hall
      have hafter := hall.order
      change s.tx.transmitted ++ between 8 s.tx.slot s.tx.tdh ((s.tx.curTx + 1) % 8) ++ []
        = s.tx.dequeued.map RawBuffer.transmission at hafter
      have hbefore := h.order
      rw [hat] at hbefore
      rw [hclosed, between_self, List.append_nil, List.append_nil, ← hbefore] at hafter
      have hlen := congrArg List.length hafter
      simp [Point.inHand] at hlen
    · exact absurd rfl hroom
  · exact absurd rfl hroom

/--
**A run sends every packet it dequeues, once and in order, exactly when no tail write
closes the ring.**
-/
theorem sends_all_iff (id : Nat) (as : List Action) :
    Along step SendsAll (init id) as ↔
      StepsMeet step (fun s a => roomAtDoorbell s a = true) (init id) as :=
  along_iff_stepsMeet (fun _ _ _ h hroom hstep => txInv_step h hroom hstep)
    (fun _ h => h.sendsAll)
    (fun _ _ _ h hroom hstep => not_sendsAll_of_closed h hroom hstep) TxInv.init

/-- Eight packets are queued before the first interrupt, and the card does not get to
send during the burst. -/
def fullBurst : List Action :=
  List.replicate 8 (.send 60) ++ .interrupt ((1 : UInt32) <<< 15) :: List.replicate 26 .driver

/-- The eight packets are off the queue and none of them will be sent: nothing has been,
and the card's head meets its tail. -/
theorem fullBurst_lost : ∃ s, run step (init 0) fullBurst = some s ∧
    s.tx.dequeued.length = 8 ∧ s.tx.transmitted = [] ∧ s.tx.tdh = s.tx.tdt ∧ ¬ SendsAll s := by
  refine ⟨_, rfl, rfl, rfl, rfl, ?_⟩
  intro hall
  have hlen := congrArg List.length hall.order
  revert hlen
  decide

end Rucoonos.E1000
