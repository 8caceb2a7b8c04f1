/-
The receive ring delivers every frame once, whole and in order.

Of the 32 slots the card may fill those from its head up to the tail, and the driver
looks at `cur_rx` only.  The tail is kept one slot behind `cur_rx`, so the card can
never come round to a slot that has not been copied, and the ranges from `cur_rx` to
the head and from the head to the tail never meet the other way.

Inside one pass of the loop the slot at `cur_rx` changes hands in two steps: it is
copied first, and its DD bit is cleared next, both before `cur_rx` moves.  `nextRx`
is the first slot not copied and `nextDd` the first whose bit is set; `RxInv` says
that the filled range starts at these and ends at the head.
-/
import Rucoonos.Device.E1000
import Rucoonos.Lib.Ring
import Mathlib.Tactic.Common

namespace Rucoonos.E1000

open Lts Ring

variable {s s' : Card} {r : RxRing} {p : Point}

/-! ### What a step does to the receive ring -/

/-- Points of the handler outside a pass of the receive loop. -/
def Point.betweenPasses : Point → Bool
  | .rxEnqueue .. | .rxClear .. | .rxAdvance .. | .rxTail .. => false
  | _ => true

/-- Everything a step can do to the receive ring and to the pass over it. -/
inductive RxStep (s s' : Card) : Prop
  | receive (frame : Bytes) (bits : UInt8) (hne : s.rx.rdh ≠ s.rx.rdt)
      (hlen : frame.length ≤ 2048) (hrx : s'.rx = s.rx.receive frame bits)
      (hpoint : s'.point = s.point)
  | found (cause : InterruptCauseRegister) (hat : s.point = .rxRead cause)
      (hdd : (s.rx.descs s.rx.curRx).status &&& 0b01 ≠ 0) (hrx : s'.rx = s.rx)
      (hpoint : s'.point = .rxEnqueue cause (s.rx.descs s.rx.curRx))
  | enqueue (cause : InterruptCauseRegister) (desc : RxDesc)
      (hat : s.point = .rxEnqueue cause desc) (hrx : s'.rx = s.rx.enqueue s.id desc)
      (hpoint : s'.point = .rxClear cause desc)
  | clear (cause : InterruptCauseRegister) (desc : RxDesc)
      (hat : s.point = .rxClear cause desc) (hrx : s'.rx = s.rx.clearStatus desc)
      (hpoint : s'.point = .rxAdvance cause)
  | advance (cause : InterruptCauseRegister) (hat : s.point = .rxAdvance cause)
      (hrx : s'.rx = { s.rx with curRx := (s.rx.curRx + 1) % rxDesc })
      (hpoint : s'.point = .rxTail cause s.rx.curRx)
  | tail (cause : InterruptCauseRegister) (oldRx : Nat) (hat : s.point = .rxTail cause oldRx)
      (hrx : s'.rx = { s.rx with rdt := oldRx }) (hpoint : s'.point = .rxRead cause)
  | frame (hrx : s'.rx = s.rx) (hpoint : s'.point = s.point)
  | outside (hrx : s'.rx = s.rx) (hat : s.point.betweenPasses = true)
      (hpoint : s'.point.betweenPasses = true)

theorem reclaimPoint_between (t : TxRing) (cause : InterruptCauseRegister) (curTxHead : Nat) :
    (reclaimPoint t cause curTxHead).betweenPasses = true := by
  unfold reclaimPoint
  split <;> rfl

theorem refillPoint_between (t : TxRing) (cause : InterruptCauseRegister)
    (curTxHead curTxTail : Nat) :
    (refillPoint t cause curTxHead curTxTail).betweenPasses = true := by
  unfold refillPoint
  split
  · rfl
  · exact reclaimPoint_between t cause curTxHead

theorem driver_rx (h : s.driver = some s') : RxStep s s' := by
  unfold Card.driver at h
  split at h
  · cases h
  · rename_i cause hat
    rw [Option.some.injEq] at h
    subst h
    by_cases hdd : (s.rx.descs s.rx.curRx).status &&& 0b01 = 0
    · refine RxStep.outside rfl (by rw [hat]; rfl) ?_
      simp only [hdd, if_true]
      rfl
    · refine RxStep.found cause hat hdd rfl ?_
      simp only [hdd, if_false]
  · rename_i cause desc hat
    rw [Option.some.injEq] at h
    subst h
    exact RxStep.enqueue cause desc hat rfl rfl
  · rename_i cause desc hat
    rw [Option.some.injEq] at h
    subst h
    exact RxStep.clear cause desc hat rfl rfl
  · rename_i cause hat
    rw [Option.some.injEq] at h
    subst h
    exact RxStep.advance cause hat rfl rfl
  · rename_i cause oldRx hat
    rw [Option.some.injEq] at h
    subst h
    exact RxStep.tail cause oldRx hat rfl rfl
  · rename_i cause hat
    rw [Option.some.injEq] at h
    subst h
    exact RxStep.outside rfl (by rw [hat]; rfl) rfl
  · rename_i cause curTxHead hat
    rw [Option.some.injEq] at h
    subst h
    exact RxStep.outside rfl (by rw [hat]; rfl) (refillPoint_between ..)
  · rename_i cause curTxHead left hat
    split at h
    · rw [Option.some.injEq] at h
      subst h
      exact RxStep.outside rfl (by rw [hat]; rfl) rfl
    · rw [Option.some.injEq] at h
      subst h
      exact RxStep.outside rfl (by rw [hat]; rfl) (reclaimPoint_between ..)
  · rename_i cause curTxHead left packet hat
    rw [Option.some.injEq] at h
    subst h
    exact RxStep.outside rfl (by rw [hat]; rfl) rfl
  · rename_i cause curTxHead left packet hat
    rw [Option.some.injEq] at h
    subst h
    exact RxStep.outside rfl (by rw [hat]; rfl) rfl
  · rename_i cause curTxHead txIndex hat
    split at h
    · rw [Option.some.injEq] at h
      subst h
      exact RxStep.outside rfl (by rw [hat]; rfl) rfl
    · rw [Option.some.injEq] at h
      subst h
      exact RxStep.outside rfl (by rw [hat]; rfl) rfl

theorem step_rx {a : Action} (h : step s a = some s') : RxStep s s' := by
  cases a with
  | transmit =>
      simp only [step] at h
      split at h
      · cases h
      · rw [Option.some.injEq] at h
        subst h
        exact RxStep.frame rfl rfl
  | receive frame bits =>
      simp only [step] at h
      split at h
      · cases h
      · rename_i hno
        rw [Option.some.injEq] at h
        subst h
        rw [not_or] at hno
        exact RxStep.receive frame bits hno.1 (Nat.le_of_not_lt hno.2) rfl rfl
  | send len =>
      simp only [step, Option.some.injEq] at h
      subst h
      exact RxStep.frame rfl rfl
  | interrupt raw =>
      simp only [step, Card.interrupt] at h
      split at h
      · rename_i hat
        rw [Option.some.injEq] at h
        subst h
        refine RxStep.outside rfl (by rw [hat]; rfl) ?_
        show (if _ then _ else _ : Point).betweenPasses = true
        split <;> rfl
      · cases h
  | driver => exact driver_rx h

/-! ### The invariant -/

/-- The first slot whose frame has not been copied. -/
def nextRx (r : RxRing) : Point → Nat
  | .rxClear .. | .rxAdvance .. => (r.curRx + 1) % rxDesc
  | _ => r.curRx

/-- The first slot whose DD bit has not been cleared. -/
def nextDd (r : RxRing) : Point → Nat
  | .rxAdvance .. => (r.curRx + 1) % rxDesc
  | _ => r.curRx

/-- The slot the tail stands behind. -/
def tailLimit (r : RxRing) : Point → Nat
  | .rxTail _ oldRx => oldRx
  | _ => r.curRx

/-- The frame in a slot: as many bytes of its buffer as the descriptor says. -/
def RxRing.frame (r : RxRing) (i : Nat) : Bytes :=
  (r.mem (r.rxBuffers i)).take (r.descs i).length.toNat

/-- What holds of the receive ring at every point of the handler. -/
structure RxInv (r : RxRing) (p : Point) : Prop where
  cur_lt : r.curRx < rxDesc
  rdh_lt : r.rdh < rxDesc
  rdt_lt : r.rdt < rxDesc
  limit_lt : tailLimit r p < rxDesc
  tail : (r.rdt + 1) % rxDesc = tailLimit r p
  /-- Inside a pass the card has gone past the slot that is being read. -/
  busy : p.betweenPasses = false → r.rdh ≠ tailLimit r p
  old : ∀ cause oldRx, p = .rxTail cause oldRx → (oldRx + 1) % rxDesc = r.curRx
  read : ∀ cause desc, p = .rxEnqueue cause desc ∨ p = .rxClear cause desc →
    desc = r.descs r.curRx
  addr : ∀ i, i < rxDesc → (r.descs i).addr = translateAddr (r.rxBuffers i)
  apart : ∀ i j, i < rxDesc → j < rxDesc → r.rxBuffers i = r.rxBuffers j → i = j
  done : ∀ i, i < rxDesc →
    ((r.descs i).status &&& 0b01 ≠ 0 ↔
      dist rxDesc (nextDd r p) i < dist rxDesc (nextDd r p) r.rdh)
  filled : ∀ i, i < rxDesc →
    (r.uncopied i = true ↔ dist rxDesc (nextRx r p) i < dist rxDesc (nextRx r p) r.rdh)
  kept : r.clobbered = []
  fits : ∀ f ∈ r.arrived, f.length ≤ 2048
  order : r.delivered.map RawPacket.frame ++ between rxDesc r.frame (nextRx r p) r.rdh
    = r.arrived

theorem nextRx_between (h : p.betweenPasses = true) : nextRx r p = r.curRx := by
  cases p <;> first | rfl | cases h

theorem nextDd_between (h : p.betweenPasses = true) : nextDd r p = r.curRx := by
  cases p <;> first | rfl | cases h

theorem tailLimit_between (h : p.betweenPasses = true) : tailLimit r p = r.curRx := by
  cases p <;> first | rfl | cases h

/-- Between passes it does not matter where the handler is. -/
theorem RxInv.outside {q : Point} (h : RxInv r p) (hp : p.betweenPasses = true)
    (hq : q.betweenPasses = true) : RxInv r q where
  cur_lt := h.cur_lt
  rdh_lt := h.rdh_lt
  rdt_lt := h.rdt_lt
  limit_lt := by rw [tailLimit_between hq]; exact h.cur_lt
  tail := by rw [tailLimit_between hq, ← tailLimit_between hp]; exact h.tail
  busy := by intro hb; rw [hq] at hb; cases hb
  old := by intro _ _ hc; rw [hc] at hq; cases hq
  read := by rintro _ _ (hc | hc) <;> · rw [hc] at hq; cases hq
  addr := h.addr
  apart := h.apart
  done := by rw [nextDd_between hq, ← nextDd_between hp]; exact h.done
  filled := by rw [nextRx_between hq, ← nextRx_between hp]; exact h.filled
  kept := h.kept
  fits := h.fits
  order := by rw [nextRx_between hq, ← nextRx_between hp]; exact h.order

theorem RxInv.init : RxInv RxRing.init .idle where
  cur_lt := by decide
  rdh_lt := by decide
  rdt_lt := by decide
  limit_lt := by decide
  tail := by decide
  busy := by intro h; cases h
  old := by intro _ _ h; cases h
  read := by rintro _ _ (h | h) <;> cases h
  addr := fun _ _ => rfl
  apart := fun i j _ _ h => Nat.succ.inj h
  done := by
    intro i _
    show (0 : UInt8) &&& 0b01 ≠ 0 ↔ dist rxDesc 0 i < dist rxDesc 0 0
    simp
  filled := by
    intro i _
    show false = true ↔ dist rxDesc 0 i < dist rxDesc 0 0
    simp
  kept := rfl
  fits := by intro f hf; cases hf
  order := rfl

/-! ### The card stores a frame -/

/-- A range of filled slots starts at the slot the tail stands behind or, inside a pass,
at the one after it. -/
theorem next_cases (h : RxInv r p) :
    ∀ b, b = nextRx r p ∨ b = nextDd r p →
      b = tailLimit r p ∨ (p.betweenPasses = false ∧ b = (tailLimit r p + 1) % rxDesc) := by
  intro b hb
  cases p with
  | rxTail cause oldRx =>
      have hcur := h.old cause oldRx rfl
      refine Or.inr ⟨rfl, ?_⟩
      rcases hb with rfl | rfl
      · exact hcur.symm
      · exact hcur.symm
  | rxClear cause desc =>
      rcases hb with rfl | rfl
      · exact Or.inr ⟨rfl, rfl⟩
      · exact Or.inl rfl
  | rxAdvance cause =>
      rcases hb with rfl | rfl
      · exact Or.inr ⟨rfl, rfl⟩
      · exact Or.inr ⟨rfl, rfl⟩
  | _ =>
      rcases hb with rfl | rfl
      · exact Or.inl rfl
      · exact Or.inl rfl

/-- A card that may store does not come round to a filled slot. -/
theorem RxInv.room (h : RxInv r p) (hne : r.rdh ≠ r.rdt) {b : Nat}
    (hb : b = nextRx r p ∨ b = nextDd r p) : (r.rdh + 1) % rxDesc ≠ b := by
  rcases next_cases h b hb with rfl | ⟨hin, rfl⟩
  · rw [← h.tail]
    exact succ_mod_inj h.rdh_lt h.rdt_lt hne
  · exact succ_mod_inj h.rdh_lt h.limit_lt (h.busy hin)

theorem RxInv.nextRx_lt (h : RxInv r p) : nextRx r p < rxDesc := by
  rcases next_cases h _ (Or.inl rfl) with hb | ⟨-, hb⟩ <;> rw [hb]
  · exact h.limit_lt
  · exact succ_mod_lt h.limit_lt

theorem RxInv.nextDd_lt (h : RxInv r p) : nextDd r p < rxDesc := by
  rcases next_cases h _ (Or.inr rfl) with hb | ⟨-, hb⟩ <;> rw [hb]
  · exact h.limit_lt
  · exact succ_mod_lt h.limit_lt

/-- The card's buffer is the driver's buffer of the same slot. -/
theorem RxInv.buffer (h : RxInv r p) {i : Nat} (hi : i < rxDesc) :
    (r.descs i).addr.virt = r.rxBuffers i := by
  rw [h.addr i hi]
  rfl

/-- A stored frame is the frame of the slot it was stored in. -/
theorem receive_frame_self (h : RxInv r p) {frame : Bytes} (hlen : frame.length ≤ 2048)
    (bits : UInt8) : (r.receive frame bits).frame r.rdh = frame := by
  unfold RxRing.frame RxRing.receive
  simp only [h.buffer h.rdh_lt, Function.update_self]
  have hsize : (UInt16.ofNat frame.length).toNat = frame.length :=
    Nat.mod_eq_of_lt (by omega)
  rw [hsize, List.take_left]

/-- The other slots keep theirs, as no two share a buffer. -/
theorem receive_frame_of_ne (h : RxInv r p) (frame : Bytes) (bits : UInt8) {i : Nat}
    (hi : i < rxDesc) (hne : i ≠ r.rdh) : (r.receive frame bits).frame i = r.frame i := by
  unfold RxRing.frame RxRing.receive
  simp only [h.buffer h.rdh_lt]
  rw [Function.update_of_ne hne, Function.update_of_ne]
  intro hc
  exact hne (h.apart i r.rdh hi h.rdh_lt hc)

theorem receive_done (h : RxInv r p) (hne : r.rdh ≠ r.rdt) (frame : Bytes) (bits : UInt8)
    {i : Nat} (hi : i < rxDesc) :
    ((r.receive frame bits).descs i).status &&& 0b01 ≠ 0 ↔
      dist rxDesc (nextDd r p) i < dist rxDesc (nextDd r p) ((r.rdh + 1) % rxDesc) := by
  rw [lt_dist_succ_right h.nextDd_lt hi h.rdh_lt (h.room hne (Or.inr rfl)), ← h.done i hi]
  unfold RxRing.receive
  by_cases hir : i = r.rdh
  · subst hir
    simp only [Function.update_self, or_one_and_one]
    simp
  · simp only [Function.update_of_ne hir]
    simp [hir]

theorem receive_filled (h : RxInv r p) (hne : r.rdh ≠ r.rdt) (frame : Bytes) (bits : UInt8)
    {i : Nat} (hi : i < rxDesc) :
    (r.receive frame bits).uncopied i = true ↔
      dist rxDesc (nextRx r p) i < dist rxDesc (nextRx r p) ((r.rdh + 1) % rxDesc) := by
  rw [lt_dist_succ_right h.nextRx_lt hi h.rdh_lt (h.room hne (Or.inl rfl)), ← h.filled i hi]
  unfold RxRing.receive
  by_cases hir : i = r.rdh
  · subst hir
    simp
  · simp only [Function.update_of_ne hir]
    simp [hir]

/-- The slot at the head is not a filled one, so nothing is lost there. -/
theorem receive_kept (h : RxInv r p) (frame : Bytes) (bits : UInt8) :
    (r.receive frame bits).clobbered = [] := by
  have hfree : ¬ r.uncopied r.rdh = true := by
    rw [h.filled r.rdh h.rdh_lt]
    omega
  show (if r.uncopied r.rdh = true then _ else r.clobbered) = []
  rw [if_neg hfree]
  exact h.kept

theorem receive_order (h : RxInv r p) (hne : r.rdh ≠ r.rdt) {frame : Bytes}
    (hlen : frame.length ≤ 2048) (bits : UInt8) :
    r.delivered.map RawPacket.frame
        ++ between rxDesc (r.receive frame bits).frame (nextRx r p) ((r.rdh + 1) % rxDesc)
      = r.arrived ++ [frame] := by
  rw [between_push _ h.nextRx_lt h.rdh_lt (h.room hne (Or.inl rfl)),
    receive_frame_self h hlen, ← h.order, List.append_assoc]
  congr 2
  refine between_congr h.nextRx_lt h.rdh_lt ?_
  intro j hj hlt
  refine receive_frame_of_ne h frame bits hj ?_
  rintro rfl
  omega

theorem RxInv.receive (h : RxInv r p) (hne : r.rdh ≠ r.rdt) {frame : Bytes}
    (hlen : frame.length ≤ 2048) (bits : UInt8) : RxInv (r.receive frame bits) p where
  cur_lt := h.cur_lt
  rdh_lt := succ_mod_lt h.rdh_lt
  rdt_lt := h.rdt_lt
  limit_lt := h.limit_lt
  tail := h.tail
  busy := by
    intro _
    show (r.rdh + 1) % rxDesc ≠ tailLimit r p
    rw [← h.tail]
    exact succ_mod_inj h.rdh_lt h.rdt_lt hne
  old := h.old
  read := by
    intro cause desc hp
    have hbusy : r.rdh ≠ r.curRx := by
      rcases hp with rfl | rfl
      · exact h.busy rfl
      · exact h.busy rfl
    show desc = Function.update r.descs r.rdh _ r.curRx
    rw [Function.update_of_ne hbusy.symm]
    exact h.read cause desc hp
  addr := by
    intro i hi
    show (Function.update r.descs r.rdh _ i).addr = translateAddr (r.rxBuffers i)
    by_cases hir : i = r.rdh
    · subst hir
      rw [Function.update_self]
      exact h.addr r.rdh hi
    · rw [Function.update_of_ne hir]
      exact h.addr i hi
  apart := h.apart
  done := fun _ hi => receive_done h hne frame bits hi
  filled := fun _ hi => receive_filled h hne frame bits hi
  kept := receive_kept h frame bits
  fits := by
    intro f hf
    rcases List.mem_append.mp hf with hf | hf
    · exact h.fits f hf
    · rw [List.mem_singleton.mp hf]
      exact hlen
  order := receive_order h hne hlen bits

/-! ### The driver empties a slot -/

/-- The handler found the DD bit set, so the card is past the slot. -/
theorem RxInv.found {cause : InterruptCauseRegister} (h : RxInv r (.rxRead cause))
    (hdd : (r.descs r.curRx).status &&& 0b01 ≠ 0) :
    RxInv r (.rxEnqueue cause (r.descs r.curRx)) where
  cur_lt := h.cur_lt
  rdh_lt := h.rdh_lt
  rdt_lt := h.rdt_lt
  limit_lt := h.limit_lt
  tail := h.tail
  busy := by
    intro _ hc
    have hlt := (h.done r.curRx h.cur_lt).mp hdd
    change r.rdh = r.curRx at hc
    change dist rxDesc r.curRx r.curRx < dist rxDesc r.curRx r.rdh at hlt
    rw [hc] at hlt
    omega
  old := by intro _ _ hc; cases hc
  read := by
    rintro _ _ (hc | hc)
    · cases hc
      rfl
    · cases hc
  addr := h.addr
  apart := h.apart
  done := h.done
  filled := h.filled
  kept := h.kept
  fits := h.fits
  order := h.order

/-- The slot at `cur_rx` holds the oldest frame that was not copied. -/
theorem RxInv.head {cause : InterruptCauseRegister} {desc : RxDesc}
    (h : RxInv r (.rxEnqueue cause desc)) :
    r.delivered.map RawPacket.frame
        ++ r.frame r.curRx :: between rxDesc r.frame ((r.curRx + 1) % rxDesc) r.rdh
      = r.arrived := by
  have horder := h.order
  change _ ++ between rxDesc r.frame r.curRx r.rdh = _ at horder
  rwa [between_pop _ h.cur_lt h.rdh_lt (h.busy rfl).symm] at horder

theorem RxInv.enqueue {cause : InterruptCauseRegister} {desc : RxDesc} (id : Nat)
    (h : RxInv r (.rxEnqueue cause desc)) : RxInv (r.enqueue id desc) (.rxClear cause desc) where
  cur_lt := h.cur_lt
  rdh_lt := h.rdh_lt
  rdt_lt := h.rdt_lt
  limit_lt := h.limit_lt
  tail := h.tail
  busy := fun _ => h.busy rfl
  old := by intro _ _ hc; cases hc
  read := by
    rintro _ _ (hc | hc)
    · cases hc
    · cases hc
      exact h.read cause desc (Or.inl rfl)
  addr := h.addr
  apart := h.apart
  done := h.done
  filled := by
    intro i hi
    show Function.update r.uncopied r.curRx false i = true ↔
      dist rxDesc ((r.curRx + 1) % rxDesc) i < dist rxDesc ((r.curRx + 1) % rxDesc) r.rdh
    rw [lt_dist_succ_left h.cur_lt hi h.rdh_lt (h.busy rfl).symm]
    by_cases hic : i = r.curRx
    · subst hic
      simp
    · rw [Function.update_of_ne hic, h.filled i hi]
      exact ⟨fun hlt => ⟨hlt, hic⟩, fun hlt => hlt.1⟩
  kept := h.kept
  fits := h.fits
  order := by
    have hslice : (r.mem (r.rxBuffers r.curRx)).take desc.length.toNat = r.frame r.curRx := by
      rw [h.read cause desc (Or.inl rfl)]
      rfl
    have hfit : (r.frame r.curRx).length ≤ 2048 := by
      refine h.fits _ ?_
      rw [← h.head]
      simp
    show (r.delivered ++ [RawPacket.mk id (Buffer.new _)]).map RawPacket.frame
      ++ between rxDesc r.frame ((r.curRx + 1) % rxDesc) r.rdh = r.arrived
    rw [hslice, List.map_append, List.append_assoc, ← h.head]
    simp only [List.map_cons, List.map_nil, RawPacket.frame, Buffer.take_new hfit]
    rfl

theorem RxInv.clear {cause : InterruptCauseRegister} {desc : RxDesc}
    (h : RxInv r (.rxClear cause desc)) : RxInv (r.clearStatus desc) (.rxAdvance cause) := by
  have hdesc : desc = r.descs r.curRx := h.read cause desc (Or.inr rfl)
  -- Writing the descriptor back changes nothing but its status.
  have hframe : (r.clearStatus desc).frame = r.frame := by
    funext i
    unfold RxRing.frame RxRing.clearStatus
    by_cases hic : i = r.curRx
    · subst hic
      simp only [Function.update_self, hdesc]
    · simp only [Function.update_of_ne hic]
  exact {
    cur_lt := h.cur_lt
    rdh_lt := h.rdh_lt
    rdt_lt := h.rdt_lt
    limit_lt := h.limit_lt
    tail := h.tail
    busy := fun _ => h.busy rfl
    old := by intro _ _ hc; cases hc
    read := by rintro _ _ (hc | hc) <;> cases hc
    addr := by
      intro i hi
      show (Function.update r.descs r.curRx _ i).addr = translateAddr (r.rxBuffers i)
      by_cases hic : i = r.curRx
      · subst hic
        rw [Function.update_self, hdesc]
        exact h.addr r.curRx hi
      · rw [Function.update_of_ne hic]
        exact h.addr i hi
    apart := h.apart
    done := by
      intro i hi
      show (Function.update r.descs r.curRx _ i).status &&& 0b01 ≠ 0 ↔
        dist rxDesc ((r.curRx + 1) % rxDesc) i < dist rxDesc ((r.curRx + 1) % rxDesc) r.rdh
      rw [lt_dist_succ_left h.cur_lt hi h.rdh_lt (h.busy rfl).symm]
      by_cases hic : i = r.curRx
      · subst hic
        simp
      · rw [Function.update_of_ne hic, h.done i hi]
        exact ⟨fun hlt => ⟨hlt, hic⟩, fun hlt => hlt.1⟩
    filled := h.filled
    kept := h.kept
    fits := h.fits
    order := by
      rw [hframe]
      exact h.order }

theorem RxInv.advance {cause : InterruptCauseRegister} (h : RxInv r (.rxAdvance cause)) :
    RxInv { r with curRx := (r.curRx + 1) % rxDesc } (.rxTail cause r.curRx) where
  cur_lt := succ_mod_lt h.cur_lt
  rdh_lt := h.rdh_lt
  rdt_lt := h.rdt_lt
  limit_lt := h.cur_lt
  tail := h.tail
  busy := fun _ => h.busy rfl
  old := by
    intro _ _ hc
    cases hc
    rfl
  read := by rintro _ _ (hc | hc) <;> cases hc
  addr := h.addr
  apart := h.apart
  done := h.done
  filled := h.filled
  kept := h.kept
  fits := h.fits
  order := h.order

theorem RxInv.tailWrite {cause : InterruptCauseRegister} {oldRx : Nat}
    (h : RxInv r (.rxTail cause oldRx)) : RxInv { r with rdt := oldRx } (.rxRead cause) where
  cur_lt := h.cur_lt
  rdh_lt := h.rdh_lt
  rdt_lt := h.limit_lt
  limit_lt := h.cur_lt
  tail := h.old cause oldRx rfl
  busy := by intro hc; cases hc
  old := by intro _ _ hc; cases hc
  read := by rintro _ _ (hc | hc) <;> cases hc
  addr := h.addr
  apart := h.apart
  done := h.done
  filled := h.filled
  kept := h.kept
  fits := h.fits
  order := h.order

/-! ### Every run -/

theorem rxInv_step {a : Action} (hstep : step s a = some s') (h : RxInv s.rx s.point) :
    RxInv s'.rx s'.point := by
  rcases step_rx hstep with ⟨frame, bits, hne, hlen, hrx, hpoint⟩ | ⟨cause, hat, hdd, hrx, hpoint⟩
    | ⟨cause, desc, hat, hrx, hpoint⟩ | ⟨cause, desc, hat, hrx, hpoint⟩ | ⟨cause, hat, hrx, hpoint⟩
    | ⟨cause, oldRx, hat, hrx, hpoint⟩ | ⟨hrx, hpoint⟩ | ⟨hrx, hat, hpoint⟩
  · rw [hrx, hpoint]
    exact h.receive hne hlen bits
  · rw [hat] at h
    rw [hrx, hpoint]
    exact h.found hdd
  · rw [hat] at h
    rw [hrx, hpoint]
    exact h.enqueue s.id
  · rw [hat] at h
    rw [hrx, hpoint]
    exact h.clear
  · rw [hat] at h
    rw [hrx, hpoint]
    exact h.advance
  · rw [hat] at h
    rw [hrx, hpoint]
    exact h.tailWrite
  · rw [hrx, hpoint]
    exact h
  · rw [hrx]
    exact h.outside hat hpoint

theorem rxInv_along (id : Nat) (as : List Action) :
    Along step (fun s => RxInv s.rx s.point) (init id) as :=
  along_of_step (fun _ _ _ h hstep => rxInv_step hstep h) RxInv.init as

/-- The receive side as the handler queue sees it. -/
structure ReceivesAll (s : Card) : Prop where
  /-- Between two passes of the loop the tail stands one slot behind `cur_rx`. -/
  tail : s.point.betweenPasses = true → s.rx.rdt = (s.rx.curRx + 31) % 32
  /-- No buffer was filled again before it was copied. -/
  kept : s.rx.clobbered = []
  /-- The frames delivered and then those still in the ring are the frames stored. -/
  order : s.rx.delivered.map RawPacket.frame
    ++ between 32 s.rx.frame (nextRx s.rx s.point) s.rx.rdh = s.rx.arrived

theorem RxInv.receivesAll (h : RxInv s.rx s.point) : ReceivesAll s where
  tail := by
    intro hp
    have htail := h.tail
    have hlt := h.rdt_lt
    rw [tailLimit_between hp] at htail
    unfold rxDesc at htail hlt
    omega
  kept := h.kept
  order := h.order

/--
**The receive ring delivers exactly once and in order.**  However the card's stores
fall between the steps of the handler, whatever raised its interrupts.
-/
theorem receive_exactly_once (id : Nat) (as : List Action) :
    Along step ReceivesAll (init id) as :=
  (rxInv_along id as).mono (fun _ h => h.receivesAll)

end Rucoonos.E1000
