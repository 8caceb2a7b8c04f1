/-
Who owns the boxes of the wakers.

Any number of wakers is created, cloned, used and consumed, in any order.  The type
`Waker` sees to it that each is consumed at most once, and not used afterwards; `wake`
and `drop` both consume it, and `wake` is not followed by `drop`.

In every run the store holds the boxes of the wakers that are left and one box for each
waker that `wake` has consumed, and no function is ever given a pointer without a box
(`stored_step`).  So the store is exactly what the wakers own as long as none of them is
consumed by `wake`, and no longer than that (`boxes_owned_along`).
-/
import Rucoonos.Kernel.Waker
import Rucoonos.Lib.Run
import Mathlib.Data.List.Nodup
import Mathlib.Data.List.Perm.Basic

namespace Rucoonos.Waker

open Executor (TaskID)

structure Wakers where
  store : Store
  /-- The pointers of the wakers that were not consumed yet. -/
  live : List Nat
  /-- The pointers of the wakers that `wake` has consumed. -/
  woken : List Nat
  /-- Some function was given a pointer without a box. -/
  undefined : Bool

inductive Action
  | create (queue : Nat) (id : TaskID) (place : Nat)
  | clone (waker place : Nat)
  | wakeByRef (waker : Nat)
  | wake (waker : Nat)
  | drop (waker : Nat)
  deriving DecidableEq, Repr

/-- The result of a function of the vtable is the store, if its behaviour is defined. -/
def Wakers.after (w : Wakers) (live woken : List Nat) : Option Store → Wakers
  | some store => { w with store, live, woken }
  | none => { w with live, woken, undefined := true }

def step (w : Wakers) : Action → Option Wakers
  | .create queue id place =>
      if w.store.boxes place = none then
        some { w with store := createWaker w.store queue id place, live := w.live ++ [place] }
      else none
  | .clone i place =>
      match w.live[i]? with
      | none => none
      | some ptr =>
          if w.store.boxes place = none then
            some (w.after (w.live ++ [place]) w.woken (clone w.store ptr place))
          else none
  | .wakeByRef i =>
      match w.live[i]? with
      | none => none
      | some ptr => some (w.after w.live w.woken (wakeByRef w.store ptr))
  | .wake i =>
      match w.live[i]? with
      | none => none
      | some ptr => some (w.after (w.live.eraseIdx i) (w.woken ++ [ptr]) (wake w.store ptr))
  | .drop i =>
      match w.live[i]? with
      | none => none
      | some ptr => some (w.after (w.live.eraseIdx i) w.woken (drop w.store ptr))

/-- No waker yet, and no box. -/
def start (queues : Nat → List TaskID) : Wakers := ⟨⟨fun _ => none, queues⟩, [], [], false⟩

/-- The store holds the boxes of the wakers that were not consumed, one for each, and
nothing was done to a box that was not there. -/
structure Owned (w : Wakers) : Prop where
  separate : w.live.Nodup
  exact_boxes : ∀ ptr, w.store.boxes ptr ≠ none ↔ ptr ∈ w.live
  defined : w.undefined = false

/-- The waker is not consumed by `wake`. -/
def NotByWake : Action → Prop
  | .wake _ => False
  | _ => True

instance (a : Action) : Decidable (NotByWake a) := by
  unfold NotByWake
  split
  · infer_instance
  · infer_instance

/-- What the store holds in every run. -/
structure Stored (w : Wakers) : Prop where
  separate : (w.live ++ w.woken).Nodup
  boxes : ∀ ptr, w.store.boxes ptr ≠ none ↔ ptr ∈ w.live ++ w.woken
  defined : w.undefined = false

/-! ### One operation -/

/-- A waker that is left, and the others. -/
theorem perm_of_live {live : List Nat} {i ptr : Nat} (h : live[i]? = some ptr) :
    live.Perm (ptr :: live.eraseIdx i) := by
  obtain ⟨hlt, rfl⟩ := List.getElem?_eq_some_iff.mp h
  exact (List.getElem_cons_eraseIdx_perm hlt).symm

section Stored

variable {w w' : Wakers}

/-- Whoever is left has a box. -/
theorem Stored.box (h : Stored w) {i ptr : Nat} (hi : w.live[i]? = some ptr) :
    ∃ waker, w.store.boxes ptr = some waker := by
  have hmem : ptr ∈ w.live ++ w.woken := List.mem_append_left _ (List.mem_of_getElem? hi)
  exact Option.ne_none_iff_exists'.mp ((h.boxes ptr).mpr hmem)

/-- A box is put where there was none. -/
theorem Stored.add (h : Stored w) {place : Nat} {waker : InternalWaker}
    (hfree : w.store.boxes place = none) :
    Stored { w with store := w.store.intoRaw place waker, live := w.live ++ [place] } := by
  have hnew : place ∉ w.live ++ w.woken := fun hmem => (h.boxes place).mpr hmem hfree
  have hperm : (w.live ++ [place] ++ w.woken).Perm (place :: (w.live ++ w.woken)) := by
    rw [List.append_assoc]
    exact List.perm_middle
  refine ⟨hperm.nodup_iff.mpr (List.nodup_cons.mpr ⟨hnew, h.separate⟩), ?_, h.defined⟩
  intro ptr
  rw [hperm.mem_iff, List.mem_cons]
  show Function.update w.store.boxes place (some waker) ptr ≠ none ↔ _
  by_cases hptr : ptr = place
  · simp [hptr]
  · rw [Function.update_of_ne hptr, h.boxes ptr]
    simp [hptr]

theorem Stored.wake (h : Stored w) {i ptr : Nat} {waker : InternalWaker}
    (hi : w.live[i]? = some ptr) :
    Stored { w with
      store := w.store.enqueue waker, live := w.live.eraseIdx i, woken := w.woken ++ [ptr] } := by
  have hperm : (w.live.eraseIdx i ++ (w.woken ++ [ptr])).Perm (w.live ++ w.woken) := by
    rw [← List.append_assoc]
    exact List.perm_append_comm.trans ((perm_of_live hi).append_right w.woken).symm
  refine ⟨hperm.nodup_iff.mpr h.separate, ?_, h.defined⟩
  intro ptr'
  rw [hperm.mem_iff]
  exact h.boxes ptr'

theorem Stored.drop (h : Stored w) {i ptr : Nat} (hi : w.live[i]? = some ptr) :
    Stored { w with
      store := { w.store with boxes := Function.update w.store.boxes ptr none }
      live := w.live.eraseIdx i } := by
  have hperm : (w.live ++ w.woken).Perm (ptr :: (w.live.eraseIdx i ++ w.woken)) :=
    (perm_of_live hi).append_right w.woken
  obtain ⟨hnew, hseparate⟩ := List.nodup_cons.mp (hperm.nodup_iff.mp h.separate)
  refine ⟨hseparate, ?_, h.defined⟩
  intro ptr'
  show Function.update w.store.boxes ptr none ptr' ≠ none ↔ _
  by_cases hptr : ptr' = ptr
  · subst hptr
    simp [hnew]
  · rw [Function.update_of_ne hptr, h.boxes ptr', hperm.mem_iff, List.mem_cons]
    simp [hptr]

/-- What an operation does as long as every pointer has its box. -/
inductive Move (w : Wakers) : Action → Wakers → Prop
  | create {queue place : Nat} {id : TaskID} (hfree : w.store.boxes place = none) :
      Move w (.create queue id place)
        { w with store := w.store.intoRaw place ⟨queue, id⟩, live := w.live ++ [place] }
  | clone {i place : Nat} {waker : InternalWaker} (hfree : w.store.boxes place = none) :
      Move w (.clone i place)
        { w with store := w.store.intoRaw place waker, live := w.live ++ [place] }
  | wakeByRef {i : Nat} {waker : InternalWaker} :
      Move w (.wakeByRef i) { w with store := w.store.enqueue waker }
  | wake {i ptr : Nat} {waker : InternalWaker} (hi : w.live[i]? = some ptr) :
      Move w (.wake i) { w with
        store := w.store.enqueue waker, live := w.live.eraseIdx i, woken := w.woken ++ [ptr] }
  | drop {i ptr : Nat} (hi : w.live[i]? = some ptr) :
      Move w (.drop i) { w with
        store := { w.store with boxes := Function.update w.store.boxes ptr none }
        live := w.live.eraseIdx i }

theorem Stored.move (h : Stored w) {a : Action} (hstep : step w a = some w') : Move w a w' := by
  cases a with
  | create queue id place =>
      rw [step] at hstep
      split at hstep
      · rename_i hfree
        cases hstep
        exact .create hfree
      · cases hstep
  | clone i place =>
      rw [step] at hstep
      split at hstep
      · cases hstep
      · rename_i ptr hi
        obtain ⟨waker, hwaker⟩ := h.box hi
        split at hstep
        · rename_i hfree
          cases hstep
          rw [Waker.clone, ptrRef, hwaker]
          exact .clone hfree
        · cases hstep
  | wakeByRef i =>
      rw [step] at hstep
      split at hstep
      · cases hstep
      · rename_i ptr hi
        obtain ⟨waker, hwaker⟩ := h.box hi
        cases hstep
        rw [Waker.wakeByRef, ptrRef, hwaker]
        exact .wakeByRef
  | wake i =>
      rw [step] at hstep
      split at hstep
      · cases hstep
      · rename_i ptr hi
        obtain ⟨waker, hwaker⟩ := h.box hi
        cases hstep
        rw [Waker.wake, ptrRef, hwaker]
        exact .wake hi
  | drop i =>
      rw [step] at hstep
      split at hstep
      · cases hstep
      · rename_i ptr hi
        obtain ⟨waker, hwaker⟩ := h.box hi
        cases hstep
        rw [Waker.drop, Store.fromRaw, hwaker]
        exact .drop hi

/-- **The boxes are those of the wakers that are left and of those that were woken**, and
every pointer that is used has its box. -/
theorem stored_step (h : Stored w) {a : Action} (hstep : step w a = some w') : Stored w' := by
  cases h.move hstep with
  | create hfree => exact h.add hfree
  | clone hfree => exact h.add hfree
  | wakeByRef => exact ⟨h.separate, h.boxes, h.defined⟩
  | wake hi => exact h.wake hi
  | drop hi => exact h.drop hi

/-- Only `wake` adds to the wakers that were woken. -/
theorem woken_step (h : Stored w) {a : Action} (ha : NotByWake a) (hstep : step w a = some w') :
    w'.woken = w.woken := by
  cases h.move hstep with
  | wake hi => exact absurd ha id
  | _ => rfl

theorem Stored.owned (h : Stored w) (hwoken : w.woken = []) : Owned w := by
  obtain ⟨hseparate, hboxes, hdefined⟩ := h
  rw [hwoken, List.append_nil] at hseparate
  simp only [hwoken, List.append_nil] at hboxes
  exact ⟨hseparate, hboxes, hdefined⟩

/-- A waker that was woken leaves its box behind. -/
theorem Stored.leaked (h : Stored w) {ptr : Nat} (hptr : ptr ∈ w.woken) : ¬ Owned w := by
  intro howned
  have hbox := (h.boxes ptr).mpr (List.mem_append_right _ hptr)
  have hlive := (howned.exact_boxes ptr).mp hbox
  exact (List.nodup_append.mp h.separate).2.2 ptr hlive ptr hptr rfl

end Stored

/--
**When no box is leaked.**  For any number of wakers and any sequence of operations on
them, the store holds exactly the boxes of the wakers that were not consumed yet, at
every point of a run, exactly if no waker of the run is consumed by `wake`.
-/
theorem boxes_owned_along (queues : Nat → List TaskID) (as : List Action) :
    Lts.Along step Owned (start queues) as ↔
      Lts.StepsMeet step (fun _ a => NotByWake a) (start queues) as := by
  refine Lts.along_iff_stepsMeet (fun w a w' (h : Stored w ∧ w.woken = []) ha hstep =>
    ⟨stored_step h.1 hstep, (woken_step h.1 ha hstep).trans h.2⟩) (fun w h => h.1.owned h.2) ?_ ?_
  · intro w a w' h ha hstep
    cases h.1.move hstep with
    | wake hi =>
        exact (h.1.wake hi).leaked (List.mem_append_right _ (List.mem_singleton_self _))
    | _ => exact absurd trivial ha
  · exact ⟨⟨List.nodup_nil, fun ptr => by simp [start], rfl⟩, rfl⟩

/-- A waker is made and consumed by `wake`: no waker is left, but its box is. -/
theorem woken_box_remains :
    ∃ w, Lts.run step (start fun _ => []) [.create 0 ⟨5⟩ 64, .wake 0] = some w ∧
      w.live = [] ∧ w.store.boxes 64 = some ⟨0, ⟨5⟩⟩ ∧ w.store.queues 0 = [⟨5⟩] :=
  ⟨_, rfl, rfl, rfl, rfl⟩

end Rucoonos.Waker
