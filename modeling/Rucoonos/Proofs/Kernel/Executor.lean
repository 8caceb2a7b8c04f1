/-
No poll is lost, duplicated or misrouted.

The lookup in `Kernel::run` succeeds for a reason spread over three places.  A task
goes on the add queue before its id goes on the run queue; a waker exists only for a
task that has been polled; and the add queue is drained after the id was dequeued.
So whenever an id is anywhere between an enqueue and its poll, the task it names is
already on the add queue or in `tasks`, and after the drain it is in `tasks`.

`Ledger` ties the calls of `add_task` to the tasks the kernel knows.  It is what
makes the entry found the right one: the i-th draw got the number `i`, so as long as
the counter has not wrapped an id names one call, and the tasks known are exactly
those of the calls past their first enqueue, each once.  `Supplied` is the invariant
described above, and `Account` the equation between polls and enqueues.
-/
import Rucoonos.Kernel.Executor
import Mathlib.Algebra.Group.Nat.Defs
import Mathlib.Data.List.Nodup
import Mathlib.Tactic.Common

namespace Rucoonos.Executor

open Lts

variable {F : Type} {k k' : Kernel F}

/-! ### What a step can do -/

/-- The step function as a relation: one constructor per outcome, with its guard. -/
inductive Step : Kernel F → Action F → Kernel F → Prop
  | fetchAdd (k : Kernel F) (fut : F) : Step k (.fetchAdd fut) (k.fetchAdd fut)
  | enqueueTask (k : Kernel F) (i : Nat) (task : Task F)
      (hcall : k.calls[i]? = some ⟨task, .drawn⟩) :
      Step k (.enqueueTask i)
        { k with calls := k.calls.set i ⟨task, .added⟩, addQueue := k.addQueue ++ [task] }
  | enqueueId (k : Kernel F) (i : Nat) (task : Task F)
      (hcall : k.calls[i]? = some ⟨task, .added⟩) :
      Step k (.enqueueId i)
        ({ k with calls := k.calls.set i ⟨task, .finished⟩ }.enqueue task.id)
  | wake (k : Kernel F) (id : TaskID) (hwaker : id ∈ k.wakers) :
      Step k (.wake id) (k.enqueue id)
  | dequeue (k : Kernel F) (runId : TaskID) (rest : List TaskID)
      (hpoint : k.point = .dequeue) (hqueue : k.queue = runId :: rest) :
      Step k .iterate { k with queue := rest, point := .drain runId }
  | drain (k : Kernel F) (runId : TaskID) (task : Task F) (rest : List (Task F))
      (hpoint : k.point = .drain runId) (hadd : k.addQueue = task :: rest) :
      Step k .iterate { k with addQueue := rest, tasks := k.tasks ++ [task] }
  | drained (k : Kernel F) (runId : TaskID) (hpoint : k.point = .drain runId)
      (hadd : k.addQueue = []) : Step k .iterate { k with point := .lookup runId }
  | poll (k : Kernel F) (runId : TaskID) (entry : Task F) (hpoint : k.point = .lookup runId)
      (hfind : k.tasks.find? (fun task => task.id == runId) = some entry) :
      Step k .iterate { k with
        point := .poll entry
        wakers := k.wakers ++ [entry.id]
        history := k.history ++ [.polled runId entry] }
  | unavailable (k : Kernel F) (runId : TaskID) (hpoint : k.point = .lookup runId)
      (hfind : k.tasks.find? (fun task => task.id == runId) = none) :
      Step k .iterate { k with point := .dequeue, history := k.history ++ [.unavailable runId] }
  | pollReturn (k : Kernel F) (entry : Task F) (result : Poll)
      (hpoint : k.point = .poll entry) :
      Step k (.pollReturn result)
        { k with point := .dequeue, history := k.history ++ [.returned entry result] }

theorem step_sound {a : Action F} (h : step k a = some k') : Step k a k' := by
  cases a with
  | fetchAdd fut =>
      simp only [step, Option.some.injEq] at h
      rw [← h]
      exact Step.fetchAdd k fut
  | enqueueTask i =>
      simp only [step, Kernel.enqueueTask] at h
      split at h
      · rename_i task hcall
        simp only [Option.some.injEq] at h
        rw [← h]
        exact Step.enqueueTask k i task hcall
      · cases h
  | enqueueId i =>
      simp only [step, Kernel.enqueueId] at h
      split at h
      · rename_i task hcall
        simp only [Option.some.injEq] at h
        rw [← h]
        exact Step.enqueueId k i task hcall
      · cases h
  | wake id =>
      simp only [step, Kernel.wake] at h
      split at h
      · rename_i hwaker
        simp only [Option.some.injEq] at h
        rw [← h]
        exact Step.wake k id hwaker
      · cases h
  | iterate =>
      simp only [step, Kernel.iterate] at h
      split at h
      · rename_i hpoint
        split at h
        · rename_i runId rest hqueue
          simp only [Option.some.injEq] at h
          rw [← h]
          exact Step.dequeue k runId rest hpoint hqueue
        · cases h
      · rename_i runId hpoint
        split at h
        · rename_i task rest hadd
          simp only [Option.some.injEq] at h
          rw [← h]
          exact Step.drain k runId task rest hpoint hadd
        · rename_i hadd
          simp only [Option.some.injEq] at h
          rw [← h]
          exact Step.drained k runId hpoint hadd
      · rename_i runId hpoint
        split at h
        · rename_i entry hfind
          simp only [Option.some.injEq] at h
          rw [← h]
          exact Step.poll k runId entry hpoint hfind
        · rename_i hfind
          simp only [Option.some.injEq] at h
          rw [← h]
          exact Step.unavailable k runId hpoint hfind
      · cases h
  | pollReturn result =>
      simp only [step, Kernel.pollReturn] at h
      split at h
      · rename_i entry hpoint
        simp only [Option.some.injEq] at h
        rw [← h]
        exact Step.pollReturn k entry result hpoint
      · cases h

/-! ### The ledger of added tasks -/

/-- The tasks that have been handed to the kernel, whether drained yet or not. -/
def Kernel.known (k : Kernel F) : List (Task F) :=
  k.tasks ++ k.addQueue

/-- The calls of `add_task` and the tasks the kernel knows agree. -/
structure Ledger (k : Kernel F) : Prop where
  count : k.idCount = UInt64.ofNat k.calls.length
  /-- The i-th call drew the number `i`. -/
  drawn : ∀ (i : Nat) (c : AddCall F), k.calls[i]? = some c → c.task.id = ⟨UInt64.ofNat i⟩
  /-- A known task was made by a call past its first enqueue. -/
  called : ∀ t ∈ k.known, ∃ (i : Nat) (stage : AddStage),
    k.calls[i]? = some ⟨t, stage⟩ ∧ stage ≠ .drawn
  /-- A call past its first enqueue has made its task known. -/
  known : ∀ (i : Nat) (t : Task F) (stage : AddStage), k.calls[i]? = some ⟨t, stage⟩ →
    stage ≠ .drawn → t ∈ k.known
  nodup : (k.known.map (·.id)).Nodup

theorem ofNat_inj_of_lt {i j : Nat} (hi : i < 2 ^ 64) (hj : j < 2 ^ 64)
    (h : UInt64.ofNat i = UInt64.ofNat j) : i = j := by
  have hnat := congrArg UInt64.toNat h
  rwa [UInt64.toNat_ofNat_of_lt' hi, UInt64.toNat_ofNat_of_lt' hj] at hnat

/-- Below the wrap of the counter, an id names one call. -/
theorem Ledger.call_unique (hl : Ledger k) (hlt : k.calls.length < 2 ^ 64) {i j : Nat}
    {c d : AddCall F} (hi : k.calls[i]? = some c) (hj : k.calls[j]? = some d)
    (hid : c.task.id = d.task.id) : i = j := by
  have hilt : i < k.calls.length := (List.getElem?_eq_some_iff.mp hi).1
  have hjlt : j < k.calls.length := (List.getElem?_eq_some_iff.mp hj).1
  rw [hl.drawn i c hi, hl.drawn j d hj, TaskID.mk.injEq] at hid
  exact ofNat_inj_of_lt (by omega) (by omega) hid

/-- The ledger reads the counter, the calls and the known tasks, nothing else. -/
theorem Ledger.of_eq (hl : Ledger k) (hcount : k'.idCount = k.idCount)
    (hcalls : k'.calls = k.calls) (hknown : k'.known = k.known) : Ledger k' := by
  refine ⟨?_, ?_, ?_, ?_, ?_⟩
  · rw [hcount, hcalls]; exact hl.count
  · rw [hcalls]; exact hl.drawn
  · rw [hknown, hcalls]; exact hl.called
  · rw [hknown, hcalls]; exact hl.known
  · rw [hknown]; exact hl.nodup

theorem Ledger.fetchAdd (hl : Ledger k) (fut : F) : Ledger (k.fetchAdd fut) := by
  have hknown : (k.fetchAdd fut).known = k.known := rfl
  refine ⟨?_, ?_, ?_, ?_, ?_⟩
  · show k.idCount + 1 = UInt64.ofNat (k.calls ++ [_]).length
    rw [hl.count, List.length_append, List.length_singleton, UInt64.ofNat_add]
    rfl
  · intro i c hc
    rw [show (k.fetchAdd fut).calls = k.calls ++ [⟨⟨⟨k.idCount⟩, fut⟩, .drawn⟩] from rfl,
      List.getElem?_append] at hc
    split at hc
    · exact hl.drawn i c hc
    · rename_i hge
      obtain ⟨hlen, hval⟩ := List.getElem?_eq_some_iff.mp hc
      have hi : i = k.calls.length := by
        simp only [List.length_singleton] at hlen
        omega
      subst hi
      simp only [Nat.sub_self, List.getElem_cons_zero] at hval
      rw [← hval, ← hl.count]
  · intro t ht
    obtain ⟨i, stage, hcall, hstage⟩ := hl.called t ht
    refine ⟨i, stage, ?_, hstage⟩
    show (k.calls ++ [_])[i]? = _
    rw [List.getElem?_append_left (List.getElem?_eq_some_iff.mp hcall).1]
    exact hcall
  · intro i t stage hcall hstage
    rw [show (k.fetchAdd fut).calls = k.calls ++ [⟨⟨⟨k.idCount⟩, fut⟩, .drawn⟩] from rfl,
      List.getElem?_append] at hcall
    split at hcall
    · exact hl.known i t stage hcall hstage
    · obtain ⟨hlen, hval⟩ := List.getElem?_eq_some_iff.mp hcall
      have hzero : i - k.calls.length = 0 := by
        simp only [List.length_singleton] at hlen
        omega
      simp only [hzero, List.getElem_cons_zero, AddCall.mk.injEq] at hval
      exact absurd hval.2.symm hstage
  · rw [hknown]; exact hl.nodup

/-- Moving one call to a later stage keeps the numbering of the calls. -/
theorem Ledger.drawn_set (hl : Ledger k) {i : Nat} {task : Task F} {stage₀ stage : AddStage}
    (hcall : k.calls[i]? = some ⟨task, stage₀⟩) :
    ∀ (j : Nat) (c : AddCall F), (k.calls.set i ⟨task, stage⟩)[j]? = some c →
      c.task.id = ⟨UInt64.ofNat j⟩ := by
  intro j c hc
  rw [List.getElem?_set] at hc
  split at hc
  · rename_i hij
    subst hij
    split at hc
    · simp only [Option.some.injEq] at hc
      rw [← hc]
      exact hl.drawn i ⟨task, stage₀⟩ hcall
    · cases hc
  · exact hl.drawn j c hc

theorem Ledger.enqueueTask (hl : Ledger k) (hlt : k.calls.length < 2 ^ 64) {i : Nat}
    {task : Task F} (hcall : k.calls[i]? = some ⟨task, .drawn⟩) :
    Ledger { k with calls := k.calls.set i ⟨task, .added⟩, addQueue := k.addQueue ++ [task] } := by
  have hi : i < k.calls.length := (List.getElem?_eq_some_iff.mp hcall).1
  set k' : Kernel F :=
    { k with calls := k.calls.set i ⟨task, .added⟩, addQueue := k.addQueue ++ [task] } with hk'
  have hknown : k'.known = k.known ++ [task] := by
    rw [hk', Kernel.known, Kernel.known, List.append_assoc]
  refine ⟨?_, hl.drawn_set hcall, ?_, ?_, ?_⟩
  · show k.idCount = UInt64.ofNat (k.calls.set i _).length
    rw [List.length_set]
    exact hl.count
  · intro t ht
    rw [hknown, List.mem_append, List.mem_singleton] at ht
    rcases ht with ht | rfl
    · obtain ⟨j, stage, hj, hstage⟩ := hl.called t ht
      have hij : i ≠ j := by
        rintro rfl
        rw [hcall, Option.some.injEq, AddCall.mk.injEq] at hj
        exact hstage hj.2.symm
      refine ⟨j, stage, ?_, hstage⟩
      show (k.calls.set i _)[j]? = _
      rw [List.getElem?_set_ne hij]
      exact hj
    · refine ⟨i, .added, ?_, by simp⟩
      show (k.calls.set i _)[i]? = _
      rw [List.getElem?_set_self hi]
  · intro j t stage hj hstage
    rw [hknown, List.mem_append, List.mem_singleton]
    rw [show k'.calls = k.calls.set i ⟨task, .added⟩ from rfl, List.getElem?_set] at hj
    split at hj
    · rename_i hij
      subst hij
      simp only [Option.some.injEq, AddCall.mk.injEq] at hj
      exact Or.inr hj.1.symm
    · exact Or.inl (hl.known j t stage hj hstage)
  · rw [hknown, List.map_append, List.nodup_append]
    refine ⟨hl.nodup, by simp, ?_⟩
    -- A known task with this id would have been made by this very call, which has not
    -- enqueued it yet.
    intro a ha b hb hab
    obtain ⟨t, ht, rfl⟩ := List.mem_map.mp ha
    simp only [List.map_cons, List.map_nil, List.mem_singleton] at hb
    subst hb
    obtain ⟨j, stage, hj, hstage⟩ := hl.called t ht
    have hji : j = i := hl.call_unique hlt hj hcall hab
    subst hji
    rw [hcall, Option.some.injEq, AddCall.mk.injEq] at hj
    exact hstage hj.2.symm

theorem Ledger.enqueueId (hl : Ledger k) {i : Nat} {task : Task F}
    (hcall : k.calls[i]? = some ⟨task, .added⟩) :
    Ledger ({ k with calls := k.calls.set i ⟨task, .finished⟩ }.enqueue task.id) := by
  have hi : i < k.calls.length := (List.getElem?_eq_some_iff.mp hcall).1
  refine ⟨?_, hl.drawn_set hcall, ?_, ?_, hl.nodup⟩
  · show k.idCount = UInt64.ofNat (k.calls.set i _).length
    rw [List.length_set]
    exact hl.count
  · intro t ht
    obtain ⟨j, stage, hj, hstage⟩ := hl.called t ht
    show ∃ (j : Nat) (stage : AddStage), (k.calls.set i _)[j]? = some ⟨t, stage⟩ ∧ _
    by_cases hij : i = j
    · subst hij
      rw [hcall, Option.some.injEq, AddCall.mk.injEq] at hj
      refine ⟨i, .finished, ?_, by simp⟩
      rw [List.getElem?_set_self hi, hj.1]
    · refine ⟨j, stage, ?_, hstage⟩
      rw [List.getElem?_set_ne hij]
      exact hj
  · intro j t stage hj hstage
    show t ∈ k.known
    have hset : (k.calls.set i ⟨task, .finished⟩)[j]? = some ⟨t, stage⟩ := hj
    rw [List.getElem?_set] at hset
    split at hset
    · rename_i hij
      subst hij
      simp only [Option.some.injEq, AddCall.mk.injEq] at hset
      rw [← hset.1]
      exact hl.known i task .added hcall (by simp)
    · exact hl.known j t stage hset hstage

theorem step_calls_length {a : Action F} (h : Step k a k') :
    k.calls.length ≤ k'.calls.length := by
  cases h with
  | fetchAdd => simp [Kernel.fetchAdd]
  | enqueueTask => simp
  | enqueueId => simp [Kernel.enqueue]
  | _ => exact Nat.le_refl _

theorem step_ledger {a : Action F} (h : Step k a k') (hlt : k'.calls.length < 2 ^ 64)
    (hl : Ledger k) : Ledger k' := by
  have hlt' : k.calls.length < 2 ^ 64 := Nat.lt_of_le_of_lt (step_calls_length h) hlt
  cases h with
  | fetchAdd fut => exact hl.fetchAdd fut
  | enqueueTask i task hcall => exact hl.enqueueTask hlt' hcall
  | enqueueId i task hcall => exact hl.enqueueId hcall
  | drain runId task rest hpoint hadd =>
      refine hl.of_eq rfl rfl ?_
      simp [Kernel.known, hadd]
  | _ => exact hl.of_eq rfl rfl rfl

/-! ### An id under way names a known task -/

/-- The task an id names has been handed to the kernel before the id is looked up. -/
structure Supplied (k : Kernel F) : Prop where
  queued : ∀ id ∈ k.queue, ∃ t ∈ k.known, t.id = id
  draining : ∀ id, k.point = .drain id → ∃ t ∈ k.known, t.id = id
  /-- After the drain the task is in `tasks`. -/
  looking : ∀ id, k.point = .lookup id → ∃ t ∈ k.tasks, t.id = id
  woken : ∀ id ∈ k.wakers, ∃ t ∈ k.tasks, t.id = id

theorem tasks_subset_known {t : Task F} (ht : t ∈ k.tasks) : t ∈ k.known :=
  List.mem_append_left _ ht

/-- Putting the id of a known task on the run queue is safe. -/
theorem Supplied.enqueue (hs : Supplied k) {t : Task F} (ht : t ∈ k.known) :
    Supplied (k.enqueue t.id) := by
  refine ⟨?_, hs.draining, hs.looking, hs.woken⟩
  intro id hid
  rcases List.mem_append.mp hid with hid | hid
  · exact hs.queued id hid
  · rw [List.mem_singleton] at hid
    exact ⟨t, ht, hid.symm⟩

/-- The kernel goes on to its next id. -/
theorem Supplied.next (hs : Supplied k) (history : List (Event F)) :
    Supplied { k with point := .dequeue, history := history } := by
  refine ⟨hs.queued, ?_, ?_, hs.woken⟩
  · intro id hp
    cases hp
  · intro id hp
    cases hp

theorem step_supplied {a : Action F} (h : Step k a k') (hl : Ledger k) (hs : Supplied k) :
    Supplied k' := by
  cases h with
  | fetchAdd fut => exact ⟨hs.queued, hs.draining, hs.looking, hs.woken⟩
  | enqueueTask i task hcall =>
      have hgrow : ∀ id, (∃ t ∈ k.known, t.id = id) →
          ∃ t ∈ k.tasks ++ (k.addQueue ++ [task]), t.id = id := by
        rintro id ⟨t, ht, hid⟩
        rw [← List.append_assoc]
        exact ⟨t, List.mem_append_left _ ht, hid⟩
      exact ⟨fun id hid => hgrow id (hs.queued id hid),
        fun id hp => hgrow id (hs.draining id hp), hs.looking, hs.woken⟩
  | enqueueId i task hcall =>
      have hknown : task ∈ k.known := hl.known i task .added hcall (by simp)
      exact Supplied.enqueue (k := { k with calls := k.calls.set i ⟨task, .finished⟩ })
        ⟨hs.queued, hs.draining, hs.looking, hs.woken⟩ hknown
  | wake id hwaker =>
      obtain ⟨t, ht, rfl⟩ := hs.woken id hwaker
      exact hs.enqueue (tasks_subset_known ht)
  | dequeue runId rest hpoint hqueue =>
      refine ⟨?_, ?_, ?_, hs.woken⟩
      · intro id hid
        exact hs.queued id (by rw [hqueue]; exact List.mem_cons_of_mem _ hid)
      · intro id hp
        rw [Point.drain.injEq] at hp
        rw [← hp]
        exact hs.queued runId (by rw [hqueue]; exact List.mem_cons_self)
      · intro id hp
        cases hp
  | drain runId task rest hpoint hadd =>
      have hmove : ∀ id, (∃ t ∈ k.known, t.id = id) →
          ∃ t ∈ (k.tasks ++ [task]) ++ rest, t.id = id := by
        rintro id ⟨t, ht, hid⟩
        rw [Kernel.known, hadd] at ht
        rw [List.append_assoc, List.singleton_append]
        exact ⟨t, ht, hid⟩
      have hgrow : ∀ id, (∃ t ∈ k.tasks, t.id = id) → ∃ t ∈ k.tasks ++ [task], t.id = id := by
        rintro id ⟨t, ht, hid⟩
        exact ⟨t, List.mem_append_left _ ht, hid⟩
      exact ⟨fun id hid => hmove id (hs.queued id hid), fun id hp => hmove id (hs.draining id hp),
        fun id hp => hgrow id (hs.looking id hp), fun id hid => hgrow id (hs.woken id hid)⟩
  | drained runId hpoint hadd =>
      refine ⟨hs.queued, ?_, ?_, hs.woken⟩
      · intro id hp
        cases hp
      · intro id hp
        rw [Point.lookup.injEq] at hp
        obtain ⟨t, ht, hid⟩ := hs.draining runId hpoint
        rw [Kernel.known, hadd, List.append_nil] at ht
        exact ⟨t, ht, hid.trans hp⟩
  | poll runId entry hpoint hfind =>
      refine ⟨hs.queued, ?_, ?_, ?_⟩
      · intro id hp
        cases hp
      · intro id hp
        cases hp
      · intro id hid
        rcases List.mem_append.mp hid with hid | hid
        · exact hs.woken id hid
        · rw [List.mem_singleton] at hid
          exact ⟨entry, List.mem_of_find?_eq_some hfind, hid.symm⟩
  | unavailable runId hpoint hfind => exact hs.next _
  | pollReturn entry result hpoint => exact hs.next _

/-- So the lookup never comes up empty. -/
theorem Supplied.find (hs : Supplied k) {runId : TaskID} (hpoint : k.point = .lookup runId) :
    k.tasks.find? (fun task => task.id == runId) ≠ none := by
  obtain ⟨t, ht, hid⟩ := hs.looking runId hpoint
  intro hnone
  have := List.find?_eq_none.mp hnone t ht
  simp [hid] at this

/-! ### Polls account for enqueues -/

@[simp] theorem enqueuedIds_append (h₁ h₂ : List (Event F)) :
    enqueuedIds (h₁ ++ h₂) = enqueuedIds h₁ ++ enqueuedIds h₂ :=
  List.filterMap_append

@[simp] theorem polledIds_append (h₁ h₂ : List (Event F)) :
    polledIds (h₁ ++ h₂) = polledIds h₁ ++ polledIds h₂ :=
  List.filterMap_append

@[simp] theorem completedIds_append (h₁ h₂ : List (Event F)) :
    completedIds (h₁ ++ h₂) = completedIds h₁ ++ completedIds h₂ :=
  List.filterMap_append

/-- What the history says about the kernel as it is now. -/
structure Account (k : Kernel F) : Prop where
  available : ∀ runId, Event.unavailable runId ∉ k.history
  polled : ∀ runId entry, Event.polled runId entry ∈ k.history →
    entry ∈ k.tasks ∧ entry.id = runId
  order : polledIds k.history ++ k.inHand ++ k.queue = enqueuedIds k.history

theorem Account.available_snoc (ha : Account k) {e : Event F}
    (he : ∀ runId, e ≠ .unavailable runId) (runId : TaskID) :
    Event.unavailable runId ∉ k.history ++ [e] := by
  intro hmem
  rcases List.mem_append.mp hmem with hmem | hmem
  · exact ha.available runId hmem
  · exact he runId (List.mem_singleton.mp hmem).symm

theorem Account.polled_snoc (ha : Account k) {e : Event F}
    (he : ∀ runId entry, e = .polled runId entry → entry ∈ k.tasks ∧ entry.id = runId)
    (runId : TaskID) (entry : Task F) (hmem : Event.polled runId entry ∈ k.history ++ [e]) :
    entry ∈ k.tasks ∧ entry.id = runId := by
  rcases List.mem_append.mp hmem with hmem | hmem
  · exact ha.polled runId entry hmem
  · exact he runId entry (List.mem_singleton.mp hmem).symm

theorem Account.enqueue (ha : Account k) (id : TaskID) : Account (k.enqueue id) := by
  refine ⟨ha.available_snoc (by simp), ha.polled_snoc (by simp), ?_⟩
  have horder := ha.order
  show polledIds (k.history ++ [.enqueued id]) ++ k.inHand ++ (k.queue ++ [id])
    = enqueuedIds (k.history ++ [.enqueued id])
  rw [polledIds_append, enqueuedIds_append, ← horder]
  simp [polledIds, enqueuedIds]

theorem step_account {a : Action F} (h : Step k a k') (hs : Supplied k) (ha : Account k) :
    Account k' := by
  cases h with
  | fetchAdd fut => exact ⟨ha.available, ha.polled, ha.order⟩
  | enqueueTask i task hcall => exact ⟨ha.available, ha.polled, ha.order⟩
  | enqueueId i task hcall =>
      exact Account.enqueue (k := { k with calls := k.calls.set i ⟨task, .finished⟩ })
        ⟨ha.available, ha.polled, ha.order⟩ task.id
  | wake id hwaker => exact ha.enqueue id
  | dequeue runId rest hpoint hqueue =>
      refine ⟨ha.available, ha.polled, ?_⟩
      have horder := ha.order
      rw [hqueue] at horder
      simpa [Kernel.inHand, hpoint] using horder
  | drain runId task rest hpoint hadd =>
      refine ⟨ha.available, ?_, ha.order⟩
      intro id entry hmem
      obtain ⟨hmem, hid⟩ := ha.polled id entry hmem
      exact ⟨List.mem_append_left _ hmem, hid⟩
  | drained runId hpoint hadd =>
      refine ⟨ha.available, ha.polled, ?_⟩
      have horder := ha.order
      simpa [Kernel.inHand, hpoint] using horder
  | poll runId entry hpoint hfind =>
      refine ⟨ha.available_snoc (by simp), ha.polled_snoc ?_, ?_⟩
      · intro id e he
        rw [Event.polled.injEq] at he
        obtain ⟨rfl, rfl⟩ := he
        exact ⟨List.mem_of_find?_eq_some hfind, by simpa using List.find?_some hfind⟩
      · have horder := ha.order
        show polledIds (k.history ++ [.polled runId entry]) ++ [] ++ k.queue
          = enqueuedIds (k.history ++ [.polled runId entry])
        rw [polledIds_append, enqueuedIds_append, ← horder]
        simp [polledIds, enqueuedIds, Kernel.inHand, hpoint]
  | unavailable runId hpoint hfind => exact absurd hfind (hs.find hpoint)
  | pollReturn entry result hpoint =>
      refine ⟨ha.available_snoc (by simp), ha.polled_snoc (by simp), ?_⟩
      have horder := ha.order
      show polledIds (k.history ++ [.returned entry result]) ++ [] ++ k.queue
        = enqueuedIds (k.history ++ [.returned entry result])
      rw [polledIds_append, enqueuedIds_append, ← horder]
      simp [polledIds, enqueuedIds, Kernel.inHand, hpoint]

/-! ### Whole runs -/

/-- The three invariants together. -/
structure Sound (k : Kernel F) : Prop where
  ledger : Ledger k
  supplied : Supplied k
  account : Account k

theorem setup_sound : Sound (Kernel.setup : Kernel F) := by
  refine ⟨⟨rfl, ?_, ?_, ?_, ?_⟩, ⟨?_, ?_, ?_, ?_⟩, ⟨?_, ?_, ?_⟩⟩ <;>
    simp [Kernel.setup, Kernel.known, Kernel.inHand, polledIds, enqueuedIds]

theorem step_sound_inv {a : Action F} (h : step k a = some k')
    (hlt : k'.calls.length < 2 ^ 64) (hk : Sound k) : Sound k' :=
  ⟨step_ledger (step_sound h) hlt hk.ledger,
    step_supplied (step_sound h) hk.ledger hk.supplied,
    step_account (step_sound h) hk.supplied hk.account⟩

/-- Below 2^64 adds the invariants hold after every run. -/
theorem run_sound {acts : List (Action F)} (hrun : run step Kernel.setup acts = some k)
    (hlt : k.calls.length < 2 ^ 64) : Sound k := by
  have hkeep : ∀ (k : Kernel F) (a : Action F) (k' : Kernel F),
      (k.calls.length < 2 ^ 64 → Sound k) → step k a = some k' →
        k'.calls.length < 2 ^ 64 → Sound k' := by
    intro k a k' ih hstep hlt'
    exact step_sound_inv hstep hlt'
      (ih (Nat.lt_of_le_of_lt (step_calls_length (step_sound hstep)) hlt'))
  exact run_invariant hkeep (fun _ => setup_sound) hrun hlt

theorem filter_eq_singleton {α β : Type} [DecidableEq β] (f : α → β) :
    ∀ {l : List α} {x : α}, (l.map f).Nodup → x ∈ l → l.filter (fun y => f y == f x) = [x] := by
  intro l
  induction l with
  | nil => intro x _ hx; cases hx
  | cons y rest ih =>
      intro x hnodup hx
      rw [List.map_cons, List.nodup_cons] at hnodup
      obtain ⟨hy, hrest⟩ := hnodup
      rcases List.mem_cons.mp hx with rfl | hx
      · have hnone : rest.filter (fun y => f y == f x) = [] := by
          rw [List.filter_eq_nil_iff]
          intro z hz hzx
          exact hy (by rw [← beq_iff_eq.mp hzx]; exact List.mem_map_of_mem hz)
        simp [hnone]
      · have hne : f y ≠ f x := by
          intro hc
          exact hy (by rw [hc]; exact List.mem_map_of_mem hx)
        rw [List.filter_cons_of_neg (by simpa using hne)]
        exact ih hrest hx

/-- What the polls of a run may be trusted to be. -/
structure Faithful (k : Kernel F) : Prop where
  /-- The branch that finds no task is never taken. -/
  available : ∀ runId, Event.unavailable runId ∉ k.history
  /-- The entry polled is the only task with that id. -/
  unique : ∀ runId entry, Event.polled runId entry ∈ k.history →
    k.tasks.filter (fun task => task.id == runId) = [entry]
  /-- It holds the future of the one call of `add_task` that drew the id. -/
  routed : ∀ runId entry, Event.polled runId entry ∈ k.history →
    ∃ (i : Nat) (stage : AddStage), k.calls[i]? = some ⟨entry, stage⟩ ∧
      ∀ (j : Nat) (c : AddCall F), k.calls[j]? = some c → c.task.id = runId → j = i
  /-- Polls, then the id in hand, then the run queue: all ids ever enqueued, in order. -/
  order : polledIds k.history ++ k.inHand ++ k.queue = enqueuedIds k.history

/--
**No poll is lost, duplicated or misrouted.**  After any interleaving of adds, wakes
and kernel steps with fewer than 2^64 adds, every id taken off the run queue was
polled, for its own task, and in the order the ids were enqueued.
-/
theorem polls_faithful (acts : List (Action F)) (k : Kernel F)
    (hrun : run step Kernel.setup acts = some k) (hadds : k.calls.length < 2 ^ 64) :
    Faithful k := by
  obtain ⟨hl, hs, ha⟩ := run_sound hrun hadds
  refine ⟨ha.available, ?_, ?_, ha.order⟩
  · intro runId entry hmem
    obtain ⟨hentry, rfl⟩ := ha.polled runId entry hmem
    have hnodup : (k.tasks.map (·.id)).Nodup := by
      have := hl.nodup
      rw [Kernel.known, List.map_append] at this
      exact this.of_append_left
    exact filter_eq_singleton (·.id) hnodup hentry
  · intro runId entry hmem
    obtain ⟨hentry, rfl⟩ := ha.polled runId entry hmem
    obtain ⟨i, stage, hcall, -⟩ := hl.called entry (tasks_subset_known hentry)
    refine ⟨i, stage, hcall, ?_⟩
    intro j c hj hid
    exact hl.call_unique hadds hj hcall hid

/-- Two adds that overtake each other, a wake from inside a poll, and the polls that follow. -/
def overtakingAdds : List (Action Nat) :=
  [.fetchAdd 7, .fetchAdd 8, .enqueueTask 1, .enqueueId 1, .iterate, .iterate, .enqueueTask 0,
    .iterate, .iterate, .iterate, .wake ⟨1⟩, .enqueueId 0, .pollReturn .pending, .iterate,
    .iterate, .iterate, .pollReturn .ready, .iterate]

theorem polls_faithful_overtakingAdds :
    ∃ k, run step Kernel.setup overtakingAdds = some k ∧ k.calls.length < 2 ^ 64 ∧
      polledIds k.history = [⟨1⟩, ⟨1⟩] ∧ k.inHand = [⟨0⟩] ∧ Faithful k :=
  ⟨_, rfl, by decide, by decide, by decide, polls_faithful overtakingAdds _ rfl (by decide)⟩

end Rucoonos.Executor
