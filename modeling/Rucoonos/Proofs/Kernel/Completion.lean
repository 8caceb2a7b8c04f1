/-
Polling a task that has completed.

`Kernel::run` throws the result of a poll away: a task that returned `Poll::Ready`
stays in `tasks`, and the next id of it that comes off the run queue polls its future
again.  So nothing but the wakers stands between a completed task and another poll.

What is shown here is that they are enough.  If a task is never woken after its poll
returned `Ready`, and nothing of it was pending on the run queue when it did, the
kernel never polls it again.  If an id of it is pending, the kernel may poll it again;
`wokenWhileCompleting` is a run in which it does.
-/
import Rucoonos.Proofs.Kernel.Executor

namespace Rucoonos.Executor

open Lts

variable {F : Type} {k k' : Kernel F}

/-- The later event polls the task whose poll returned `Poll::Ready` in the earlier one. -/
def repolls : Event F → Event F → Bool
  | .returned entry .ready, .polled _ again => again.id == entry.id
  | _, _ => false

/-- No poll of a task comes after one of its polls returned `Poll::Ready`. -/
def NoPollAfterReady (k : Kernel F) : Prop :=
  k.history.Pairwise fun earlier later => repolls earlier later = false

instance (k : Kernel F) : Decidable (NoPollAfterReady k) :=
  inferInstanceAs (Decidable (List.Pairwise _ _))

/-- The step leaves no id of a completed task on the run queue: a wake is for a task
that has not completed, and a task completes with no wake of it pending. -/
def quietAfterReady (k : Kernel F) : Action F → Bool
  | .wake id => id ∉ completedIds k.history
  | .pollReturn .ready =>
      match k.point with
      | .poll entry => entry.id ∉ k.queue
      | _ => true
  | _ => true

/-! ### Only finished adds are enqueued -/

theorem mem_completedIds {h : List (Event F)} {entry : Task F}
    (hmem : Event.returned entry .ready ∈ h) : entry.id ∈ completedIds h :=
  List.mem_filterMap.mpr ⟨_, hmem, rfl⟩

/-- The return of a poll completes its task if it says so. -/
theorem mem_completedIds_returned {h : List (Event F)} {entry : Task F} {result : Poll}
    {id : TaskID} (hmem : id ∈ completedIds (h ++ [.returned entry result])) :
    id ∈ completedIds h ∨ (id = entry.id ∧ result = .ready) := by
  rw [completedIds_append, List.mem_append] at hmem
  rcases hmem with hmem | hmem
  · exact .inl hmem
  · cases result with
    | ready => exact .inr ⟨by simpa [completedIds] using hmem, rfl⟩
    | pending => simp [completedIds] at hmem

/-- Every id on record belongs to a call of `add_task` that has returned. -/
structure Finished (k : Kernel F) : Prop where
  enqueued : ∀ id ∈ enqueuedIds k.history, ∃ (i : Nat) (t : Task F),
    k.calls[i]? = some ⟨t, .finished⟩ ∧ t.id = id
  woken : ∀ id ∈ k.wakers, id ∈ enqueuedIds k.history
  polling : ∀ entry, k.point = .poll entry → entry.id ∈ enqueuedIds k.history
  completed : ∀ id ∈ completedIds k.history, id ∈ enqueuedIds k.history

theorem setup_finished : Finished (Kernel.setup : Kernel F) := by
  refine ⟨?_, ?_, ?_, ?_⟩ <;> simp [Kernel.setup, enqueuedIds, completedIds]

/-- Moving a call on does not touch the calls that have returned. -/
theorem Finished.set_stage (hf : Finished k) {i : Nat} {task : Task F} {stage₀ : AddStage}
    (hi : k.calls[i]? = some ⟨task, stage₀⟩) (hne : stage₀ ≠ .finished) (stage : AddStage) :
    Finished { k with calls := k.calls.set i ⟨task, stage⟩ } := by
  refine ⟨?_, hf.woken, hf.polling, hf.completed⟩
  intro id hid
  obtain ⟨j, t, hj, ht⟩ := hf.enqueued id hid
  have hij : i ≠ j := by
    rintro rfl
    rw [hi, Option.some.injEq, AddCall.mk.injEq] at hj
    exact hne hj.2
  refine ⟨j, t, ?_, ht⟩
  show (k.calls.set i _)[j]? = _
  rw [List.getElem?_set_ne hij]
  exact hj

/-- The id of a call that has returned may go on the run queue. -/
theorem Finished.enqueue (hf : Finished k) {i : Nat} {t : Task F}
    (hcall : k.calls[i]? = some ⟨t, .finished⟩) : Finished (k.enqueue t.id) := by
  have henq : enqueuedIds (k.enqueue t.id).history = enqueuedIds k.history ++ [t.id] := by
    simp [Kernel.enqueue, enqueuedIds]
  have hcomp : completedIds (k.enqueue t.id).history = completedIds k.history := by
    simp [Kernel.enqueue, completedIds]
  refine ⟨?_, ?_, ?_, ?_⟩
  · intro id hid
    rw [henq, List.mem_append, List.mem_singleton] at hid
    rcases hid with hid | rfl
    · exact hf.enqueued id hid
    · exact ⟨i, t, hcall, rfl⟩
  · intro id hid
    rw [henq]
    exact List.mem_append_left _ (hf.woken id hid)
  · intro entry hp
    rw [henq]
    exact List.mem_append_left _ (hf.polling entry hp)
  · intro id hid
    rw [henq]
    rw [hcomp] at hid
    exact List.mem_append_left _ (hf.completed id hid)

theorem step_finished {a : Action F} (h : Step k a k') (hk : Sound k) (hf : Finished k) :
    Finished k' := by
  cases h with
  | fetchAdd fut =>
      refine ⟨?_, hf.woken, hf.polling, hf.completed⟩
      intro id hid
      obtain ⟨i, t, hcall, ht⟩ := hf.enqueued id hid
      refine ⟨i, t, ?_, ht⟩
      show (k.calls ++ [_])[i]? = _
      rw [List.getElem?_append_left (List.getElem?_eq_some_iff.mp hcall).1]
      exact hcall
  | enqueueTask i task hcall =>
      obtain ⟨henq, hwoken, hpolling, hcomp⟩ := hf.set_stage hcall (by simp) .added
      exact ⟨henq, hwoken, hpolling, hcomp⟩
  | enqueueId i task hcall =>
      have hlt : i < k.calls.length := (List.getElem?_eq_some_iff.mp hcall).1
      exact (hf.set_stage hcall (by simp) .finished).enqueue (List.getElem?_set_self hlt)
  | wake id hwaker =>
      obtain ⟨i, t, hcall, rfl⟩ := hf.enqueued id (hf.woken id hwaker)
      exact hf.enqueue hcall
  | dequeue runId rest hpoint hqueue =>
      exact ⟨hf.enqueued, hf.woken, (fun _ hp => by cases hp), hf.completed⟩
  | drain runId task rest hpoint hadd =>
      exact ⟨hf.enqueued, hf.woken, hf.polling, hf.completed⟩
  | drained runId hpoint hadd =>
      exact ⟨hf.enqueued, hf.woken, (fun _ hp => by cases hp), hf.completed⟩
  | poll runId entry hpoint hfind =>
      have hid : entry.id = runId := by simpa using List.find?_some hfind
      have hmem : entry.id ∈ enqueuedIds k.history := by
        rw [← hk.account.order, hid]
        simp [Kernel.inHand, hpoint]
      have henq : enqueuedIds (k.history ++ [Event.polled runId entry])
          = enqueuedIds k.history := by simp [enqueuedIds]
      have hcomp : completedIds (k.history ++ [Event.polled runId entry])
          = completedIds k.history := by simp [completedIds]
      refine ⟨?_, ?_, ?_, ?_⟩ <;> simp only [henq, hcomp]
      · exact hf.enqueued
      · intro id hid'
        rcases List.mem_append.mp hid' with hid' | hid'
        · exact hf.woken id hid'
        · rw [List.mem_singleton.mp hid']
          exact hmem
      · intro e he
        rw [Point.poll.injEq] at he
        rw [← he]
        exact hmem
      · exact hf.completed
  | unavailable runId hpoint hfind => exact absurd hfind (hk.supplied.find hpoint)
  | pollReturn entry result hpoint =>
      have henq : enqueuedIds (k.history ++ [Event.returned entry result])
          = enqueuedIds k.history := by simp [enqueuedIds]
      refine ⟨?_, ?_, (fun _ hp => by cases hp), ?_⟩ <;> simp only [henq]
      · exact hf.enqueued
      · exact hf.woken
      · intro id hid
        rcases mem_completedIds_returned hid with hid | ⟨rfl, -⟩
        · exact hf.completed id hid
        · exact hf.polling entry hpoint

/-! ### A completed task is nowhere under way -/

/-- No id of a completed task is on the run queue or in the kernel's hand, and none has
been polled since. -/
structure Settled (k : Kernel F) : Prop where
  queue : ∀ id ∈ completedIds k.history, id ∉ k.queue
  inHand : ∀ id ∈ completedIds k.history, id ∉ k.inHand
  history : NoPollAfterReady k

theorem setup_settled : Settled (Kernel.setup : Kernel F) := by
  refine ⟨?_, ?_, ?_⟩ <;> simp [Kernel.setup, completedIds, NoPollAfterReady]

/-- A poll extends the history when its task has not completed; other events always do. -/
theorem noPoll_append {event : Event F} {h : List (Event F)}
    (hpair : h.Pairwise fun earlier later => repolls earlier later = false)
    (hev : ∀ runId again, event = .polled runId again → again.id ∉ completedIds h) :
    (h ++ [event]).Pairwise fun earlier later => repolls earlier later = false := by
  rw [List.pairwise_append]
  refine ⟨hpair, List.pairwise_singleton _ _, ?_⟩
  intro earlier hmem later hlater
  rw [List.mem_singleton] at hlater
  subst hlater
  unfold repolls
  split
  · rename_i entry runId again
    have hnot := hev runId again rfl
    have hdone : entry.id ∈ completedIds h := mem_completedIds hmem
    simp only [beq_eq_false_iff_ne, ne_eq]
    intro hid
    exact hnot (by rw [hid]; exact hdone)
  · rfl

/-- Only an id that names no completed task may be enqueued. -/
theorem Settled.enqueue (hq : Settled k) {id : TaskID} (hid : id ∉ completedIds k.history) :
    Settled (k.enqueue id) := by
  have hcomp : completedIds (k.enqueue id).history = completedIds k.history := by
    simp [Kernel.enqueue, completedIds]
  refine ⟨?_, ?_, ?_⟩
  · rw [hcomp]
    intro id' hid' hmem
    rcases List.mem_append.mp hmem with hmem | hmem
    · exact hq.queue id' hid' hmem
    · rw [List.mem_singleton.mp hmem] at hid'
      exact hid hid'
  · rw [hcomp]
    exact hq.inHand
  · exact noPoll_append hq.history (fun _ _ hp => by cases hp)

theorem step_settled {a : Action F} (h : Step k a k') (hlt : k.calls.length < 2 ^ 64)
    (hk : Sound k) (hf : Finished k) (hquiet : quietAfterReady k a = true) (hq : Settled k) :
    Settled k' := by
  cases h with
  | fetchAdd fut => exact ⟨hq.queue, hq.inHand, hq.history⟩
  | enqueueTask i task hcall => exact ⟨hq.queue, hq.inHand, hq.history⟩
  | enqueueId i task hcall =>
      refine Settled.enqueue (k := { k with calls := k.calls.set i ⟨task, .finished⟩ })
        ⟨hq.queue, hq.inHand, hq.history⟩ ?_
      -- A completed task's call has returned, and this one is about to.
      intro hmem
      obtain ⟨j, t, hj, hid⟩ := hf.enqueued task.id (hf.completed task.id hmem)
      have hji : j = i := hk.ledger.call_unique hlt hj hcall hid
      subst hji
      rw [hcall, Option.some.injEq, AddCall.mk.injEq] at hj
      exact AddStage.noConfusion hj.2
  | wake id hwaker => exact hq.enqueue (by simpa [quietAfterReady] using hquiet)
  | dequeue runId rest hpoint hqueue =>
      refine ⟨?_, ?_, hq.history⟩
      · intro id hid hmem
        exact hq.queue id hid (by rw [hqueue]; exact List.mem_cons_of_mem _ hmem)
      · intro id hid hmem
        rw [Kernel.inHand, List.mem_singleton] at hmem
        exact hq.queue id hid (by rw [hqueue, hmem]; exact List.mem_cons_self)
  | drain runId task rest hpoint hadd =>
      refine ⟨hq.queue, ?_, hq.history⟩
      intro id hid
      exact hq.inHand id hid
  | drained runId hpoint hadd =>
      refine ⟨hq.queue, ?_, hq.history⟩
      intro id hid hmem
      exact hq.inHand id hid (by simpa [Kernel.inHand, hpoint] using hmem)
  | poll runId entry hpoint hfind =>
      have hid : entry.id = runId := by simpa using List.find?_some hfind
      have hcomp : completedIds (k.history ++ [Event.polled runId entry])
          = completedIds k.history := by simp [completedIds]
      refine ⟨?_, ?_, ?_⟩
      · simp only [hcomp]
        exact hq.queue
      · intro id' _ hmem
        simp [Kernel.inHand] at hmem
      · refine noPoll_append hq.history ?_
        rintro r again heq
        rw [Event.polled.injEq] at heq
        rw [← heq.2, hid]
        intro hmem
        exact hq.inHand runId hmem (by simp [Kernel.inHand, hpoint])
  | unavailable runId hpoint hfind => exact absurd hfind (hk.supplied.find hpoint)
  | pollReturn entry result hpoint =>
      refine ⟨?_, ?_, ?_⟩
      · intro id hid
        rcases mem_completedIds_returned hid with hid | ⟨rfl, rfl⟩
        · exact hq.queue id hid
        · simpa [quietAfterReady, hpoint] using hquiet
      · intro id _ hmem
        simp [Kernel.inHand] at hmem
      · exact noPoll_append hq.history (fun _ _ hp => by cases hp)

/--
**Quiet runs never poll a completed task.**  In every run with fewer than 2^64 adds in
which no task is woken after its poll returned `Ready`, and none has a wake pending
when it does, no poll comes after completion.
-/
theorem quiet_no_poll_after_ready (acts : List (Action F)) (k : Kernel F)
    (hrun : run step Kernel.setup acts = some k) (hadds : k.calls.length < 2 ^ 64)
    (hquiet : StepsMeet step (fun k a => quietAfterReady k a = true) Kernel.setup acts) :
    NoPollAfterReady k := by
  have hkeep : ∀ (k : Kernel F) (a : Action F) (k' : Kernel F),
      (k.calls.length < 2 ^ 64 → Sound k ∧ Finished k ∧ Settled k) →
      quietAfterReady k a = true → step k a = some k' →
        k'.calls.length < 2 ^ 64 → Sound k' ∧ Finished k' ∧ Settled k' := by
    intro k a k' ih hmeet hstep hlt'
    have hst := step_sound hstep
    have hlt : k.calls.length < 2 ^ 64 := Nat.lt_of_le_of_lt (step_calls_length hst) hlt'
    obtain ⟨hk, hf, hq⟩ := ih hlt
    exact ⟨step_sound_inv hstep hlt' hk, step_finished hst hk hf,
      step_settled hst hlt hk hf hmeet hq⟩
  have halong := along_of_stepsMeet hkeep
    (fun _ => ⟨setup_sound, setup_finished, setup_settled⟩) hquiet
  exact (halong.last hrun hadds).2.2.history

/-- One task that is polled, woken, polled again, and completes. -/
def wokenOnce : List (Action Nat) :=
  [.fetchAdd 7, .enqueueTask 0, .enqueueId 0, .iterate, .iterate, .iterate, .iterate,
    .wake ⟨0⟩, .pollReturn .pending, .iterate, .iterate, .iterate, .pollReturn .ready]

theorem quiet_no_poll_after_ready_wokenOnce :
    ∃ k, run step Kernel.setup wokenOnce = some k ∧ completedIds k.history = [⟨0⟩] ∧
      NoPollAfterReady k :=
  ⟨_, rfl, by decide, quiet_no_poll_after_ready wokenOnce _ rfl (by decide) (by decide)⟩

/-- One task that wakes itself in the poll that completes it. -/
def wokenWhileCompleting : List (Action Nat) :=
  [.fetchAdd 7, .enqueueTask 0, .enqueueId 0, .iterate, .iterate, .iterate, .iterate,
    .wake ⟨0⟩, .pollReturn .ready, .iterate, .iterate, .iterate]

/-- **The kernel polls a completed task.** -/
theorem repoll :
    ∃ k, run step Kernel.setup wokenWhileCompleting = some k ∧ k.calls.length < 2 ^ 64 ∧
      ¬ NoPollAfterReady k :=
  ⟨_, rfl, by decide, by decide⟩

end Rucoonos.Executor
