/-
Every id on the run queue is served in its turn.

The run queue is served from the front and nobody overtakes, so an id with `p` ids before
it is polled for after the `p` polls for those.  What stands between is the loop itself:
four steps for each poll, and one for each task that comes in over the add queue, since the
`while let` takes tasks off it for as long as there are any.  `served_in_turn` counts.

Tasks may be added without end, and then a drain need not end either.  That is all that can
keep an id waiting: the adds are the only steps of others that appear in the bound, and the
kernel is never stuck while an id waits.
-/
import Rucoonos.Proofs.Kernel.Executor

namespace Rucoonos.Executor

open Lts

variable {F : Type} {k k' : Kernel F}

/-- The steps of `Kernel::run`, with the return of the poll it is in. -/
def Action.byKernel : Action F → Bool
  | .iterate | .pollReturn _ => true
  | _ => false

/-- The steps that give the drain something to do. -/
def Action.addsTask : Action F → Bool
  | .enqueueTask _ => true
  | _ => false

/-- The steps from here to the start of the next poll, if the add queue stays empty. -/
def Point.ahead : Point F → Nat
  | .dequeue => 3
  | .drain _ => 2
  | .lookup _ => 1
  | .poll _ => 4

/-- The polls so far. -/
def Kernel.polls (k : Kernel F) : Nat := (polledIds k.history).length

/-- How many steps of the kernel there are to the start of the `n`-th poll, if no more tasks
are added. -/
def Kernel.waitFor (n : Nat) (k : Kernel F) : Nat :=
  if k.polls ≤ n then 4 * (n - k.polls) + k.point.ahead + k.addQueue.length else 0

/-! ### The history only grows -/

theorem step_history {a : Action F} (h : Step k a k') : k.history <+: k'.history := by
  cases h with
  | fetchAdd => exact List.prefix_refl _
  | enqueueTask => exact List.prefix_refl _
  | dequeue => exact List.prefix_refl _
  | drain => exact List.prefix_refl _
  | drained => exact List.prefix_refl _
  | _ => exact List.prefix_append _ _

theorem run_history {acts : List (Action F)} (hrun : run step k acts = some k') :
    k.history <+: k'.history :=
  run_invariant (fun _ _ _ (h : k.history <+: _) hstep => h.trans (step_history (step_sound hstep)))
    (List.prefix_refl _) hrun

theorem polls_mono (h : k.history <+: k'.history) : k.polls ≤ k'.polls :=
  (List.IsPrefix.filterMap _ h).length_le

theorem run_calls {acts : List (Action F)} (hrun : run step k acts = some k') :
    k.calls.length ≤ k'.calls.length :=
  run_invariant (fun _ _ _ (h : k.calls.length ≤ _) hstep =>
    h.trans (step_calls_length (step_sound hstep))) (Nat.le_refl _) hrun

/-! ### One step -/

theorem waitFor_of_le {n : Nat} (hn : k.polls ≤ n) :
    k.waitFor n = 4 * (n - k.polls) + k.point.ahead + k.addQueue.length := if_pos hn

/-- **What a step does to the wait.**  A step of the kernel shortens it by one, an add may
lengthen it by one, and nothing else does. -/
theorem waitFor_step {n : Nat} {a : Action F} (h : Step k a k') (hs : Supplied k)
    (hn : k.polls ≤ n) :
    k'.waitFor n + (if a.byKernel then 1 else 0)
      ≤ k.waitFor n + if a.addsTask then 1 else 0 := by
  have hsame : k'.polls = k.polls →
      k'.waitFor n = 4 * (n - k.polls) + k'.point.ahead + k'.addQueue.length := by
    intro hpolls
    rw [← hpolls] at hn ⊢
    exact waitFor_of_le hn
  rw [waitFor_of_le hn]
  cases h with
  | fetchAdd fut =>
      rw [hsame rfl]
      exact Nat.le_refl _
  | enqueueTask i task hcall =>
      rw [hsame rfl, List.length_append]
      exact Nat.le_refl _
  | enqueueId i task hcall =>
      rw [hsame (by simp [Kernel.polls, Kernel.enqueue, polledIds])]
      exact Nat.le_refl _
  | wake id hwaker =>
      rw [hsame (by simp [Kernel.polls, Kernel.enqueue, polledIds])]
      exact Nat.le_refl _
  | dequeue runId rest hpoint hqueue =>
      rw [hsame rfl, hpoint]
      simp only [Action.byKernel, Action.addsTask, Point.ahead, if_true]
      omega
  | drain runId task rest hpoint hadd =>
      rw [hsame rfl, hadd, List.length_cons]
      exact Nat.le_refl _
  | drained runId hpoint hadd =>
      rw [hsame rfl, hpoint]
      simp only [Action.byKernel, Action.addsTask, Point.ahead, if_true]
      omega
  | poll runId entry hpoint hfind =>
      -- The poll that starts here is one of those that were to come.
      have hpolls : (polledIds (k.history ++ [.polled runId entry])).length = k.polls + 1 := by
        simp [Kernel.polls, polledIds]
      simp only [Kernel.waitFor, Kernel.polls, hpolls, hpoint, Action.byKernel, Action.addsTask,
        Point.ahead, if_true]
      rw [Kernel.polls] at hn
      split
      · omega
      · omega
  | unavailable runId hpoint hfind => exact absurd hfind (hs.find hpoint)
  | pollReturn entry result hpoint =>
      rw [hsame (by simp [Kernel.polls, polledIds]), hpoint]
      simp only [Action.byKernel, Action.addsTask, Point.ahead, if_true]
      omega

/-- The kernel goes on as long as there is an id that it has not polled for. -/
theorem kernel_enabled {n : Nat} (ha : Account k) (hn : k.polls ≤ n)
    (hlt : n < (enqueuedIds k.history).length) :
    ∃ a, a.byKernel = true ∧ (step k a).isSome = true := by
  cases hpoint : k.point with
  | dequeue =>
      refine ⟨.iterate, rfl, ?_⟩
      have horder := congrArg List.length ha.order
      rw [Kernel.inHand, hpoint] at horder
      simp only [List.length_append, List.length_nil] at horder
      cases hqueue : k.queue with
      | nil =>
          rw [hqueue, List.length_nil] at horder
          rw [Kernel.polls] at hn
          omega
      | cons runId rest => simp only [step, Kernel.iterate, hpoint, hqueue, Option.isSome_some]
  | drain runId =>
      refine ⟨.iterate, rfl, ?_⟩
      cases hadd : k.addQueue with
      | nil => simp only [step, Kernel.iterate, hpoint, hadd, Option.isSome_some]
      | cons task rest => simp only [step, Kernel.iterate, hpoint, hadd, Option.isSome_some]
  | lookup runId =>
      refine ⟨.iterate, rfl, ?_⟩
      cases hfind : k.tasks.find? (fun task => task.id == runId) with
      | none => simp only [step, Kernel.iterate, hpoint, hfind, Option.isSome_some]
      | some entry => simp only [step, Kernel.iterate, hpoint, hfind, Option.isSome_some]
  | poll entry =>
      refine ⟨.pollReturn .pending, rfl, ?_⟩
      simp only [step, Kernel.pollReturn, hpoint, Option.isSome_some]

/-! ### Whole runs -/

/--
**Every id is served in its turn.**  Let an id have `p` ids before it on the run queue, after
any run with fewer than 2^64 adds.  However adds, wakes and the kernel go on from there: the
kernel has polled for it, as the poll after those for the ids before it; or it has taken no
more than `4 * (p + 2)` steps and one for each task that was or came on the add queue, and
can take another one.
-/
theorem served_in_turn (acts : List (Action F)) (k : Kernel F)
    (hrun : run step Kernel.setup acts = some k) (p : Nat) (id : TaskID)
    (hp : k.queue[p]? = some id) (more : List (Action F)) (k' : Kernel F)
    (hmore : run step k more = some k') (hadds : k'.calls.length < 2 ^ 64) :
    (polledIds k'.history)[(polledIds k.history).length + k.inHand.length + p]? = some id ∨
      more.countP Action.byKernel
          ≤ 4 * (p + 2) + k.addQueue.length + more.countP Action.addsTask ∧
        ∃ a, a.byKernel = true ∧ (step k' a).isSome = true := by
  have hsound : Sound k := run_sound hrun (Nat.lt_of_le_of_lt (run_calls hmore) hadds)
  have hboth : run step Kernel.setup (acts ++ more) = some k' := by
    rw [run_append, hrun]
    exact hmore
  have hsound' : Sound k' := run_sound hboth hadds
  have hwhere : (enqueuedIds k.history)[k.polls + k.inHand.length + p]? = some id := by
    rw [← hsound.account.order, List.getElem?_append_right (by simp [Kernel.polls]), ← hp]
    congr 1
    simp [Kernel.polls]
  have hwhere' : (enqueuedIds k'.history)[k.polls + k.inHand.length + p]? = some id := by
    obtain ⟨later, hlater⟩ := run_history hmore
    rw [← hlater, enqueuedIds_append,
      List.getElem?_append_left (List.getElem?_eq_some_iff.mp hwhere).1]
    exact hwhere
  by_cases hserved : k'.polls ≤ k.polls + k.inHand.length + p
  · -- Not yet polled for, so not polled for at any step on the way.
    refine .inr ⟨?_, kernel_enabled hsound'.account hserved
      (List.getElem?_eq_some_iff.mp hwhere').1⟩
    have hmeet : StepsMeet step (fun (mid : Kernel F) _ =>
        mid.polls ≤ k.polls + k.inHand.length + p ∧ mid.calls.length < 2 ^ 64) k more := by
      intro pre a hpre mid mid' hpre' hstep
      obtain ⟨rest, rfl⟩ := hpre
      rw [run_append, run_snoc.mpr ⟨mid, hpre', hstep⟩] at hmore
      have hlater : run step mid (a :: rest) = some k' := by
        rw [run_cons, hstep]
        exact hmore
      exact ⟨(polls_mono (run_history hlater)).trans hserved,
        Nat.lt_of_le_of_lt (run_calls hlater) hadds⟩
    have hcount := countP_add_le (Kernel.waitFor (k.polls + k.inHand.length + p))
      Action.byKernel Action.addsTask
      (fun (mid : Kernel F) a mid' (h : mid.calls.length < 2 ^ 64 → Sound mid) hstep hlt =>
        step_sound_inv hstep hlt
          (h (Nat.lt_of_le_of_lt (step_calls_length (step_sound hstep)) hlt)))
      (fun mid a mid' h hC hstep => waitFor_step (step_sound hstep) (h hC.2).supplied hC.1)
      more k k' (fun _ => hsound) hmeet hmore
    have hwait : k.waitFor (k.polls + k.inHand.length + p) ≤ 4 * (p + 2) + k.addQueue.length := by
      rw [waitFor_of_le (by omega)]
      cases hpoint : k.point <;> simp only [Kernel.inHand, hpoint, Point.ahead, List.length_nil,
        List.length_singleton] <;> omega
    omega
  · left
    rw [← hwhere', ← hsound'.account.order, List.append_assoc, List.getElem?_append_left]
    · rfl
    · exact Nat.lt_of_not_le hserved

/-- Two tasks are added. -/
def twoAdded : List (Action Nat) :=
  [.fetchAdd 7, .enqueueTask 0, .enqueueId 0, .fetchAdd 8, .enqueueTask 1, .enqueueId 1]

/-- The first one is polled and woken, and a third one is added; then comes the second. -/
def firstWoken : List (Action Nat) :=
  [.iterate, .iterate, .iterate, .iterate, .iterate, .wake ⟨0⟩, .fetchAdd 9, .enqueueTask 2,
    .pollReturn .pending, .iterate, .iterate, .iterate, .enqueueId 2, .iterate]

theorem served_in_turn_second :
    ∃ k k', run step Kernel.setup twoAdded = some k ∧ k.queue[1]? = some ⟨1⟩ ∧
      run step k firstWoken = some k' ∧ k'.queue = [⟨0⟩, ⟨2⟩] ∧
      ((polledIds k'.history)[(polledIds k.history).length + k.inHand.length + 1]? = some ⟨1⟩ ∨
        firstWoken.countP Action.byKernel
            ≤ 4 * (1 + 2) + k.addQueue.length + firstWoken.countP Action.addsTask ∧
          ∃ a, a.byKernel = true ∧ (step k' a).isSome = true) :=
  ⟨_, _, rfl, rfl, rfl, rfl, served_in_turn twoAdded _ rfl 1 ⟨1⟩ rfl firstWoken _ rfl (by decide)⟩

end Rucoonos.Executor
