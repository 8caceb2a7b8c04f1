/-
Runs of a step function, and what holds along them.

A system is a partial step function `step : S → A → Option S`: the action carries
every choice the environment makes, so a run is nothing but a list of actions, and
a concrete run can be evaluated.

Two things are said about runs here.  `Along` is a property of every state a run
passes through.  `StepsMeet` is a condition on every step it takes, read in the
state before the step.  The rules below turn one step lemma into a statement about
whole runs: `along_of_step` for an invariant nothing can break, and
`along_iff_stepsMeet` for one that a step breaks exactly when it misses the
condition.  `countP_add_le` bounds how many steps of a kind a run takes by a measure, and
`length_add_le_of_decreases` the length of runs.
-/
import Mathlib.Data.List.Basic
import Mathlib.Data.List.Infix

namespace Lts

variable {S A : Type}

/-- Take the actions one after another; `none` once one of them is not enabled. -/
def run (step : S → A → Option S) : S → List A → Option S
  | s, [] => some s
  | s, a :: rest => (step s a).bind fun mid => run step mid rest

@[simp] theorem run_nil (step : S → A → Option S) (s : S) : run step s [] = some s := rfl

@[simp] theorem run_cons (step : S → A → Option S) (s : S) (a : A) (rest : List A) :
    run step s (a :: rest) = (step s a).bind fun mid => run step mid rest := rfl

theorem run_append (step : S → A → Option S) (as bs : List A) :
    ∀ s, run step s (as ++ bs) = (run step s as).bind fun mid => run step mid bs := by
  induction as with
  | nil => intro s; rfl
  | cons a rest ih =>
      intro s
      rw [List.cons_append, run_cons, run_cons]
      cases step s a with
      | none => rfl
      | some mid => exact ih mid

/-- The last step of a run, taken from the state the rest of it reaches. -/
theorem run_snoc {step : S → A → Option S} {s s' : S} {as : List A} {a : A} :
    run step s (as ++ [a]) = some s' ↔
      ∃ mid, run step s as = some mid ∧ step mid a = some s' := by
  rw [run_append, Option.bind_eq_some_iff]
  simp only [run_cons, run_nil, Option.bind_fun_some]

/-- `P` holds in every state the run passes through, its first and last included. -/
def Along (step : S → A → Option S) (P : S → Prop) (s : S) (as : List A) : Prop :=
  ∀ pre, pre <+: as → ∀ s', run step s pre = some s' → P s'

/-- Every step the run takes meets `C` in the state before it. -/
def StepsMeet (step : S → A → Option S) (C : S → A → Prop) (s : S) (as : List A) : Prop :=
  ∀ pre a, pre ++ [a] <+: as → ∀ s₁ s₂, run step s pre = some s₁ → step s₁ a = some s₂ → C s₁ a

theorem stepsMeet_nil (step : S → A → Option S) (C : S → A → Prop) (s : S) :
    StepsMeet step C s [] := by
  intro pre a hpre
  simp at hpre

/-- The condition of the first step, and then of the rest of the run. -/
theorem stepsMeet_cons {step : S → A → Option S} {C : S → A → Prop} {s : S} {a : A}
    {rest : List A} : StepsMeet step C s (a :: rest) ↔
      ∀ s', step s a = some s' → C s a ∧ StepsMeet step C s' rest := by
  constructor
  · intro h s' hs'
    refine ⟨h [] a (by simp) s s' rfl hs', ?_⟩
    intro pre b hpre s₁ s₂ hrun hlast
    refine h (a :: pre) b ?_ s₁ s₂ ?_ hlast
    · rw [List.cons_append, List.cons_prefix_cons]
      exact ⟨rfl, hpre⟩
    · rw [run_cons, hs']
      exact hrun
  · intro h pre b hpre s₁ s₂ hrun hlast
    cases pre with
    | nil =>
        rw [List.nil_append, List.cons_prefix_cons] at hpre
        obtain ⟨rfl, -⟩ := hpre
        rw [run_nil, Option.some.injEq] at hrun
        subst hrun
        exact (h s₂ hlast).1
    | cons c pre =>
        rw [List.cons_append, List.cons_prefix_cons] at hpre
        obtain ⟨rfl, hpre⟩ := hpre
        rw [run_cons, Option.bind_eq_some_iff] at hrun
        obtain ⟨mid, hmid, hrun⟩ := hrun
        exact (h mid hmid).2 pre b hpre s₁ s₂ hrun hlast

/-- The condition can be checked by running. -/
instance decidableStepsMeet (step : S → A → Option S) (C : S → A → Prop)
    [∀ s a, Decidable (C s a)] : ∀ s as, Decidable (StepsMeet step C s as)
  | s, [] => isTrue (stepsMeet_nil step C s)
  | s, a :: rest =>
      match hs : step s a with
      | none => isTrue (stepsMeet_cons.mpr (fun s' hs' => by rw [hs] at hs'; cases hs'))
      | some mid =>
          have : Decidable (StepsMeet step C mid rest) := decidableStepsMeet step C mid rest
          decidable_of_iff (C s a ∧ StepsMeet step C mid rest) (by
            rw [stepsMeet_cons]
            constructor
            · intro h s' hs'
              rw [hs, Option.some.injEq] at hs'
              rw [← hs']
              exact h
            · intro h
              exact h mid hs)

section Rules

variable {step : S → A → Option S} {Inv P : S → Prop} {C : S → A → Prop} {s : S} {as : List A}

/-- The last state of a run is one of those it passes through. -/
theorem Along.last (h : Along step P s as) {s' : S} (hrun : run step s as = some s') : P s' :=
  h as (List.prefix_refl as) s' hrun

theorem Along.mono {Q : S → Prop} (himp : ∀ s, P s → Q s) (h : Along step P s as) :
    Along step Q s as :=
  fun pre hpre s' hrun => himp s' (h pre hpre s' hrun)

/-- What holds of every step from a state with `P` holds of the steps of a run where `P` never
fails. -/
theorem Along.stepsMeet (himp : ∀ s a, P s → C s a) (h : Along step P s as) :
    StepsMeet step C s as := by
  intro pre a hpre s₁ s₂ hrun _
  exact himp s₁ a (h pre ((List.prefix_append pre [a]).trans hpre) s₁ hrun)

/--
**The invariant rule.**  What holds at the start and survives every step that meets
`C` holds along every run whose steps all meet `C`.
-/
theorem along_of_stepsMeet
    (hstep : ∀ s a s', Inv s → C s a → step s a = some s' → Inv s')
    (hinit : Inv s) (hmeet : StepsMeet step C s as) : Along step Inv s as := by
  intro pre
  -- The induction is on the run read from its end: the last step is the one whose
  -- condition is at hand.
  induction pre using List.reverseRecOn with
  | nil =>
      intro _ s' hrun
      rw [run_nil, Option.some.injEq] at hrun
      rw [← hrun]
      exact hinit
  | append_singleton pre a ih =>
      intro hpre s' hrun
      obtain ⟨mid, hmid, hlast⟩ := run_snoc.mp hrun
      have hInv : Inv mid := ih ((List.prefix_append pre [a]).trans hpre) mid hmid
      exact hstep mid a s' hInv (hmeet pre a hpre mid s' hmid hlast) hlast

/-- The same for an invariant that no step can break. -/
theorem along_of_step (hstep : ∀ s a s', Inv s → step s a = some s' → Inv s')
    (hinit : Inv s) (as : List A) : Along step Inv s as :=
  along_of_stepsMeet (C := fun _ _ => True) (fun s a s' h _ => hstep s a s' h) hinit
    (fun _ _ _ _ _ _ _ => trivial)

/-- An invariant that no step can break holds in the state a run ends in. -/
theorem run_invariant (hstep : ∀ s a s', Inv s → step s a = some s' → Inv s')
    (hinit : Inv s) {s' : S} (hrun : run step s as = some s') : Inv s' :=
  (along_of_step hstep hinit as).last hrun

/--
**The exact rule.**  If steps that meet `C` keep the invariant, the invariant gives
`P`, and a step that misses `C` leaves a state where `P` fails, then `P` holds along
a run exactly when all of its steps meet `C`.
-/
theorem along_iff_stepsMeet
    (hstep : ∀ s a s', Inv s → C s a → step s a = some s' → Inv s')
    (hP : ∀ s, Inv s → P s)
    (hbad : ∀ s a s', Inv s → ¬ C s a → step s a = some s' → ¬ P s')
    (hinit : Inv s) : Along step P s as ↔ StepsMeet step C s as := by
  constructor
  · intro hP' pre
    -- Along a run where `P` never fails no step can have missed `C`, so the invariant
    -- is still there when the next step is taken.
    have key : ∀ pre, pre <+: as → ∀ s₁, run step s pre = some s₁ → Inv s₁ := by
      intro pre
      induction pre using List.reverseRecOn with
      | nil =>
          intro _ s₁ hrun
          rw [run_nil, Option.some.injEq] at hrun
          rw [← hrun]
          exact hinit
      | append_singleton pre a ih =>
          intro hpre s₁ hrun
          obtain ⟨mid, hmid, hlast⟩ := run_snoc.mp hrun
          have hInv : Inv mid := ih ((List.prefix_append pre [a]).trans hpre) mid hmid
          refine hstep mid a s₁ hInv ?_ hlast
          by_contra hC
          exact hbad mid a s₁ hInv hC hlast (hP' _ hpre s₁ hrun)
    intro a hpre s₁ s₂ hrun hlast
    have hInv : Inv s₁ := key pre ((List.prefix_append pre [a]).trans hpre) s₁ hrun
    by_contra hC
    exact hbad s₁ a s₂ hInv hC hlast (hP' _ hpre s₂ (run_snoc.mpr ⟨s₁, hrun, hlast⟩))
  · intro hmeet
    exact (along_of_stepsMeet hstep hinit hmeet).mono hP

/--
**The accounting rule.**  Every step that meets `C` and is counted makes `μ` smaller, except
that a step which is paid for may make up for one.  Then a run has no more counted steps
than `μ` and the paid ones allow.
-/
theorem countP_add_le (μ : S → Nat) (counted paid : A → Bool)
    (hstep : ∀ s a s', Inv s → step s a = some s' → Inv s')
    (hless : ∀ s a s', Inv s → C s a → step s a = some s' →
      μ s' + (if counted a then 1 else 0) ≤ μ s + if paid a then 1 else 0) :
    ∀ (as : List A) (s s' : S), Inv s → StepsMeet step C s as → run step s as = some s' →
      as.countP counted + μ s' ≤ μ s + as.countP paid := by
  intro as
  induction as with
  | nil =>
      intro s s' _ _ hrun
      rw [run_nil, Option.some.injEq] at hrun
      rw [hrun, List.countP_nil, List.countP_nil, Nat.zero_add, Nat.add_zero]
  | cons a rest ih =>
      intro s s' hInv hmeet hrun
      rw [run_cons, Option.bind_eq_some_iff] at hrun
      obtain ⟨mid, hmid, hrest⟩ := hrun
      obtain ⟨hC, hmeet'⟩ := stepsMeet_cons.mp hmeet mid hmid
      have hlater := ih mid s' (hstep s a mid hInv hmid) hmeet' hrest
      have hfirst := hless s a mid hInv hC hmid
      rw [List.countP_cons, List.countP_cons]
      omega

/--
**The measure rule.**  If every step that meets `C` makes `μ` smaller, a run of such steps
is no longer than `μ` allows.
-/
theorem length_add_le_of_decreases (μ : S → Nat)
    (hstep : ∀ s a s', Inv s → step s a = some s' → Inv s')
    (hless : ∀ s a s', Inv s → C s a → step s a = some s' → μ s' < μ s)
    (as : List A) (s s' : S) (hInv : Inv s) (hmeet : StepsMeet step C s as)
    (hrun : run step s as = some s') : as.length + μ s' ≤ μ s := by
  have hcount :=
    countP_add_le μ (fun _ => true) (fun _ => false) hstep hless as s s' hInv hmeet hrun
  rw [List.countP_true, List.countP_false] at hcount
  exact hcount

end Rules

end Lts
