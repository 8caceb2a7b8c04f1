/-
Programs that leave a trace, and iterators made of them.

A program here returns a value or stops with an error, and in both cases leaves the
trace of what it touched on its way.  An iterator is a function `next` from a state to
such a program, which returns an element and the next state or `none` at the end, and
`collect` calls it so many times.

`Yields` follows an iterator from element to element up to its end, and says what
`collect` returns from it.  `Complete` is what one wants of an iterator whose data cannot
be trusted: it never stops with a certain error, it comes to an end, and it touches only
what it may.  The lemmas about it follow a single call of `next`: nothing is left, an
element is returned, an error stops it, or it returns to the state it was in.
-/
import Mathlib.Data.List.Basic

/-- What a program returned and what it touched. -/
structure Traced (ε τ α : Type) where
  result : Except ε α
  trace : List τ

namespace Traced

variable {ε τ α β S : Type}

instance : Monad (Traced ε τ) where
  pure x := ⟨.ok x, []⟩
  bind m f :=
    match m.result with
    | .ok x => ⟨(f x).result, m.trace ++ (f x).trace⟩
    | .error e => ⟨.error e, m.trace⟩

def stop (e : ε) : Traced ε τ α := ⟨.error e, []⟩

@[simp] theorem pure_eq (x : α) : (pure x : Traced ε τ α) = ⟨.ok x, []⟩ := rfl

@[simp] theorem ok_bind (x : α) (trace : List τ) (f : α → Traced ε τ β) :
    ((⟨.ok x, trace⟩ : Traced ε τ α) >>= f) = ⟨(f x).result, trace ++ (f x).trace⟩ := rfl

@[simp] theorem error_bind (e : ε) (trace : List τ) (f : α → Traced ε τ β) :
    ((⟨.error e, trace⟩ : Traced ε τ α) >>= f) = ⟨.error e, trace⟩ := rfl

theorem eq_of_result {m : Traced ε τ α} {r : Except ε α} (h : m.result = r) : m = ⟨r, m.trace⟩ := by
  rw [← h]

/-- Call `next` until nothing is left; `none` if that many calls are not enough. -/
def collect (next : S → Traced ε τ (Option (α × S))) : Nat → S → Traced ε τ (Option (List α))
  | 0, _ => pure none
  | fuel + 1, s => do
      match ← next s with
      | none => pure (some [])
      | some (x, s') => do
          let rest ← collect next fuel s'
          pure (rest.map (x :: ·))

/-- The iterator never stops with `e`, comes to an end, and touches only what `P` allows. -/
structure Complete (next : S → Traced ε τ (Option (α × S))) (e : ε) (P : τ → Prop) (s : S) :
    Prop where
  never : ∀ fuel, (collect next fuel s).result ≠ .error e
  ends : ∃ fuel xs, (collect next fuel s).result = .ok (some xs)
  within : ∀ fuel, ∀ t ∈ (collect next fuel s).trace, P t

section Rules

variable {next : S → Traced ε τ (Option (α × S))} {e : ε} {P : τ → Prop} {s s' : S} {x : α}
  {trace : List τ}

theorem collect_of_none (h : next s = ⟨.ok none, trace⟩) (fuel : Nat) :
    collect next (fuel + 1) s = ⟨.ok (some []), trace⟩ := by
  rw [collect, h, ok_bind, pure_eq, List.append_nil]

theorem collect_of_error (h : next s = ⟨.error e, trace⟩) (fuel : Nat) :
    collect next (fuel + 1) s = ⟨.error e, trace⟩ := by
  rw [collect, h, error_bind]

theorem collect_of_some (h : next s = ⟨.ok (some (x, s')), trace⟩) (fuel : Nat) :
    collect next (fuel + 1) s =
      ⟨(collect next fuel s').result.map (Option.map (x :: ·)),
        trace ++ (collect next fuel s').trace⟩ := by
  rw [collect, h, ok_bind]
  dsimp only
  generalize collect next fuel s' = m
  obtain ⟨result, rest⟩ := m
  cases result with
  | error e => rfl
  | ok xs =>
      rw [ok_bind, pure_eq, List.append_nil]
      rfl

/-- The iteration ends if it ends behind the first element. -/
theorem collect_of_some_eq_ok (h : next s = ⟨.ok (some (x, s')), trace⟩) {fuel : Nat} {xs : List α} :
    (collect next (fuel + 1) s).result = .ok (some xs) ↔
      ∃ rest, (collect next fuel s').result = .ok (some rest) ∧ x :: rest = xs := by
  rw [collect_of_some h]
  cases (collect next fuel s').result with
  | error e => simp [Except.map]
  | ok rest =>
      cases rest with
      | none => simp [Except.map]
      | some rest => simp [Except.map]

/-- It fails if it fails behind the first element. -/
theorem collect_of_some_eq_error (h : next s = ⟨.ok (some (x, s')), trace⟩) {fuel : Nat} :
    (collect next (fuel + 1) s).result = .error e ↔ (collect next fuel s').result = .error e := by
  rw [collect_of_some h]
  cases (collect next fuel s').result with
  | error e => simp [Except.map]
  | ok rest => simp [Except.map]

/-- The iterator returns these elements one after the other, and then nothing. -/
inductive Yields (next : S → Traced ε τ (Option (α × S))) : S → List α → Prop
  | done {s : S} {trace : List τ} (h : next s = ⟨.ok none, trace⟩) : Yields next s []
  | item {s s' : S} {x : α} {xs : List α} {trace : List τ}
      (h : next s = ⟨.ok (some (x, s')), trace⟩) (hrest : Yields next s' xs) :
      Yields next s (x :: xs)

/-- One call more than there are elements, and they are all returned. -/
theorem Yields.collect_eq {xs : List α} (h : Yields next s xs) : ∀ fuel,
    (collect next fuel s).result = .ok (if xs.length < fuel then some xs else none) := by
  induction h with
  | done h =>
      intro fuel
      cases fuel with
      | zero => rfl
      | succ fuel => rw [collect_of_none h, List.length_nil, if_pos (Nat.succ_pos fuel)]
  | @item s s' x xs trace h _ ih =>
      intro fuel
      cases fuel with
      | zero => rfl
      | succ fuel =>
          rw [collect_of_some h, ih fuel, List.length_cons]
          by_cases hlt : xs.length < fuel
          · rw [if_pos hlt, if_pos (Nat.succ_lt_succ hlt)]
            rfl
          · rw [if_neg hlt, if_neg (fun hc => hlt (Nat.lt_of_succ_lt_succ hc))]
            rfl

theorem Yields.collect {xs : List α} (h : Yields next s xs) {fuel : Nat} (hfuel : xs.length < fuel) :
    (collect next fuel s).result = .ok (some xs) := by
  rw [h.collect_eq, if_pos hfuel]

/-- However often it is called, it returns nothing else. -/
theorem Yields.eq_of_collect {xs ys : List α} (h : Yields next s xs) {fuel : Nat}
    (hcollect : (Traced.collect next fuel s).result = .ok (some ys)) : ys = xs := by
  rw [h.collect_eq] at hcollect
  by_cases hlt : xs.length < fuel
  · rw [if_pos hlt] at hcollect
    cases hcollect
    rfl
  · rw [if_neg hlt] at hcollect
    cases hcollect

/-- An iterator that comes to its end is complete, whatever it touches. -/
theorem Yields.complete {xs : List α} (h : Yields next s xs) :
    Complete next e (fun _ => True) s := by
  refine ⟨fun fuel hfuel => ?_, ⟨xs.length + 1, xs, h.collect (Nat.lt_succ_self _)⟩,
    fun _ _ _ => trivial⟩
  rw [h.collect_eq] at hfuel
  cases hfuel

theorem complete_of_none (h : next s = ⟨.ok none, trace⟩) :
    Complete next e P s ↔ ∀ t ∈ trace, P t := by
  constructor
  · intro hs
    have hwithin := hs.within 1
    rwa [collect_of_none h] at hwithin
  · intro htrace
    refine ⟨fun fuel => ?_, ⟨1, [], by rw [collect_of_none h]⟩, fun fuel => ?_⟩
    · cases fuel with
      | zero => simp [collect]
      | succ fuel => simp [collect_of_none h]
    · cases fuel with
      | zero => simp [collect]
      | succ fuel =>
          rw [collect_of_none h]
          exact htrace

theorem complete_of_some (h : next s = ⟨.ok (some (x, s')), trace⟩) :
    Complete next e P s ↔ (∀ t ∈ trace, P t) ∧ Complete next e P s' := by
  constructor
  · intro hs
    refine ⟨fun t ht => ?_, fun fuel hfuel => ?_, ?_, fun fuel t ht => ?_⟩
    · have hwithin := hs.within 1 t
      rw [collect_of_some h] at hwithin
      exact hwithin (List.mem_append_left _ ht)
    · exact hs.never (fuel + 1) ((collect_of_some_eq_error h).mpr hfuel)
    · obtain ⟨fuel, xs, hends⟩ := hs.ends
      cases fuel with
      | zero => cases hends
      | succ fuel =>
          obtain ⟨rest, hrest, -⟩ := (collect_of_some_eq_ok h).mp hends
          exact ⟨fuel, rest, hrest⟩
    · have hwithin := hs.within (fuel + 1) t
      rw [collect_of_some h] at hwithin
      exact hwithin (List.mem_append_right _ ht)
  · rintro ⟨htrace, hs'⟩
    refine ⟨fun fuel hfuel => ?_, ?_, fun fuel t ht => ?_⟩
    · cases fuel with
      | zero => cases hfuel
      | succ fuel => exact hs'.never fuel ((collect_of_some_eq_error h).mp hfuel)
    · obtain ⟨fuel, xs, hends⟩ := hs'.ends
      exact ⟨fuel + 1, x :: xs, (collect_of_some_eq_ok h).mpr ⟨xs, hends, rfl⟩⟩
    · cases fuel with
      | zero => cases ht
      | succ fuel =>
          rw [collect_of_some h] at ht
          exact (List.mem_append.mp ht).elim (htrace t) (hs'.within fuel t)

theorem not_complete_of_error {e' : ε} (h : next s = ⟨.error e', trace⟩) :
    ¬ Complete next e P s := by
  intro hs
  obtain ⟨fuel, xs, hends⟩ := hs.ends
  cases fuel with
  | zero => cases hends
  | succ fuel =>
      rw [collect_of_error h] at hends
      cases hends

/-- An iterator that is back where it was goes on forever. -/
theorem collect_of_loop (h : next s = ⟨.ok (some (x, s)), trace⟩) :
    ∀ fuel, (collect next fuel s).result = .ok none := by
  intro fuel
  induction fuel with
  | zero => rfl
  | succ fuel ih =>
      rw [collect_of_some h, ih]
      rfl

theorem not_complete_of_loop (h : next s = ⟨.ok (some (x, s)), trace⟩) :
    ¬ Complete next e P s := by
  intro hs
  obtain ⟨fuel, xs, hends⟩ := hs.ends
  rw [collect_of_loop h] at hends
  cases hends

end Rules

end Traced
