/-
Cyclic ranges of a ring of slots.

A ring has `n` slots and is read through two indices, a head and a tail.  `between`
lists what is in the slots from the head up to, not including, the tail.  Equal
indices mean the empty range, so a ring read this way never holds more than `n - 1`
elements; what happens to a ring that is filled up to its head is exactly that its
range becomes empty.

The distance of two indices is written with a case split rather than a remainder, so
that facts about a particular ring are linear arithmetic.
-/
import Mathlib.Data.List.Basic
import Mathlib.Logic.Function.Basic

namespace Ring

variable {α : Type}

/-- How many steps forward lead from slot `i` to slot `j`. -/
def dist (n i j : Nat) : Nat := if i ≤ j then j - i else j + n - i

/-- The contents of `k` slots, the first of them `i`. -/
def window (n : Nat) (f : Nat → α) : Nat → Nat → List α
  | _, 0 => []
  | i, k + 1 => f i :: window n f ((i + 1) % n) k

/-- The contents of the slots from `head` up to, not including, `tail`. -/
def between (n : Nat) (f : Nat → α) (head tail : Nat) : List α :=
  window n f head (dist n head tail)

theorem succ_mod {n i : Nat} (hi : i < n) : (i + 1) % n = if i + 1 = n then 0 else i + 1 := by
  split
  · rename_i h
    rw [h, Nat.mod_self]
  · exact Nat.mod_eq_of_lt (by omega)

theorem succ_mod_lt {n i : Nat} (hi : i < n) : (i + 1) % n < n :=
  Nat.mod_lt _ (by omega)

@[simp] theorem dist_self (n i : Nat) : dist n i i = 0 := by
  simp [dist]

theorem dist_lt {n i j : Nat} (hj : j < n) : dist n i j < n := by
  unfold dist
  split <;> omega

/-- Moving the start on by one shortens the way to every other slot. -/
theorem dist_succ_left {n i j : Nat} (hi : i < n) (hj : j < n) (hij : i ≠ j) :
    dist n ((i + 1) % n) j + 1 = dist n i j := by
  rw [succ_mod hi]
  unfold dist
  split <;> split <;> split <;> omega

/-- Moving the end on by one lengthens the way, unless that closes the ring. -/
theorem dist_succ_right {n i j : Nat} (hi : i < n) (hj : j < n) (hij : (j + 1) % n ≠ i) :
    dist n i ((j + 1) % n) = dist n i j + 1 := by
  rw [succ_mod hj] at hij ⊢
  unfold dist
  by_cases hwrap : j + 1 = n
  · simp only [hwrap, if_true] at hij ⊢
    rw [if_neg (by omega), if_pos (by omega)]
    omega
  · simp only [hwrap, if_false] at hij ⊢
    by_cases hle : i ≤ j
    · rw [if_pos (by omega), if_pos hle]
      omega
    · rw [if_neg (by omega), if_neg hle]
      omega

theorem dist_eq_zero {n i j : Nat} (hi : i < n) : dist n i j = 0 ↔ i = j := by
  unfold dist
  split <;> omega

/-- A slot is determined by its distance. -/
theorem dist_inj {n b i j : Nat} (hb : b < n) (hi : i < n) (hj : j < n)
    (h : dist n b i = dist n b j) : i = j := by
  unfold dist at h
  split at h <;> split at h <;> omega

theorem succ_mod_inj {n i j : Nat} (hi : i < n) (hj : j < n) (hij : i ≠ j) :
    (i + 1) % n ≠ (j + 1) % n := by
  rw [succ_mod hi, succ_mod hj]
  split <;> split <;> omega

/-- Moving the end of a range on adds the slot it leaves. -/
theorem lt_dist_succ_right {n b i j : Nat} (hb : b < n) (hi : i < n) (hj : j < n)
    (hne : (j + 1) % n ≠ b) :
    dist n b i < dist n b ((j + 1) % n) ↔ dist n b i < dist n b j ∨ i = j := by
  rw [dist_succ_right hb hj hne]
  constructor
  · intro h
    by_cases heq : dist n b i = dist n b j
    · exact Or.inr (dist_inj hb hi hj heq)
    · exact Or.inl (by omega)
  · rintro (h | rfl) <;> omega

/-- Moving the start of a range on drops the slot it leaves. -/
theorem lt_dist_succ_left {n b i j : Nat} (hb : b < n) (hi : i < n) (hj : j < n)
    (hne : b ≠ j) :
    dist n ((b + 1) % n) i < dist n ((b + 1) % n) j ↔ dist n b i < dist n b j ∧ i ≠ b := by
  have hstep := dist_succ_left hb hj hne
  by_cases hib : i = b
  · subst hib
    have hfar : dist n ((i + 1) % n) i = n - 1 := by
      rw [succ_mod hb]
      unfold dist
      split <;> split <;> omega
    have hlt := dist_lt (i := (i + 1) % n) hj
    constructor
    · intro h
      omega
    · intro h
      exact absurd rfl h.2
  · have hstep' := dist_succ_left hb hi (fun hc => hib hc.symm)
    constructor
    · intro h
      exact ⟨by omega, hib⟩
    · intro h
      omega

/-! ### Windows -/

/-- Slots that are not read do not matter. -/
theorem window_congr {n : Nat} {f g : Nat → α} :
    ∀ (k i : Nat), i < n → (∀ j, j < n → dist n i j < k → f j = g j) → k ≤ n →
      window n f i k = window n g i k := by
  intro k
  induction k with
  | zero => intro i _ _ _; rfl
  | succ k ih =>
      intro i hi hfg hk
      rw [window, window, hfg i hi (by rw [dist_self]; omega)]
      congr 1
      refine ih _ (succ_mod_lt hi) ?_ (by omega)
      intro j hj hlt
      by_cases hij : i = j
      · subst hij
        exact hfg i hi (by rw [dist_self]; omega)
      · have := dist_succ_left hi hj hij
        exact hfg j hj (by omega)

/-- A window can be read from its end. -/
theorem window_snoc {n : Nat} (f : Nat → α) :
    ∀ (k i j : Nat), i < n → j < n → k = dist n i j → (j + 1) % n ≠ i →
      window n f i (k + 1) = window n f i k ++ [f j] := by
  intro k
  induction k with
  | zero =>
      intro i j hi _ hk _
      have hij : i = j := (dist_eq_zero hi).mp hk.symm
      subst hij
      rfl
  | succ k ih =>
      intro i j hi hj hk hne
      have hij : i ≠ j := by
        intro hc
        rw [hc, dist_self] at hk
        omega
      have hstep := dist_succ_left hi hj hij
      show f i :: window n f ((i + 1) % n) (k + 1)
        = f i :: (window n f ((i + 1) % n) k ++ [f j])
      congr 1
      refine ih ((i + 1) % n) j (succ_mod_lt hi) hj (by omega) ?_
      intro hc
      rw [succ_mod hi, succ_mod hj] at hc
      split at hc <;> split at hc <;> omega

/-! ### Ranges -/

@[simp] theorem between_self (n : Nat) (f : Nat → α) (i : Nat) : between n f i i = [] := by
  rw [between, dist_self, window]

/-- The head of a range that is not empty. -/
theorem between_pop {n : Nat} (f : Nat → α) {head tail : Nat} (hh : head < n) (ht : tail < n)
    (hne : head ≠ tail) :
    between n f head tail = f head :: between n f ((head + 1) % n) tail := by
  unfold between
  rw [← dist_succ_left hh ht hne, window]

/-- Moving the tail on appends the slot it leaves, unless that closes the ring. -/
theorem between_push {n : Nat} (f : Nat → α) {head tail : Nat} (hh : head < n) (ht : tail < n)
    (hne : (tail + 1) % n ≠ head) :
    between n f head ((tail + 1) % n) = between n f head tail ++ [f tail] := by
  unfold between
  rw [dist_succ_right hh ht hne]
  exact window_snoc f _ head tail hh ht rfl hne

/-- Slots outside the range do not matter. -/
theorem between_congr {n : Nat} {f g : Nat → α} {head tail : Nat} (hh : head < n) (ht : tail < n)
    (hfg : ∀ j, j < n → dist n head j < dist n head tail → f j = g j) :
    between n f head tail = between n g head tail :=
  window_congr _ head hh hfg (Nat.le_of_lt (dist_lt ht))

/-- In particular the slot at the tail does not. -/
theorem between_update_tail {n : Nat} (f : Nat → α) {head tail : Nat} (hh : head < n)
    (ht : tail < n) (x : α) :
    between n (Function.update f tail x) head tail = between n f head tail := by
  refine between_congr hh ht ?_
  intro j _ hlt
  rw [Function.update_of_ne]
  intro hc
  rw [hc] at hlt
  omega

end Ring
