/-
The sum of the weights of a list, where a weight may depend on the position.

A system of several parties is often measured by adding up what each of them has left to
do.  The lemmas say how the sum changes when one party takes a step, and when all of them
do.
-/
import Mathlib.Data.List.Basic

namespace Weights

variable {α : Type}

def total : (Nat → α → Nat) → List α → Nat
  | _, [] => 0
  | w, a :: l => w 0 a + total (fun j a => w (j + 1) a) l

theorem total_cons (w : Nat → α → Nat) (a : α) (l : List α) :
    total w (a :: l) = w 0 a + total (fun j a => w (j + 1) a) l := rfl

/-- One element is replaced. -/
theorem total_set {l : List α} :
    ∀ {w : Nat → α → Nat} {k : Nat} {a : α} (b : α), l[k]? = some a →
      total w (l.set k b) + w k a = total w l + w k b := by
  induction l with
  | nil =>
      intro w k a b h
      cases h
  | cons x l ih =>
      intro w k a b h
      cases k with
      | zero =>
          cases h
          rw [List.set_cons_zero, total_cons, total_cons]
          omega
      | succ k =>
          have hrest := ih (w := fun j a => w (j + 1) a) b h
          rw [List.set_cons_succ, total_cons, total_cons]
          omega

/-- All elements are replaced. -/
theorem total_mapIdx (l : List α) :
    ∀ (w : Nat → α → Nat) (f : Nat → α → α),
      total w (l.mapIdx f) = total (fun j a => w j (f j a)) l := by
  induction l with
  | nil => exact fun _ _ => rfl
  | cons x l ih =>
      intro w f
      rw [List.mapIdx_cons, total_cons, total_cons, ih]

theorem total_add (v w : Nat → α → Nat) (l : List α) :
    total (fun j a => v j a + w j a) l = total v l + total w l := by
  induction l generalizing v w with
  | nil => rfl
  | cons x l ih =>
      have hrest := ih (fun j a => v (j + 1) a) (fun j a => w (j + 1) a)
      rw [total_cons, total_cons, total_cons, hrest]
      omega

/-- No weight grows by more than `c`. -/
theorem total_le {l : List α} :
    ∀ {w w' : Nat → α → Nat} (c : Nat), (∀ (j : Nat) a, l[j]? = some a → w j a ≤ w' j a + c) →
      total w l ≤ total w' l + c * l.length := by
  induction l with
  | nil => exact fun _ _ => Nat.zero_le _
  | cons x l ih =>
      intro w w' c h
      have hfirst := h 0 x rfl
      have hrest := ih c fun j a ha => h (j + 1) a ha
      rw [total_cons, total_cons, List.length_cons, Nat.mul_succ]
      omega

/-- No weight grows, and one of them gets smaller by `c`. -/
theorem total_add_le {l : List α} :
    ∀ {w w' : Nat → α → Nat} (c : Nat) {k : Nat} {a : α},
      (∀ (j : Nat) a, l[j]? = some a → w j a ≤ w' j a) → l[k]? = some a →
      w k a + c ≤ w' k a → total w l + c ≤ total w' l := by
  induction l with
  | nil =>
      intro w w' c k a _ hk
      cases hk
  | cons x l ih =>
      intro w w' c k a h hk hc
      have hfirst := h 0 x rfl
      rw [total_cons, total_cons]
      cases k with
      | zero =>
          cases hk
          have hrest := total_le (l := l) 0 fun j a ha => h (j + 1) a ha
          omega
      | succ k =>
          have hrest := ih c (fun j a ha => h (j + 1) a ha) hk hc
          omega

theorem total_congr {w w' : Nat → α → Nat} {l : List α}
    (h : ∀ (j : Nat) a, l[j]? = some a → w j a = w' j a) : total w l = total w' l := by
  have hle : total w l ≤ total w' l + 0 * l.length :=
    total_le 0 fun j a ha => Nat.le_of_eq (h j a ha)
  have hge : total w' l ≤ total w l + 0 * l.length :=
    total_le 0 fun j a ha => Nat.le_of_eq (h j a ha).symm
  omega

end Weights
