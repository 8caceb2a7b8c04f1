/-
Address translation by pages.

A page table takes the page of an address to the address of a frame, and the offset
in the page stays.  Whether a block of several pages is one block in physical memory as
well is therefore a matter of the page boundaries inside it: the frames on both sides
have to be adjacent (`linear_iff_adjacent`).
-/
import Mathlib.Data.Nat.Basic

namespace Paging

/-- The address behind `v`, with pages of `size` bytes and `mapped` from pages to the
addresses of their frames. -/
def translate (size : Nat) (mapped : Nat → Option Nat) (v : Nat) : Option Nat :=
  (mapped (v / size)).map (· + v % size)

/-- The `len` bytes from `v` on are, byte for byte, those from some physical address on. -/
def Linear (size : Nat) (mapped : Nat → Option Nat) (v len : Nat) : Prop :=
  ∃ a, translate size mapped v = some a ∧
    ∀ i, i < len → translate size mapped (v + i) = some (a + i)

/-- The frame of the page behind `p` is the one behind the frame of `p`. -/
def Adjacent (size : Nat) (mapped : Nat → Option Nat) (p : Nat) : Prop :=
  mapped (p + 1) = (mapped p).map (· + size)

instance (size : Nat) (mapped : Nat → Option Nat) (p : Nat) :
    Decidable (Adjacent size mapped p) :=
  inferInstanceAs (Decidable (_ = _))

section Translate

variable {size v len f : Nat} {mapped : Nat → Option Nat}

theorem translate_of_mapped (h : mapped (v / size) = some f) :
    translate size mapped v = some (f + v % size) := by
  rw [translate, h]
  rfl

/-- The next byte is in the same page or the first of the next one. -/
theorem succ_cases (hsize : 0 < size) :
    ((v + 1) / size = v / size ∧ (v + 1) % size = v % size + 1) ∨
      ((v + 1) / size = v / size + 1 ∧ (v + 1) % size = 0 ∧ v % size + 1 = size) := by
  by_cases hlast : v % size + 1 = size
  · have hdvd : size ∣ v + 1 := by
      rw [Nat.dvd_iff_mod_eq_zero, Nat.add_mod, ← hlast]
      by_cases hone : v % size = 0
      · simp [hone, Nat.mod_one]
      · rw [hlast, Nat.mod_eq_of_lt (a := 1) (by omega), hlast, Nat.mod_self]
    exact .inr ⟨Nat.succ_div_of_dvd hdvd, Nat.mod_eq_zero_of_dvd hdvd, hlast⟩
  · have hlt := Nat.mod_lt v hsize
    have hndvd : ¬ size ∣ v + 1 := by
      intro hdvd
      have hmod := Nat.mod_eq_zero_of_dvd hdvd
      rw [Nat.add_mod, Nat.mod_eq_of_lt (a := 1) (by omega), Nat.mod_eq_of_lt (by omega)] at hmod
      omega
    refine .inl ⟨Nat.succ_div_of_not_dvd hndvd, ?_⟩
    rw [Nat.add_mod, Nat.mod_eq_of_lt (a := 1) (by omega), Nat.mod_eq_of_lt (by omega)]

/-- Inside a page the bytes follow one another, and from one page to the next they do if
the frames are adjacent. -/
theorem translate_succ (hsize : 0 < size) {a : Nat} (h : translate size mapped v = some a)
    (hnext : (v + 1) / size ≠ v / size → Adjacent size mapped (v / size)) :
    translate size mapped (v + 1) = some (a + 1) := by
  obtain ⟨f, hf, hfa⟩ := Option.map_eq_some_iff.mp h
  rcases succ_cases hsize (v := v) with ⟨hpage, hoff⟩ | ⟨hpage, hoff, hlast⟩
  · rw [translate, hpage, hf, hoff]
    simp only [Option.map_some, Option.some.injEq]
    omega
  · have hadj := hnext (by omega)
    rw [translate, hpage, hadj, hf, hoff]
    simp only [Option.map_some, Option.some.injEq]
    omega

/--
**Blocks that stay in one piece.**  A block whose pages are all mapped is one block in
physical memory exactly if the frames at every page boundary inside it are adjacent.
-/
theorem linear_iff_adjacent (hsize : 0 < size) (hlen : 0 < len)
    (hmapped : ∀ p, v / size ≤ p → p ≤ (v + len - 1) / size → ∃ f, mapped p = some f) :
    Linear size mapped v len ↔
      ∀ p, v / size ≤ p → p < (v + len - 1) / size → Adjacent size mapped p := by
  constructor
  · rintro ⟨a, -, h⟩ p hp hlast
    obtain ⟨f, hf⟩ := hmapped p hp (Nat.le_of_lt hlast)
    obtain ⟨f', hf'⟩ := hmapped (p + 1) (by omega) hlast
    -- The last byte of page `p` and the first of the next are both in the block.
    have hstart : v < size * (p + 1) := by
      have := (Nat.div_lt_iff_lt_mul hsize).mp (Nat.lt_succ_of_le hp)
      rwa [Nat.mul_comm]
    have hend : size * (p + 1) ≤ v + len - 1 := by
      rw [Nat.mul_comm]
      exact (Nat.le_div_iff_mul_le hsize).mp hlast
    have hbefore := h (size * (p + 1) - 1 - v) (by omega)
    have hbehind := h (size * (p + 1) - v) (by omega)
    rw [show v + (size * (p + 1) - 1 - v) = size * p + (size - 1) by rw [Nat.mul_add] at *; omega,
      translate, Nat.mul_add_div hsize, Nat.div_eq_of_lt (by omega), Nat.add_zero, hf,
      Nat.mul_add_mod, Nat.mod_eq_of_lt (by omega)] at hbefore
    rw [show v + (size * (p + 1) - v) = size * (p + 1) by omega, translate,
      Nat.mul_div_cancel_left _ hsize, hf', Nat.mul_mod_right] at hbehind
    simp only [Option.map_some, Option.some.injEq] at hbefore hbehind
    rw [Adjacent, hf, hf', Option.map_some, Option.some.injEq]
    omega
  · intro hadj
    obtain ⟨f, hf⟩ := hmapped (v / size) (Nat.le_refl _) (Nat.div_le_div_right (by omega))
    refine ⟨f + v % size, translate_of_mapped hf, fun i => ?_⟩
    induction i with
    | zero =>
        intro _
        exact translate_of_mapped hf
    | succ i ih =>
        intro hi
        rw [← Nat.add_assoc, ← Nat.add_assoc]
        refine translate_succ hsize (ih (by omega)) fun hnext => ?_
        have hle : (v + i) / size ≤ (v + i + 1) / size := Nat.div_le_div_right (by omega)
        have hlast : (v + i + 1) / size ≤ (v + len - 1) / size := Nat.div_le_div_right (by omega)
        exact hadj _ (Nat.div_le_div_right (by omega)) (by omega)

end Translate

end Paging
