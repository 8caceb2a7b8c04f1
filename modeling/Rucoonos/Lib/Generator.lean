/-
Three steps that generators of words are built from.

A linear congruential step multiplies a word and adds an increment.  Several steps are one
such step again, with a sum of powers of the multiplier, and how many factors two that sum
has says after how many steps a word comes back.

A multiply-with-carry step reads a digit and a carry as one number, multiplies the
digit and writes the result as a digit and a carry again.  As long as the carry is
below the multiplier it stays below it, and nothing is lost.

A xorshift step adds a word, without carries, to itself shifted.  Each bit of the
result is a bit of the word and at most one other, further down for a shift to the
left and further up for one to the right, so the bits of the word can be read off
one after another: the step loses nothing.
-/
import Mathlib.Algebra.Group.Nat.Defs
import Mathlib.Data.Fintype.EquivFin
import Mathlib.Logic.Function.Iterate
import Mathlib.NumberTheory.Multiplicity

namespace Generator

/-! ### Linear congruence -/

section Congruential

open Finset

/-- The next word, modulo `m`. -/
def linearCongruential (a c m x : Nat) : Nat := (a * x + c) % m

variable {a c d k m n x y : Nat}

/-- Several steps at once. -/
theorem iterate_modEq (a c m n x : Nat) :
    (linearCongruential a c m)^[n] x ≡ a ^ n * x + c * ∑ i ∈ range n, a ^ i [MOD m] := by
  induction n with
  | zero =>
      rw [sum_range_zero, pow_zero, one_mul, mul_zero, add_zero]
      rfl
  | succ n ih =>
      rw [Function.iterate_succ_apply', linearCongruential]
      calc (a * (linearCongruential a c m)^[n] x + c) % m
          ≡ a * (linearCongruential a c m)^[n] x + c [MOD m] := Nat.mod_modEq _ _
        _ ≡ a * (a ^ n * x + c * ∑ i ∈ range n, a ^ i) + c [MOD m] :=
            (ih.mul_left a).add_right c
        _ = a ^ (n + 1) * x + c * ∑ i ∈ range (n + 1), a ^ i := by
            have hsum : ∑ i ∈ range (n + 1), a ^ i = a * ∑ i ∈ range n, a ^ i + 1 := geom_sum_succ
            rw [hsum, pow_succ']
            ring

/-- The powers of a number one above a multiple of four add up to as many factors two as
there are summands. -/
theorem two_pow_dvd_geomSum (hd : 4 ∣ d) :
    2 ^ k ∣ ∑ i ∈ range n, (d + 1) ^ i ↔ 2 ^ k ∣ n := by
  rcases Nat.eq_zero_or_pos d with rfl | hpos
  · simp
  · have hodd : ¬ (2 : ℤ) ∣ ((d : ℤ) + 1) := by omega
    have hfour : (4 : ℤ) ∣ (d + 1 : ℤ) - 1 := by
      rw [add_sub_cancel_right]
      exact_mod_cast hd
    have hpow := Int.two_pow_sub_pow' n hfour hodd
    have hsum : ((d : ℤ) + 1) ^ n - 1 ^ n = d * ∑ i ∈ range n, ((d : ℤ) + 1) ^ i := by
      rw [one_pow, ← geom_sum_mul_add, add_sub_cancel_right, mul_comm]
    have hfin : FiniteMultiplicity (2 : ℤ) d :=
      Int.finiteMultiplicity_iff.mpr ⟨by decide, by omega⟩
    rw [hsum, emultiplicity_mul Int.prime_two, add_sub_cancel_right] at hpow
    have hmult : emultiplicity (2 : ℤ) (∑ i ∈ range n, ((d : ℤ) + 1) ^ i)
        = emultiplicity (2 : ℤ) n :=
      ENat.add_right_injective_of_ne_top
        (finiteMultiplicity_iff_emultiplicity_ne_top.mp hfin) hpow
    have hdvd : (2 : ℤ) ^ k ∣ ∑ i ∈ range n, ((d : ℤ) + 1) ^ i ↔ (2 : ℤ) ^ k ∣ n := by
      rw [pow_dvd_iff_le_emultiplicity, pow_dvd_iff_le_emultiplicity, hmult]
    exact_mod_cast hdvd

theorem iterate_lt (a c n : Nat) (hx : x < m) : (linearCongruential a c m)^[n] x < m := by
  cases n with
  | zero => exact hx
  | succ n =>
      rw [Function.iterate_succ_apply']
      exact Nat.mod_lt _ (Nat.zero_lt_of_lt hx)

/-- With a multiplier one above a multiple of four and an odd increment, a word comes back
after the multiples of `2^k` steps only. -/
theorem iterate_eq_self_iff (hd : 4 ∣ d) (hc : ¬ 2 ∣ c) (hx : x < 2 ^ k) :
    (linearCongruential (d + 1) c (2 ^ k))^[n] x = x ↔ 2 ^ k ∣ n := by
  have hlt := iterate_lt (d + 1) c n hx
  -- The way from `x` to its `n`-th successor is the sum of the powers times an odd number.
  have hway : (d + 1) ^ n * x + c * ∑ i ∈ range n, (d + 1) ^ i
      = x + (∑ i ∈ range n, (d + 1) ^ i) * (d * x + c) := by
    rw [← geom_sum_mul_add d n]
    ring
  have hodd : Nat.Coprime (2 ^ k) (d * x + c) := by
    refine Nat.Coprime.pow_left k ((Nat.Prime.coprime_iff_not_dvd Nat.prime_two).mpr ?_)
    have heven : 2 ∣ d * x := (Nat.dvd_trans (by decide) hd).mul_right x
    exact fun hdvd => hc ((Nat.dvd_add_right heven).mp hdvd)
  rw [← two_pow_dvd_geomSum hd, ← hodd.dvd_mul_right]
  have hmod := iterate_modEq (d + 1) c (2 ^ k) n x
  rw [hway] at hmod
  constructor
  · intro heq
    rw [heq] at hmod
    have hzero : x + 0 ≡ x + (∑ i ∈ range n, (d + 1) ^ i) * (d * x + c) [MOD 2 ^ k] := hmod
    exact (Nat.modEq_zero_iff_dvd).mp (Nat.ModEq.add_left_cancel' x hzero).symm
  · intro hdvd
    have hback : (linearCongruential (d + 1) c (2 ^ k))^[n] x ≡ x [MOD 2 ^ k] :=
      hmod.trans (((Nat.modEq_zero_iff_dvd).mpr hdvd).add_left x)
    exact hback.eq_of_lt_of_lt hlt hx

/-- So no word is met twice within `2^k` steps. -/
theorem iterate_eq_iff (hd : 4 ∣ d) (hc : ¬ 2 ∣ c) (hx : x < 2 ^ k) :
    (linearCongruential (d + 1) c (2 ^ k))^[m] x = (linearCongruential (d + 1) c (2 ^ k))^[n] x ↔
      m ≡ n [MOD 2 ^ k] := by
  wlog hle : m ≤ n generalizing m n
  · rw [eq_comm, this (Nat.le_of_not_le hle)]
    exact ⟨Nat.ModEq.symm, Nat.ModEq.symm⟩
  · obtain ⟨e, rfl⟩ := Nat.exists_eq_add_of_le' hle
    rw [Function.iterate_add_apply, eq_comm, iterate_eq_self_iff hd hc (iterate_lt _ _ _ hx),
      Nat.modEq_iff_dvd' hle, Nat.add_sub_cancel]

theorem linearCongruential_injOn (hcop : Nat.Coprime m a) (hx : x < m) (hy : y < m)
    (h : linearCongruential a c m x = linearCongruential a c m y) : x = y := by
  have hmul : a * x ≡ a * y [MOD m] := Nat.ModEq.add_right_cancel' c h
  exact (hmul.cancel_left_of_coprime hcop).eq_of_lt_of_lt hx hy

end Congruential

/-! ### Multiply with carry -/

/-- The next digit and carry, in base `b` with the multiplier `a`. -/
def multiplyWithCarry (a b : Nat) (s : Nat × Nat) : Nat × Nat :=
  ((a * s.1 + s.2) % b, (a * s.1 + s.2) / b)

/-- A carry below the multiplier stays below it. -/
theorem carry_lt {a b : Nat} {s : Nat × Nat} (hdigit : s.1 < b) (hcarry : s.2 < a) :
    (multiplyWithCarry a b s).2 < a := by
  refine Nat.div_lt_of_lt_mul ?_
  have hnext : a * (s.1 + 1) ≤ a * b := Nat.mul_le_mul_left a hdigit
  rw [Nat.mul_add, Nat.mul_one] at hnext
  rw [Nat.mul_comm b a]
  omega

/-- The digit and the carry are the quotient and the rest of what was computed. -/
theorem multiplyWithCarry_inj {a b : Nat} {s t : Nat × Nat} (hs : s.2 < a) (ht : t.2 < a)
    (h : multiplyWithCarry a b s = multiplyWithCarry a b t) : s = t := by
  obtain ⟨hmod, hdiv⟩ := Prod.mk.inj h
  have hsum : a * s.1 + s.2 = a * t.1 + t.2 := by
    rw [← Nat.mod_add_div (a * s.1 + s.2) b, hmod, hdiv, Nat.mod_add_div]
  have ha : 0 < a := Nat.zero_lt_of_lt hs
  refine Prod.ext ?_ ?_
  · have hquot := congrArg (· / a) hsum
    simpa [Nat.mul_add_div ha, Nat.div_eq_of_lt hs, Nat.div_eq_of_lt ht] using hquot
  · have hrest := congrArg (· % a) hsum
    simpa [Nat.mod_eq_of_lt hs, Nat.mod_eq_of_lt ht] using hrest

/-! ### Xorshift -/

section Xorshift

variable {w : Nat}

/-- The bits of `x` are read off from the lowest one up. -/
theorem xor_shiftLeft_injective {k : Nat} (hk : 0 < k) :
    Function.Injective fun x : BitVec w => x ^^^ (x <<< k) := by
  intro x y hxy
  refine BitVec.eq_of_getLsbD_eq fun i hi => ?_
  induction i using Nat.strongRecOn with
  | ind i ih =>
      have hbit := congrArg (fun v : BitVec w => v.getLsbD i) hxy
      simp only [BitVec.getLsbD_xor, BitVec.getLsbD_shiftLeft, hi, decide_true,
        Bool.true_and] at hbit
      by_cases hlow : i < k
      · simpa [hlow] using hbit
      · rw [ih (i - k) (by omega) (by omega)] at hbit
        simpa using hbit

/-- The bits of `x` are read off from the highest one down. -/
theorem xor_shiftRight_injective {k : Nat} (hk : 0 < k) :
    Function.Injective fun x : BitVec w => x ^^^ (x >>> k) := by
  intro x y hxy
  have key : ∀ n i, w - i = n → x.getLsbD i = y.getLsbD i := by
    intro n
    induction n using Nat.strongRecOn with
    | ind n ih =>
        intro i hn
        have hbit := congrArg (fun v : BitVec w => v.getLsbD i) hxy
        simp only [BitVec.getLsbD_xor, BitVec.getLsbD_ushiftRight] at hbit
        by_cases hi : w ≤ i
        · rw [BitVec.getLsbD_of_ge x i hi, BitVec.getLsbD_of_ge y i hi]
        · rw [ih (w - (k + i)) (by omega) (k + i) rfl] at hbit
          simpa using hbit
  exact BitVec.eq_of_getLsbD_eq fun i _ => key (w - i) i rfl

end Xorshift

/-- A step on the words of one width that loses nothing reaches every word. -/
theorem bijective_of_injective {f : UInt64 → UInt64} (h : Function.Injective f) :
    Function.Bijective f := by
  have : Finite UInt64 := Finite.of_injective UInt64.toFin fun _ _ => UInt64.toFin_inj.mp
  exact Finite.injective_iff_bijective.mp h

end Generator
