/-
How long the random number generator goes on before it repeats itself.

The congruential part has a multiplier one above a multiple of four and an odd increment,
so its word comes back after `2^64` calls and not before (`Lib/Generator.lean`), whatever
the other two parts do.  And no part loses anything in a step: two generators that
come to the same state have been in the same state before (`rand_inj`).  So a generator that
repeats a state has first come back to its seed.
-/
import Rucoonos.Proofs.Hardware.Rng

namespace Rucoonos.Rng.Kiss

open Slice Generator

variable {k k' : Kiss} {n : Nat} {word : UInt64} {words : List UInt64}

/-! ### One call -/

/-- The congruential part of a call. -/
theorem rand_x (h : rand k = .ok (word, k')) :
    k'.x.toNat = linearCongruential 6906969069 1234567 (2 ^ 64) k.x.toNat := by
  obtain ⟨t, -, h⟩ := bind_eq_ok.mp h
  obtain ⟨c, -, h⟩ := bind_eq_ok.mp h
  cases h
  rw [UInt64.toNat_add, UInt64.toNat_mul, linearCongruential]
  exact Nat.mod_add_mod _ _ _

/-- The multiply-with-carry part of a call. -/
theorem rand_digits (h : rand k = .ok (word, k')) : k'.digits = exactStep k.digits := by
  by_cases hfits : (k.z <<< 58).toNat + k.c.toNat < 2 ^ 64
  · obtain ⟨word', k'', hrand, -, hdigits⟩ := rand_exact hfits
    rw [hrand] at h
    cases h
    exact hdigits
  · rw [rand_overflow hfits] at h
    cases h

theorem rand_carry_le (hc : k.c.toNat ≤ 2 ^ 58) (h : rand k = .ok (word, k')) :
    k'.c.toNat ≤ 2 ^ 58 :=
  exactStep_carry_le hc (rand_digits h)

/-- Two generators that a call brings to the same state were in the same state. -/
theorem rand_inj {a b : Kiss} {word' : UInt64} (hac : a.c.toNat ≤ 2 ^ 58)
    (hbc : b.c.toNat ≤ 2 ^ 58) (ha : rand a = .ok (word, k)) (hb : rand b = .ok (word', k)) :
    a = b := by
  have hcoprime : Nat.Coprime (2 ^ 64) 6906969069 := by decide
  have hx : a.x = b.x :=
    UInt64.toNat_inj.mp (linearCongruential_injOn hcoprime a.x.toNat_lt b.x.toNat_lt
      ((rand_x ha).symm.trans (rand_x hb)))
  have hy : a.y = b.y := xorshift_injective ((rand_y ha).symm.trans (rand_y hb))
  have hdigits : a.digits = b.digits :=
    multiplyWithCarry_inj (Nat.lt_succ_of_le hac) (Nat.lt_succ_of_le hbc)
      ((rand_digits ha).symm.trans (rand_digits hb))
  obtain ⟨hz, hc⟩ := Prod.mk.inj hdigits
  obtain ⟨x, y, z, c⟩ := a
  obtain ⟨x', y', z', c'⟩ := b
  cases hx
  cases hy
  cases UInt64.toNat_inj.mp hz
  cases UInt64.toNat_inj.mp hc
  rfl

/-! ### Several calls -/

/-- The first call of a run, and the calls behind it. -/
theorem calls_succ_eq_ok (h : calls (n + 1) k = .ok (words, k')) :
    ∃ word rest mid, rand k = .ok (word, mid) ∧ calls n mid = .ok (rest, k') := by
  obtain ⟨⟨word, mid⟩, hrand, hrest⟩ := bind_eq_ok.mp h
  obtain ⟨⟨rest, last⟩, hrest, heq⟩ := bind_eq_ok.mp hrest
  cases heq
  exact ⟨word, rest, mid, hrand, hrest⟩

theorem calls_x (h : calls n k = .ok (words, k')) :
    k'.x.toNat = (linearCongruential 6906969069 1234567 (2 ^ 64))^[n] k.x.toNat := by
  induction n generalizing k words with
  | zero =>
      cases h
      rfl
  | succ n ih =>
      obtain ⟨word, rest, mid, hrand, hrest⟩ := calls_succ_eq_ok h
      rw [Function.iterate_succ_apply, ← rand_x hrand]
      exact ih hrest

theorem calls_carry_le (hc : k.c.toNat ≤ 2 ^ 58) (h : calls n k = .ok (words, k')) :
    k'.c.toNat ≤ 2 ^ 58 := by
  induction n generalizing k words with
  | zero =>
      cases h
      exact hc
  | succ n ih =>
      obtain ⟨word, rest, mid, hrand, hrest⟩ := calls_succ_eq_ok h
      exact ih (rand_carry_le hc hrand) hrest

theorem calls_inj {a b : Kiss} {words' : List UInt64} (hac : a.c.toNat ≤ 2 ^ 58)
    (hbc : b.c.toNat ≤ 2 ^ 58) (ha : calls n a = .ok (words, k))
    (hb : calls n b = .ok (words', k)) : a = b := by
  induction n generalizing a b words words' with
  | zero =>
      cases ha
      cases hb
      rfl
  | succ n ih =>
      obtain ⟨word, rest, mid, hrand, hrest⟩ := calls_succ_eq_ok ha
      obtain ⟨word', rest', mid', hrand', hrest'⟩ := calls_succ_eq_ok hb
      have hmid : mid = mid' :=
        ih (rand_carry_le hac hrand) (rand_carry_le hbc hrand') hrest hrest'
      cases hmid
      exact rand_inj hac hbc hrand hrand'

/-- A run cut in two. -/
theorem calls_add {d m : Nat} (h : calls (d + m) k = .ok (words, k')) :
    ∃ first second mid, calls d k = .ok (first, mid) ∧ calls m mid = .ok (second, k') := by
  induction d generalizing k words with
  | zero =>
      rw [Nat.zero_add] at h
      exact ⟨[], words, k, rfl, h⟩
  | succ d ih =>
      rw [Nat.succ_add] at h
      obtain ⟨word, rest, mid, hrand, hrest⟩ := calls_succ_eq_ok h
      obtain ⟨first, second, cut, hfirst, hsecond⟩ := ih hrest
      refine ⟨word :: first, second, cut, ?_, hsecond⟩
      rw [calls, hrand, ok_bind]
      dsimp only
      rw [hfirst]
      rfl

/--
**The generator comes back to its seed first, and not within `2^64` calls.**  From every
seed whose carry is in its range, take the states after `m` calls and after `n` calls, where
`n` is not the smaller: the congruential words in them agree exactly if `n - m` is a multiple of
`2^64`, so the states differ if fewer than `2^64` calls lie between them.  They are the same state
exactly if the first `n - m` calls lead from the seed back to the seed: the sequence is
one cycle, without a part in front of it that is never seen again.
-/
theorem states_cycle (k a b : Kiss) (m n : Nat) (front back : List UInt64)
    (hc : k.c.toNat ≤ 2 ^ 58) (hle : m ≤ n) (ha : calls m k = .ok (front, a))
    (hb : calls n k = .ok (back, b)) :
    (a.x = b.x ↔ 2 ^ 64 ∣ n - m) ∧ (m < n → n < m + 2 ^ 64 → a ≠ b) ∧
      (a = b ↔ ∃ words, calls (n - m) k = .ok (words, k)) := by
  have hx : a.x = b.x ↔ 2 ^ 64 ∣ n - m := by
    rw [← Nat.modEq_iff_dvd' hle, ← UInt64.toNat_inj, calls_x ha, calls_x hb]
    exact iterate_eq_iff (d := 6906969068) (by decide) (by decide) k.x.toNat_lt
  refine ⟨hx, fun hlt hnear heq => ?_, ?_⟩
  · have hdvd := hx.mp (congrArg Kiss.x heq)
    exact absurd (Nat.le_of_dvd (by omega) hdvd) (by omega)
  · -- The run of `n` calls is one of `n - m` calls and one of `m` calls from where it ends.
    rw [← Nat.sub_add_cancel hle] at hb
    obtain ⟨first, second, mid, hfirst, hsecond⟩ := calls_add hb
    rw [hfirst]
    constructor
    · intro heq
      rw [← heq] at hsecond
      exact ⟨first, by rw [calls_inj hc (calls_carry_le hc hfirst) ha hsecond]⟩
    · rintro ⟨words, heq⟩
      cases heq
      rw [ha] at hsecond
      cases hsecond
      rfl

/-- The kernel's generator after one call and after four. -/
theorem states_cycle_kernelRng :
    ∃ k a b front back, kernelRng = .ok k ∧ calls 1 k = .ok (front, a) ∧
      calls 4 k = .ok (back, b) ∧ a ≠ b := by
  have ha : calls 1 ⟨239812446, 1837621879, 512893, 123873267123⟩ = .ok (_, _) := rfl
  have hb : calls 4 ⟨239812446, 1837621879, 512893, 123873267123⟩ = .ok (_, _) := rfl
  exact ⟨_, _, _, _, _, rfl, ha, hb,
    (states_cycle _ _ _ 1 4 _ _ (by decide) (by decide) ha hb).2.1 (by decide) (by decide)⟩

end Rucoonos.Rng.Kiss
