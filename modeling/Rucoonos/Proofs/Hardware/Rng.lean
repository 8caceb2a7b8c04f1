/-
The random number generator over whole runs.

The multiply-with-carry part computes the 128-bit number `(2^58 + 1) * z + c` with
words of 64 bits: the low six bits of `z` and the carry give the word `t`, the high
ones the carry out, and one more carry comes from `z + t`.  `rand_exact` says that this
is the exact step wherever `t` fits a word.  With a carry of at most `2^58` it fails to
fit at one place only, where the carry is `2^58` and the low six bits of `z` are all
ones; `Corner` is that place, and `rand_overflow` says that the call panics there.

The xorshift part is three injective steps (`Lib/Generator.lean`), so the word `y` of
a generator can be traced back through any number of calls.
-/
import Rucoonos.Hardware.Rng
import Rucoonos.Lib.Generator

namespace Rucoonos.Rng.Kiss

open Slice Generator

variable {k k' : Kiss} {n : Nat}

/-! ### The multiply-with-carry step -/

/-- The digit and the carry of the multiply-with-carry part. -/
def digits (k : Kiss) : Nat × Nat := (k.z.toNat, k.c.toNat)

/-- The step it is meant to take, on unbounded numbers. -/
def exactStep : Nat × Nat → Nat × Nat := multiplyWithCarry (2 ^ 58 + 1) (2 ^ 64)

/-- The carry at its largest, over a digit whose low six bits are ones. -/
def Corner (s : Nat × Nat) : Prop := s.2 = 2 ^ 58 ∧ s.1 % 64 = 63

instance instDecidableCorner (s : Nat × Nat) : Decidable (Corner s) :=
  inferInstanceAs (Decidable (_ ∧ _))

theorem toNat_shiftLeft_58 (z : UInt64) : (z <<< 58).toNat = z.toNat % 64 * 2 ^ 58 := by
  rw [UInt64.toNat_shiftLeft, Nat.shiftLeft_eq]
  have h : (58 : UInt64).toNat % 64 = 58 := rfl
  rw [h]
  omega

theorem toNat_shiftRight_6 (z : UInt64) : (z >>> 6).toNat = z.toNat / 64 := by
  rw [UInt64.toNat_shiftRight, Nat.shiftRight_eq_div_pow]
  rfl

/-- The word `t` fits, unless the generator stands in the corner. -/
theorem fits_iff (hc : k.c.toNat ≤ 2 ^ 58) :
    (k.z <<< 58).toNat + k.c.toNat < 2 ^ 64 ↔ ¬ Corner k.digits := by
  rw [toNat_shiftLeft_58]
  unfold Corner digits
  omega

/-- The carry out of `z + t` is seen by comparing the sum with `t`. -/
theorem toNat_carryBit (z t : UInt64) :
    (if z + t < t then (1 : UInt64) else 0).toNat = (z.toNat + t.toNat) / 2 ^ 64 := by
  have hz := z.toNat_lt
  have ht := t.toNat_lt
  have hsum : z + t < t ↔ 2 ^ 64 ≤ z.toNat + t.toNat := by
    rw [UInt64.lt_iff_toNat_lt, UInt64.toNat_add]
    omega
  by_cases h : z + t < t
  · rw [if_pos h]
    have := hsum.mp h
    have hone : (1 : UInt64).toNat = 1 := rfl
    omega
  · rw [if_neg h]
    have := mt hsum.mpr h
    have hzero : (0 : UInt64).toNat = 0 := rfl
    omega

/-- A call whose word `t` fits returns, and takes the exact step. -/
theorem rand_exact (h : (k.z <<< 58).toNat + k.c.toNat < 2 ^ 64) :
    ∃ word k', rand k = .ok (word, k') ∧ k'.y = xorshift k.y ∧
      k'.digits = exactStep k.digits := by
  obtain ⟨t, hadd, ht⟩ := addU64_ok h
  rw [toNat_shiftLeft_58] at ht
  have hz := k.z.toNat_lt
  have hbit := toNat_carryBit k.z t
  have hbound := t.toNat_lt
  obtain ⟨c, hcarry, hc⟩ :=
    addU64_ok (a := k.z >>> 6) (b := if k.z + t < t then 1 else 0) (by
      rw [toNat_shiftRight_6, hbit]
      omega)
  rw [toNat_shiftRight_6, hbit] at hc
  have hrand : rand k = .ok (6906969069 * k.x + 1234567 + xorshift k.y + (k.z + t),
      ⟨6906969069 * k.x + 1234567, xorshift k.y, k.z + t, c⟩) := by
    rw [rand]
    simp only [hadd, hcarry, ok_bind, pure_eq_ok]
  refine ⟨_, _, hrand, rfl, ?_⟩
  -- The exact number is `2^64 * (z / 64) + (z + t)`.
  have hexact : (2 ^ 58 + 1) * k.z.toNat + k.c.toNat
      = 2 ^ 64 * (k.z.toNat / 64) + (k.z.toNat + t.toNat) := by omega
  refine Prod.ext ?_ ?_
  · show (k.z + t).toNat = ((2 ^ 58 + 1) * k.z.toNat + k.c.toNat) % 2 ^ 64
    rw [hexact, UInt64.toNat_add, Nat.mul_add_mod]
  · show c.toNat = ((2 ^ 58 + 1) * k.z.toNat + k.c.toNat) / 2 ^ 64
    rw [hexact, Nat.mul_add_div (by decide), hc]

theorem rand_overflow (h : ¬ (k.z <<< 58).toNat + k.c.toNat < 2 ^ 64) :
    rand k = .error .overflow := by
  rw [rand]
  simp only [addU64_overflow h, error_bind]

/-- The exact step keeps the carry in its range. -/
theorem exactStep_carry_le (hc : k.c.toNat ≤ 2 ^ 58) (h : k'.digits = exactStep k.digits) :
    k'.c.toNat ≤ 2 ^ 58 := by
  have hlt : (exactStep k.digits).2 < 2 ^ 58 + 1 :=
    carry_lt k.z.toNat_lt (Nat.lt_succ_of_le hc)
  rw [← h] at hlt
  exact Nat.le_of_lt_succ hlt

/-! ### Whole runs -/

/-- `n` calls return, and leave the digit and the carry of `n` exact steps. -/
def ExactAfter (n : Nat) (k : Kiss) : Prop :=
  ∃ words k', calls n k = .ok (words, k') ∧ k'.digits = exactStep^[n] k.digits ∧
    k'.c.toNat ≤ 2 ^ 58

theorem exactAfter_zero (hc : k.c.toNat ≤ 2 ^ 58) : ExactAfter 0 k := ⟨[], k, rfl, rfl, hc⟩

/-- The first call, and the calls after it. -/
theorem exactAfter_succ {word : UInt64} (hrand : rand k = .ok (word, k'))
    (hdigits : k'.digits = exactStep k.digits) : ExactAfter (n + 1) k ↔ ExactAfter n k' := by
  have hcalls : calls (n + 1) k = calls n k' >>= fun r => .ok (word :: r.1, r.2) := by
    rw [calls, hrand]
    rfl
  unfold ExactAfter
  rw [hcalls, Function.iterate_succ_apply, ← hdigits]
  constructor
  · rintro ⟨words, last, hrun, hrest⟩
    obtain ⟨⟨words', last'⟩, hmid, heq⟩ := bind_eq_ok.mp hrun
    cases heq
    exact ⟨words', last', hmid, hrest⟩
  · rintro ⟨words, last, hrun, hrest⟩
    exact ⟨word :: words, last, by rw [hrun]; rfl, hrest⟩

/-- What the first call of a run can do. -/
theorem rand_cases (hc : k.c.toNat ≤ 2 ^ 58) :
    (Corner k.digits ∧ ∀ n, ¬ ExactAfter (n + 1) k) ∨
      ¬ Corner k.digits ∧ ∃ k', k'.c.toNat ≤ 2 ^ 58 ∧ k'.digits = exactStep k.digits ∧
        ∀ n, ExactAfter (n + 1) k ↔ ExactAfter n k' := by
  by_cases hfits : (k.z <<< 58).toNat + k.c.toNat < 2 ^ 64
  · obtain ⟨word, k', hrand, -, hdigits⟩ := rand_exact hfits
    exact .inr ⟨(fits_iff hc).mp hfits, k', exactStep_carry_le hc hdigits, hdigits,
      fun n => exactAfter_succ hrand hdigits⟩
  · refine .inl ⟨not_not.mp (mt (fits_iff hc).mpr hfits), ?_⟩
    rintro n ⟨words, last, hrun, -⟩
    rw [calls, rand_overflow hfits] at hrun
    cases hrun

/--
**The multiply-with-carry part is exact until it stands in the corner.**  From every
generator whose carry is in its range, the first `n` calls all return, set the digit
and the carry as the unbounded step does and keep the carry in its range, exactly when
none of the `n` states the calls start in is the corner.
-/
theorem calls_exact_iff (k : Kiss) (n : Nat) (hc : k.c.toNat ≤ 2 ^ 58) :
    (∀ m, m ≤ n → ExactAfter m k) ↔ ∀ m, m < n → ¬ Corner (exactStep^[m] k.digits) := by
  -- The induction is on the number of calls, for all generators at once: the calls
  -- after the first are a run of the generator the first leaves.
  induction n generalizing k with
  | zero =>
      refine ⟨fun _ m hm => absurd hm (Nat.not_lt_zero m), fun _ m hm => ?_⟩
      rw [Nat.le_zero.mp hm]
      exact exactAfter_zero hc
  | succ n ih =>
      obtain ⟨hcorner, hstuck⟩ | ⟨hcorner, k', hc', hdigits, hnext⟩ := rand_cases hc
      · exact ⟨fun h => absurd (h 1 (by omega)) (hstuck 0), fun h => absurd hcorner (h 0 (by omega))⟩
      · have hrest := ih k' hc'
        rw [hdigits] at hrest
        constructor
        · intro h m hm
          cases m with
          | zero => exact hcorner
          | succ m =>
              rw [Function.iterate_succ_apply]
              exact hrest.mp (fun m hm => (hnext m).mp (h (m + 1) (by omega))) m (by omega)
        · intro h m hm
          cases m with
          | zero => exact exactAfter_zero hc
          | succ m =>
              refine (hnext m).mpr (hrest.mpr (fun m hm => ?_) m (by omega))
              have := h (m + 1) (by omega)
              rwa [Function.iterate_succ_apply] at this

/-- The generator of the kernel starts inside the range, and its first calls are exact. -/
theorem kernelRng_exact :
    ∃ k, kernelRng = .ok k ∧ k.c.toNat ≤ 2 ^ 58 ∧ ∀ m, m ≤ 8 → ExactAfter m k :=
  ⟨⟨239812446, 1837621879, 512893, 123873267123⟩, rfl, by decide,
    (calls_exact_iff _ 8 (by decide)).mpr (by decide +kernel)⟩

/-- From `z = 2^64 - 1` with no carry the first call reaches the corner and the second panics. -/
theorem calls_overflow :
    let k : Kiss := ⟨1, 1, 0xffffffffffffffff, 0⟩
    k.c.toNat ≤ 2 ^ 58 ∧ Corner (exactStep k.digits) ∧ Ends (calls 1 k) ∧
      calls 2 k = .error .overflow :=
  ⟨by decide, by decide +kernel, ⟨_, rfl⟩, by decide +kernel⟩

/-! ### The xorshift step -/

theorem xorshift_injective : Function.Injective xorshift := by
  intro a b h
  have h43 := congrArg UInt64.toBitVec h
  refine UInt64.toBitVec_inj.mp ?_
  exact xor_shiftLeft_injective (k := 13) (by decide)
    (xor_shiftRight_injective (k := 17) (by decide)
      (xor_shiftLeft_injective (k := 43) (by decide) h43))

theorem xorshift_zero : xorshift 0 = 0 := by decide

theorem rand_y {word : UInt64} (h : rand k = .ok (word, k')) : k'.y = xorshift k.y := by
  by_cases hfits : (k.z <<< 58).toNat + k.c.toNat < 2 ^ 64
  · obtain ⟨word', k'', hrand, hy, -⟩ := rand_exact hfits
    rw [hrand] at h
    cases h
    exact hy
  · rw [rand_overflow hfits] at h
    cases h

/-- After `n` calls `y` has taken `n` xorshift steps. -/
theorem calls_y {words : List UInt64} (h : calls n k = .ok (words, k')) :
    k'.y = xorshift^[n] k.y := by
  induction n generalizing k words with
  | zero =>
      cases h
      rfl
  | succ n ih =>
      obtain ⟨⟨word, mid⟩, hrand, hrest⟩ := bind_eq_ok.mp h
      obtain ⟨⟨words', last⟩, hrest, heq⟩ := bind_eq_ok.mp hrest
      cases heq
      rw [Function.iterate_succ_apply, ← rand_y hrand]
      exact ih hrest

/--
**The xorshift part never collapses.**  The map is a bijection that keeps zero, and it is
what one call applies to `y`, so after any number of calls a `y` that was not zero is not
zero, and two generators that differed in `y` still differ.
-/
theorem xorshift_never_collapses :
    Function.Bijective xorshift ∧ xorshift 0 = 0 ∧
      (∀ word k k', rand k = .ok (word, k') → k'.y = xorshift k.y) ∧
      (∀ n words k k', calls n k = .ok (words, k') → k.y ≠ 0 → k'.y ≠ 0) ∧
      ∀ n words words' a b a' b', calls n a = .ok (words, a') → calls n b = .ok (words', b') →
        a.y ≠ b.y → a'.y ≠ b'.y := by
  refine ⟨bijective_of_injective xorshift_injective, xorshift_zero,
    fun word k k' hrand => rand_y hrand, ?_, ?_⟩
  · intro n words k k' hrun hy
    rw [calls_y hrun, ← Function.iterate_fixed xorshift_zero n]
    exact fun h => hy (xorshift_injective.iterate n h)
  · intro n words words' a b a' b' ha hb hy
    rw [calls_y ha, calls_y hb]
    exact fun h => hy (xorshift_injective.iterate n h)

/-- Five calls of the kernel's generator and of one that differs from it in `y`. -/
theorem kernelRng_y_ne_zero :
    ∃ a b words words' a' b', kernelRng = .ok a ∧ b.y = 1 ∧ calls 5 a = .ok (words, a') ∧
      calls 5 b = .ok (words', b') ∧ a'.y ≠ 0 ∧ a'.y ≠ b'.y := by
  have ha : calls 5 ⟨239812446, 1837621879, 512893, 123873267123⟩ = .ok (_, _) := rfl
  have hb : calls 5 ⟨239812446, 1, 512893, 123873267123⟩ = .ok (_, _) := rfl
  exact ⟨_, _, _, _, _, _, rfl, rfl, ha, hb,
    xorshift_never_collapses.2.2.2.1 5 _ _ _ ha (by decide),
    xorshift_never_collapses.2.2.2.2 5 _ _ _ _ _ _ ha hb (by decide)⟩

end Rucoonos.Rng.Kiss
