/-
Ones' complement sums.

The words of such a sum are added as numbers, and what does not fit a word is carried
around to the other end of it, until nothing is left to carry.  The largest word is
`b`: a sum is a number modulo `b`, with zero written as `b` unless all words were zero.

A program that carries around once is right unless that carries again, and
`CarriesTwice` says of which sums it does.
-/
import Rucoonos.Lib.BigEndian

namespace OnesComplement

variable (b : Nat)

/-! ### Carrying around -/

/-- What fits a word and the carries, added up once. -/
def fold (n : Nat) : Nat := n % (b + 1) + n / (b + 1)

theorem fold_add (n : Nat) : fold b n + b * (n / (b + 1)) = n := by
  have h := Nat.mod_add_div n (b + 1)
  rw [Nat.add_mul, Nat.one_mul] at h
  unfold fold
  omega

theorem fold_modEq (n : Nat) : fold b n ≡ n [MOD b] := by
  have h : fold b n + b * (n / (b + 1)) ≡ fold b n [MOD b] := Nat.add_mul_mod_self_left _ _ _
  rw [fold_add] at h
  exact h.symm

theorem fold_pos {n : Nat} (h : 0 < n) : 0 < fold b n := by
  rcases Nat.eq_zero_or_pos (n / (b + 1)) with hq | hq
  · have hadd := fold_add b n
    rw [hq, Nat.mul_zero] at hadd
    omega
  · exact Nat.add_pos_right _ hq

variable [NeZero b]

theorem fold_lt {n : Nat} (h : b < n) : fold b n < n := by
  have hb : 0 < b := Nat.pos_of_neZero b
  have hq : 0 < n / (b + 1) := Nat.div_pos h (Nat.succ_pos b)
  have hadd := fold_add b n
  have hcarry : 0 < b * (n / (b + 1)) := Nat.mul_pos hb hq
  omega

/-- The word that a sum comes to. -/
def wrap (b : Nat) [NeZero b] (n : Nat) : Nat := if n ≤ b then n else wrap b (fold b n)
termination_by n
decreasing_by exact fold_lt b (by omega)

theorem wrap_modEq (n : Nat) : wrap b n ≡ n [MOD b] := by
  fun_induction wrap b n with
  | case1 n h => rfl
  | case2 n h ih => exact ih.trans (fold_modEq b n)

theorem wrap_le (n : Nat) : wrap b n ≤ b := by
  fun_induction wrap b n with
  | case1 n h => exact h
  | case2 n h ih => exact ih

theorem wrap_pos {n : Nat} (hn : 0 < n) : 0 < wrap b n := by
  fun_induction wrap b n with
  | case1 n h => exact hn
  | case2 n h ih => exact ih (fold_pos b hn)

/-- The sums that come to the largest word. -/
theorem wrap_eq_top_iff {n : Nat} : wrap b n = b ↔ 0 < n ∧ b ∣ n := by
  have hb : 0 < b := Nat.pos_of_neZero b
  constructor
  · intro h
    have hmod := wrap_modEq b n
    rw [h] at hmod
    refine ⟨?_, (Nat.modEq_zero_iff_dvd.mp (hmod.symm.trans (Nat.mod_self b)))⟩
    rcases Nat.eq_zero_or_pos n with rfl | hpos
    · rw [wrap, if_pos (Nat.zero_le b)] at h
      omega
    · exact hpos
  · rintro ⟨hpos, hdvd⟩
    have hzero : wrap b n ≡ 0 [MOD b] := (wrap_modEq b n).trans (Nat.modEq_zero_iff_dvd.mpr hdvd)
    have hle := Nat.le_of_dvd (wrap_pos b hpos) (Nat.modEq_zero_iff_dvd.mp hzero)
    exact Nat.le_antisymm (wrap_le b n) hle

/-! ### Carrying around once -/

/-- The sum is past a multiple of the largest word, by less than the multiple. -/
def CarriesTwice (n : Nat) : Prop := 0 < n % b ∧ n % b < n / b

instance instDecidableCarriesTwice (n : Nat) : Decidable (CarriesTwice b n) :=
  inferInstanceAs (Decidable (0 < n % b ∧ n % b < n / b))

variable {b}

/-- These are the sums that do not fit a word after one round. -/
theorem carriesTwice_iff {n : Nat} (hn : n < b * (b + 1)) : CarriesTwice b n ↔ b < fold b n := by
  have hb : 0 < b := Nat.pos_of_neZero b
  have hq : n / (b + 1) < b := (Nat.div_lt_iff_lt_mul (Nat.succ_pos b)).mpr hn
  have hr : n % (b + 1) ≤ b := Nat.le_of_lt_succ (Nat.mod_lt _ (Nat.succ_pos b))
  have hadd := fold_add b n
  have hfold : fold b n = n % (b + 1) + n / (b + 1) := rfl
  unfold CarriesTwice
  -- The quotient by `b` is the number of carries, or one more.
  rcases Nat.lt_or_ge (fold b n) b with hlt | hge
  · obtain ⟨hdiv, hmod⟩ := (Nat.div_mod_unique hb).mpr ⟨hadd, hlt⟩
    rw [hdiv, hmod]
    omega
  · have hadd' : (fold b n - b) + b * (n / (b + 1) + 1) = n := by
      rw [Nat.mul_add, Nat.mul_one]
      omega
    obtain ⟨hdiv, hmod⟩ := (Nat.div_mod_unique hb).mpr ⟨hadd', by omega⟩
    rw [hdiv, hmod]
    omega

omit [NeZero b] in
/-- A sum and the complement of its fold add up to a multiple of the largest word. -/
theorem dvd_add_complement {n : Nat} (h : fold b n ≤ b) : b ∣ n + (b - fold b n) := by
  refine ⟨n / (b + 1) + 1, ?_⟩
  have hadd := fold_add b n
  rw [Nat.mul_add, Nat.mul_one]
  omega

/-! ### Words of 16 bits -/

open Slice BigEndian

/-- The addition that carries around overflows exactly if it had to carry again. -/
theorem ends_addU16 {lo hi : UInt16} {n : Nat} (hlo : lo.toNat = n % 65536)
    (hhi : hi.toNat = n / 65536) (hn : n < 65535 * 65536) :
    Ends (addU16 lo hi) ↔ ¬ CarriesTwice 65535 n := by
  rw [carriesTwice_iff hn, fold, addU16, hlo, hhi]
  split
  · rename_i hfits
    exact iff_of_true (ends_ok _) (by omega)
  · rename_i hfits
    exact iff_of_false (not_ends_error _) (by omega)

/-- The sum and the complement of what was added up. -/
theorem add_complement {lo hi sum : UInt16} {n : Nat} (hlo : lo.toNat = n % 65536)
    (hhi : hi.toNat = n / 65536) (h : addU16 lo hi = .ok sum) :
    0 < n + (~~~sum).toNat ∧ 65535 ∣ n + (~~~sum).toNat := by
  unfold addU16 at h
  split at h
  · rename_i hfits
    cases h
    have hsum : (lo + hi).toNat = fold 65535 n := by
      rw [UInt16.toNat_add, Nat.mod_eq_of_lt hfits, hlo, hhi]
      rfl
    have hle : fold 65535 n ≤ 65535 := by
      unfold fold
      omega
    have hnot : (~~~(lo + hi)).toNat = 65535 - fold 65535 n := by
      rw [UInt16.toNat_not, hsum]
      rfl
    rw [hnot]
    refine ⟨?_, dvd_add_complement hle⟩
    unfold fold
    omega
  · cases h

/-! The halves of a sum of 32 bits. -/

theorem toNat_toUInt16 (x : UInt32) : x.toUInt16.toNat = x.toNat % 65536 := rfl

theorem toNat_masked (x : UInt32) : (x &&& 0xffff).toUInt16.toNat = x.toNat % 65536 := by
  rw [toNat_toUInt16, UInt32.toNat_and]
  show (x.toNat &&& (2 ^ 16 - 1)) % 65536 = _
  rw [Nat.and_two_pow_sub_one_eq_mod]
  omega

theorem toNat_shifted (x : UInt32) : (x >>> 16).toUInt16.toNat = x.toNat / 65536 := by
  have hx := x.toNat_lt
  rw [toNat_toUInt16, UInt32.toNat_shiftRight]
  show (x.toNat >>> 16) % 65536 = _
  rw [Nat.shiftRight_eq_div_pow]
  omega

/-! ### Bytes -/

/-- The bytes, with one more zero if there are an odd number of them. -/
def padEven (s : List UInt8) : List UInt8 := s ++ zeros (s.length % 2)

/-- The words of some bytes come to `0xffff`. -/
def Checks (s : List UInt8) : Prop := wrap 65535 (wordSum (padEven s)) = 65535

theorem checks_iff {s : List UInt8} :
    Checks s ↔ 0 < wordSum (padEven s) ∧ 65535 ∣ wordSum (padEven s) :=
  wrap_eq_top_iff 65535

theorem padEven_of_even {s : List UInt8} (h : s.length % 2 = 0) : padEven s = s := by
  rw [padEven, h]
  exact List.append_nil s

theorem wordSum_padEven_append {s : List UInt8} (t : List UInt8) (h : s.length % 2 = 0) :
    wordSum (padEven (s ++ t)) = wordSum s + wordSum (padEven t) := by
  have hlen : (s ++ t).length % 2 = t.length % 2 := by
    rw [List.length_append]
    omega
  rw [padEven, hlen, List.append_assoc, wordSum_append _ h, padEven]

/-- The zero makes a word of the last byte. -/
theorem wordSum_padEven_snoc {s : List UInt8} (x : UInt8) (h : s.length % 2 = 0) :
    wordSum (padEven (s ++ [x])) = wordSum (s ++ [x]) + x.toNat * 256 := by
  rw [wordSum_padEven_append [x] h, wordSum_append [x] h, wordSum_singleton, Nat.add_zero]
  show wordSum s + wordSum [x, 0] = _
  rw [wordSum_cons_cons, wordSum_nil, UInt8.toNat_zero, Nat.add_zero]

/-- A sum that leaves out the byte behind the last whole word is right only without it: the
byte moves the sum by less than the largest word. -/
theorem dvd_padEven_iff {s : List UInt8} {n : Nat} (hpos : 0 < n + wordSum s)
    (hdvd : 65535 ∣ n + wordSum s) :
    (0 < n + wordSum (padEven s) ∧ 65535 ∣ n + wordSum (padEven s)) ↔
      s.length % 2 = 0 ∨ s.getLast? = some 0 := by
  by_cases heven : s.length % 2 = 0
  · rw [padEven_of_even heven]
    exact iff_of_true ⟨hpos, hdvd⟩ (.inl heven)
  · have hne : s ≠ [] := by
      rintro rfl
      exact heven rfl
    obtain ⟨init, x, rfl⟩ := (List.eq_nil_or_concat' s).resolve_left hne
    have hinit : init.length % 2 = 0 := by
      rw [List.length_append, List.length_singleton] at heven
      omega
    have hlast : (init ++ [x]).getLast? = some 0 ↔ x.toNat = 0 := by
      rw [List.getLast?_concat, Option.some.injEq, ← UInt8.toNat_inj]
      rfl
    have hx := x.toNat_lt
    rw [wordSum_padEven_snoc x hinit, hlast]
    generalize wordSum (init ++ [x]) = sum at hpos hdvd
    constructor
    · rintro ⟨-, hall⟩
      right
      omega
    · rintro (heven' | hzero)
      · exact absurd heven' heven
      · rw [hzero]
        exact ⟨by omega, by omega⟩

end OnesComplement
