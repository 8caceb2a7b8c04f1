/-
Numbers as bytes, the most significant byte first.
-/
import Rucoonos.Lib.Slice
import Mathlib.Data.Nat.ModEq
import Mathlib.Tactic.Ring

namespace BigEndian

/-- The low `n` bytes of a number. -/
def encode : Nat → Nat → List UInt8
  | 0, _ => []
  | n + 1, x => UInt8.ofNat (x / 256 ^ n) :: encode n x

/-- The number that some bytes spell. -/
def decode (bytes : List UInt8) : Nat :=
  bytes.foldl (fun acc b => acc * 256 + b.toNat) 0

@[simp] theorem length_encode (n x : Nat) : (encode n x).length = n := by
  induction n with
  | zero => rfl
  | succ n ih => rw [encode, List.length_cons, ih]

theorem foldl_encode (n x acc : Nat) :
    (encode n x).foldl (fun acc b => acc * 256 + b.toNat) acc = acc * 256 ^ n + x % 256 ^ n := by
  induction n generalizing acc with
  | zero => simp [encode, Nat.mod_one]
  | succ n ih =>
      have hbyte : (UInt8.ofNat (x / 256 ^ n)).toNat = x / 256 ^ n % 256 := UInt8.toNat_ofNat'
      have hsplit : x % 256 ^ (n + 1) = x % 256 ^ n + 256 ^ n * (x / 256 ^ n % 256) := by
        rw [pow_succ, Nat.mod_mul]
      rw [encode, List.foldl_cons, ih, hbyte, hsplit]
      ring

/-- Decoding gives the number back, up to what the bytes can hold. -/
theorem decode_encode (n x : Nat) : decode (encode n x) = x % 256 ^ n := by
  rw [decode, foldl_encode, Nat.zero_mul, Nat.zero_add]

theorem decode_lt (bytes : List UInt8) : decode bytes < 256 ^ bytes.length := by
  induction bytes using List.reverseRecOn with
  | nil => exact Nat.one_pos
  | append_singleton bytes b ih =>
      have hb := b.toNat_lt
      rw [decode, List.foldl_append, ← decode, List.length_append, List.length_singleton, pow_succ]
      show decode bytes * 256 + b.toNat < _
      omega

/-! ### Two and four bytes -/

/-- `x.to_be_bytes()`. -/
def u16ToBe (x : UInt16) : List UInt8 := encode 2 x.toNat

def u32ToBe (x : UInt32) : List UInt8 := encode 4 x.toNat

/-- `u16::from_be_bytes(b)`. -/
def u16FromBe (b : Vector UInt8 2) : UInt16 := UInt16.ofNat (decode b.toList)

def u32FromBe (b : Vector UInt8 4) : UInt32 := UInt32.ofNat (decode b.toList)

@[simp] theorem length_u16ToBe (x : UInt16) : (u16ToBe x).length = 2 := length_encode 2 _

@[simp] theorem length_u32ToBe (x : UInt32) : (u32ToBe x).length = 4 := length_encode 4 _

theorem u16ToBe_eq (x : UInt16) :
    u16ToBe x = [UInt8.ofNat (x.toNat / 256), UInt8.ofNat x.toNat] := by
  show [UInt8.ofNat (x.toNat / 256 ^ 1), UInt8.ofNat (x.toNat / 256 ^ 0)] = _
  rw [pow_one, pow_zero, Nat.div_one]

theorem u16FromBe_of_toBe {b : Vector UInt8 2} {x : UInt16} (h : b.toList = u16ToBe x) :
    u16FromBe b = x := by
  unfold u16FromBe
  have hlt := x.toNat_lt
  rw [h, u16ToBe, decode_encode, Nat.mod_eq_of_lt (by omega), UInt16.ofNat_toNat]

theorem decode_u32ToBe (x : UInt32) : decode (u32ToBe x) = x.toNat := by
  have hlt := x.toNat_lt
  rw [u32ToBe, decode_encode, Nat.mod_eq_of_lt (by omega)]

/-! ### Fields that share a byte -/

theorem toNat_mask (b : UInt8) {mask : UInt8} {k : Nat} (h : mask.toNat = 2 ^ k - 1) :
    (b &&& mask).toNat = b.toNat % 2 ^ k := by
  rw [UInt8.toNat_and, h, Nat.and_two_pow_sub_one_eq_mod]

theorem toNat_shiftRight (b : UInt8) {shift : UInt8} (h : shift.toNat < 8) :
    (b >>> shift).toNat = b.toNat / 2 ^ shift.toNat := by
  rw [UInt8.toNat_shiftRight, Nat.mod_eq_of_lt h, Nat.shiftRight_eq_div_pow]

theorem toNat_shiftLeft (b : UInt8) {shift : UInt8} (h : shift.toNat < 8) :
    (b <<< shift).toNat = b.toNat * 2 ^ shift.toNat % 256 := by
  rw [UInt8.toNat_shiftLeft, Nat.mod_eq_of_lt h, Nat.shiftLeft_eq]

/-- A field behind one that ends in `k` zeroes. -/
theorem toNat_or_low {a b : UInt8} {n k : Nat} (ha : a.toNat = n * 2 ^ k) (hb : b.toNat < 2 ^ k) :
    (a ||| b).toNat = n * 2 ^ k + b.toNat := by
  rw [UInt8.toNat_or, ha, ← Nat.shiftLeft_eq, Nat.shiftLeft_add_eq_or_of_lt hb]

/-! ### Reading a number out of a slice -/

open Slice

/-- `u16::from_be_bytes(s[lo..hi].try_into().unwrap())`. -/
def u16At (s : List UInt8) (lo hi : Nat) : Exec UInt16 := do
  let b ← arrayAt 2 s lo hi
  return u16FromBe b

def u32At (s : List UInt8) (lo hi : Nat) : Exec UInt32 := do
  let b ← arrayAt 4 s lo hi
  return u32FromBe b

/-- The number that was read is the one that stands there. -/
theorem u16At_ok {s : List UInt8} {lo hi : Nat} (h : hi = lo + 2) (hhi : hi ≤ s.length) :
    ∃ x, u16At s lo hi = .ok x ∧ x.toNat = decode (sub s lo hi) := by
  obtain ⟨v, hv, hlist⟩ := arrayAt_ok h hhi
  have hlt := decode_lt v.toList
  rw [v.length_toList] at hlt
  refine ⟨u16FromBe v, by rw [u16At, hv]; rfl, ?_⟩
  rw [← hlist, u16FromBe]
  exact Nat.mod_eq_of_lt hlt

theorem u32At_ok {s : List UInt8} {lo hi : Nat} (h : hi = lo + 4) (hhi : hi ≤ s.length) :
    ∃ x, u32At s lo hi = .ok x ∧ x.toNat = decode (sub s lo hi) := by
  obtain ⟨v, hv, hlist⟩ := arrayAt_ok h hhi
  have hlt := decode_lt v.toList
  rw [v.length_toList] at hlt
  refine ⟨u32FromBe v, by rw [u32At, hv]; rfl, ?_⟩
  rw [← hlist, u32FromBe]
  exact Nat.mod_eq_of_lt hlt

theorem ends_u16At {s : List UInt8} {lo hi : Nat} (h : hi = lo + 2) :
    Ends (u16At s lo hi) ↔ hi ≤ s.length := by
  rw [← ends_arrayAt h, u16At, ends_bind]
  exact ⟨fun ⟨b, hb, _⟩ => ⟨b, hb⟩, fun ⟨b, hb⟩ => ⟨b, hb, ends_ok _⟩⟩

theorem u16At_of_holds {s : List UInt8} {ws : List (Write UInt8)} (h : Holds s ws) (k : Nat)
    {lo hi : Nat} {x : UInt16} (hk : ws[k]? = some ⟨lo, hi, u16ToBe x⟩) (hlo : lo ≤ hi) :
    u16At s lo hi = .ok x := by
  obtain ⟨hhi, hsub⟩ := h _ (List.mem_of_getElem? hk)
  obtain ⟨v, hv, hlist⟩ := array_ok (length_u16ToBe x)
  rw [u16At, arrayAt_of_sub (hsub.trans hlist.symm) hlo hhi, ok_bind, u16FromBe_of_toBe hlist]
  rfl

/-! ### Sums of words -/

/-- `[a, b]`. -/
def pair (a b : UInt8) : Vector UInt8 2 := #v[a, b]

/-- `s.chunks_exact(2)`, each chunk read as a number. -/
def words : List UInt8 → List UInt16
  | a :: b :: rest => u16FromBe (pair a b) :: words rest
  | _ => []

/-- The sum of some words, in a program that checks its arithmetic. -/
def sumWords (ws : List UInt16) : Exec UInt32 :=
  ws.foldlM (fun acc w => addU32 acc w.toUInt32) 0

/-- The sum of the words of a slice; a last byte without a partner is left out. -/
def wordSum (s : List UInt8) : Nat := ((words s).map UInt16.toNat).sum

theorem length_words : ∀ s : List UInt8, (words s).length = s.length / 2
  | [] => rfl
  | [a] => by simp [words]
  | a :: b :: s => by
      rw [words, List.length_cons, length_words s, List.length_cons, List.length_cons]
      omega

theorem toNat_u16FromBe_pair (a b : UInt8) :
    (u16FromBe (pair a b)).toNat = a.toNat * 256 + b.toNat := by
  have ha := a.toNat_lt
  have hb := b.toNat_lt
  have hdecode : decode (pair a b).toList = a.toNat * 256 + b.toNat := by
    show (0 * 256 + a.toNat) * 256 + b.toNat = _
    omega
  rw [u16FromBe, hdecode]
  exact Nat.mod_eq_of_lt (by omega)

@[simp] theorem wordSum_nil : wordSum [] = 0 := rfl

@[simp] theorem wordSum_singleton (a : UInt8) : wordSum [a] = 0 := rfl

@[simp] theorem wordSum_cons_cons (a b : UInt8) (s : List UInt8) :
    wordSum (a :: b :: s) = a.toNat * 256 + b.toNat + wordSum s := by
  rw [wordSum, words, List.map_cons, List.sum_cons, toNat_u16FromBe_pair, wordSum]

/-- Words do not straddle a place at an even distance from the front. -/
theorem wordSum_append : ∀ {s : List UInt8} (t : List UInt8), s.length % 2 = 0 →
    wordSum (s ++ t) = wordSum s + wordSum t
  | [], t, _ => by rw [List.nil_append, wordSum_nil, Nat.zero_add]
  | [a], t, h => by cases h
  | a :: b :: s, t, h => by
      have hs : s.length % 2 = 0 := by
        rw [List.length_cons, List.length_cons] at h
        omega
      rw [List.cons_append, List.cons_append, wordSum_cons_cons, wordSum_cons_cons,
        wordSum_append t hs, ← Nat.add_assoc]

theorem wordSum_u16ToBe (x : UInt16) : wordSum (u16ToBe x) = x.toNat := by
  have hx := x.toNat_lt
  rw [u16ToBe_eq, wordSum_cons_cons, wordSum_nil, UInt8.toNat_ofNat', UInt8.toNat_ofNat']
  omega

theorem wordSum_le : ∀ s : List UInt8, wordSum s ≤ 65535 * (s.length / 2)
  | [] => Nat.zero_le _
  | [a] => Nat.zero_le _
  | a :: b :: s => by
      have ha := a.toNat_lt
      have hb := b.toNat_lt
      have hs := wordSum_le s
      rw [wordSum_cons_cons, List.length_cons, List.length_cons]
      omega

theorem take_words : ∀ (k : Nat) (s : List UInt8), (words s).take k = words (s.take (2 * k))
  | 0, s => by
      rw [List.take_zero, Nat.mul_zero, List.take_zero]
      rfl
  | k + 1, [] => rfl
  | k + 1, [a] => rfl
  | k + 1, a :: b :: s => by
      rw [words, List.take_succ_cons, take_words k s]
      rfl

/-- A last byte without a partner is not in the sum. -/
theorem wordSum_take_even : ∀ s : List UInt8, wordSum (s.take (2 * (s.length / 2))) = wordSum s
  | [] => rfl
  | [a] => by simp
  | a :: b :: s => by
      have hlen : 2 * ((a :: b :: s).length / 2) = 2 * (s.length / 2) + 2 := by
        rw [List.length_cons, List.length_cons]
        omega
      rw [hlen, List.take_succ_cons, List.take_succ_cons, wordSum_cons_cons, wordSum_cons_cons,
        wordSum_take_even s]

/-- A sum that fits is what it should be. -/
theorem sumWords_ok {ws : List UInt16} (h : (ws.map UInt16.toNat).sum < 2 ^ 32) :
    ∃ x, sumWords ws = .ok x ∧ x.toNat = (ws.map UInt16.toNat).sum := by
  have hfrom : ∀ (ws : List UInt16) (acc : UInt32),
      acc.toNat + (ws.map UInt16.toNat).sum < 2 ^ 32 →
        ∃ x, ws.foldlM (fun acc w => addU32 acc w.toUInt32) acc = .ok x ∧
          x.toNat = acc.toNat + (ws.map UInt16.toNat).sum := by
    intro ws
    induction ws with
    | nil =>
        intro acc _
        exact ⟨acc, rfl, rfl⟩
    | cons w rest ih =>
        intro acc hacc
        rw [List.map_cons, List.sum_cons] at hacc
        have hadd : addU32 acc w.toUInt32 = .ok (acc + w.toUInt32) := by
          rw [addU32, UInt16.toNat_toUInt32, if_pos (by omega)]
        have hval : (acc + w.toUInt32).toNat = acc.toNat + w.toNat := by
          rw [UInt32.toNat_add, UInt16.toNat_toUInt32]
          exact Nat.mod_eq_of_lt (by omega)
        obtain ⟨x, hx, hsum⟩ := ih (acc + w.toUInt32) (by rw [hval]; omega)
        refine ⟨x, ?_, ?_⟩
        · rw [List.foldlM_cons, hadd, ok_bind, hx]
        · rw [hsum, hval, List.map_cons, List.sum_cons, Nat.add_assoc]
  obtain ⟨x, hx, hsum⟩ := hfrom ws 0 (by rw [UInt32.toNat_zero]; omega)
  exact ⟨x, hx, by rw [hsum, UInt32.toNat_zero, Nat.zero_add]⟩

end BigEndian
