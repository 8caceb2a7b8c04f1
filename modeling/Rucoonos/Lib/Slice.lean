/-
Slices that are checked at run time.

A program over slices stops with a panic when an index or a range leaves the slice,
when two slices that should have one length do not, when a failure is unwrapped or
when an addition does not fit its type.  `Exec` is the type of such programs.

Reading and writing each come twice: as a total function on lists (`sub`, `put`) and
as the checked operation that a program calls.  A checked operation inside its bounds
is the total one, and the lemmas about reading back what was written are about the
total ones.  A loop over a range is followed by an invariant (`forRange_ok`).
-/
import Mathlib.Data.List.Basic
import Mathlib.Data.UInt

namespace Slice

variable {α β : Type}

/-- Why a program stopped. -/
inductive Panic
  | bounds
  | unwrap
  | overflow
  | assertion
  | todo
  deriving DecidableEq, Repr

abbrev Exec := Except Panic

instance instDecidableEqExcept {ε α : Type} [DecidableEq ε] [DecidableEq α] :
    DecidableEq (Except ε α)
  | .ok x, .ok y => decidable_of_iff (x = y) (by rw [Except.ok.injEq])
  | .error e, .error f => decidable_of_iff (e = f) (by rw [Except.error.injEq])
  | .ok _, .error _ => isFalse fun h => by cases h
  | .error _, .ok _ => isFalse fun h => by cases h

/-! ### The operations -/

/-- `[0u8; n]`. -/
def zeros (n : Nat) : List UInt8 := List.replicate n 0

def unwrap : Option α → Exec α
  | some x => .ok x
  | none => .error .unwrap

/-- `assert_eq!`. -/
def assertEq [DecidableEq α] (x y : α) : Exec Unit :=
  if x = y then .ok () else .error .assertion

/-- `s[i]`. -/
def index (s : List α) (i : Nat) : Exec α :=
  match s[i]? with
  | some x => .ok x
  | none => .error .bounds

/-- The elements from `lo` up to, not including, `hi`. -/
def sub (s : List α) (lo hi : Nat) : List α := (s.drop lo).take (hi - lo)

/-- `s[lo..hi]`. -/
def range (s : List α) (lo hi : Nat) : Exec (List α) :=
  if lo ≤ hi ∧ hi ≤ s.length then .ok (sub s lo hi) else .error .bounds

/-- `s` with `src` written over it at `lo`. -/
def put (s : List α) (lo : Nat) (src : List α) : List α :=
  s.take lo ++ (src ++ s.drop (lo + src.length))

/-- `s[lo..hi].copy_from_slice(src)`. -/
def copyFromSlice (s : List α) (lo hi : Nat) (src : List α) : Exec (List α) :=
  if lo ≤ hi ∧ hi ≤ s.length ∧ src.length = hi - lo then .ok (put s lo src) else .error .bounds

/-- `f(&mut s[lo..hi])`. -/
def onRange (s : List α) (lo hi : Nat) (f : List α → Exec (List α × β)) :
    Exec (List α × β) := do
  let part ← range s lo hi
  let (part, r) ← f part
  return (put s lo part, r)

/-- One write of a list of them: `s[lo..hi].copy_from_slice(src)`. -/
structure Write (α : Type) where
  lo : Nat
  hi : Nat
  src : List α

/-- `s[i] = x`. -/
def Write.one (i : Nat) (x : α) : Write α := ⟨i, i + 1, [x]⟩

/-- One write after the other. -/
def writeAll (s : List α) : List (Write α) → Exec (List α)
  | [] => .ok s
  | w :: rest => do
      let s ← copyFromSlice s w.lo w.hi w.src
      writeAll s rest

/-- `s.try_into().unwrap()` at an array type. -/
def array (n : Nat) (s : List α) : Exec (Vector α n) :=
  if h : s.length = n then .ok ⟨s.toArray, by rw [List.size_toArray, h]⟩ else .error .unwrap

/-- `s[lo..hi].try_into().unwrap()` at an array type. -/
def arrayAt (n : Nat) (s : List α) (lo hi : Nat) : Exec (Vector α n) := do
  let part ← range s lo hi
  array n part

/-- `a + b` in a program that checks its arithmetic. -/
def addU16 (a b : UInt16) : Exec UInt16 :=
  if a.toNat + b.toNat < 2 ^ 16 then .ok (a + b) else .error .overflow

def addU32 (a b : UInt32) : Exec UInt32 :=
  if a.toNat + b.toNat < 2 ^ 32 then .ok (a + b) else .error .overflow

def addU64 (a b : UInt64) : Exec UInt64 :=
  if a.toNat + b.toNat < 2 ^ 64 then .ok (a + b) else .error .overflow

/-- `a + b` for lengths, which are of type `usize`. -/
def addUsize (a b : Nat) : Exec Nat :=
  if a + b < 2 ^ 64 then .ok (a + b) else .error .overflow

/-- `a * b`, likewise. -/
def mulU64 (a b : UInt64) : Exec UInt64 :=
  if a.toNat * b.toNat < 2 ^ 64 then .ok (a * b) else .error .overflow

/-- `for i in lo..hi`, with what the body changes passed along. -/
def forRange (lo hi : Nat) (body : α → Nat → Exec α) (x : α) : Exec α :=
  (List.range' lo (hi - lo)).foldlM body x

/-! ### Running -/

theorem assertEq_eq_ok [DecidableEq α] {x y : α} : assertEq x y = .ok () ↔ x = y := by
  unfold assertEq
  split <;> simp_all

theorem addUsize_ok {a b : Nat} (h : a + b < 2 ^ 64) : addUsize a b = .ok (a + b) := if_pos h

theorem addUsize_eq_ok {a b n : Nat} : addUsize a b = .ok n ↔ a + b < 2 ^ 64 ∧ a + b = n := by
  unfold addUsize
  split <;> simp_all

@[simp] theorem ok_bind (x : α) (f : α → Exec β) : ((Except.ok x : Exec α) >>= f) = f x := rfl

@[simp] theorem error_bind (e : Panic) (f : α → Exec β) :
    ((Except.error e : Exec α) >>= f) = .error e := rfl

@[simp] theorem pure_eq_ok (x : α) : (pure x : Exec α) = .ok x := rfl

/-- A program that ends without a panic ran its first part without one. -/
theorem bind_eq_ok {m : Exec α} {f : α → Exec β} {y : β} :
    (m >>= f) = .ok y ↔ ∃ x, m = .ok x ∧ f x = .ok y := by
  cases m with
  | error e => simp
  | ok x => simp

/-- The program ended without a panic. -/
def Ends (m : Exec α) : Prop := ∃ x, m = .ok x

theorem ends_ok (x : α) : Ends (.ok x : Exec α) := ⟨x, rfl⟩

theorem not_ends_error (e : Panic) : ¬ Ends (.error e : Exec α) := by
  rintro ⟨x, hx⟩
  cases hx

theorem ends_bind {m : Exec α} {f : α → Exec β} :
    Ends (m >>= f) ↔ ∃ x, m = .ok x ∧ Ends (f x) := by
  constructor
  · rintro ⟨y, hy⟩
    obtain ⟨x, hx, hy⟩ := bind_eq_ok.mp hy
    exact ⟨x, hx, y, hy⟩
  · rintro ⟨x, hx, y, hy⟩
    exact ⟨y, bind_eq_ok.mpr ⟨x, hx, hy⟩⟩

/-- A part whose result does not matter for whether the rest ends. -/
theorem ends_bind_of {m : Exec α} {f : α → Exec β} {P Q : Prop} (hm : Ends m ↔ P)
    (hf : ∀ x, m = .ok x → (Ends (f x) ↔ Q)) : Ends (m >>= f) ↔ P ∧ Q := by
  rw [ends_bind, ← hm]
  constructor
  · rintro ⟨x, hx, hfx⟩
    exact ⟨⟨x, hx⟩, (hf x hx).mp hfx⟩
  · rintro ⟨⟨x, hx⟩, hQ⟩
    exact ⟨x, hx, (hf x hx).mpr hQ⟩

theorem ends_bind_ok {m : Exec α} {f : α → β} : Ends (m >>= fun x => .ok (f x)) ↔ Ends m := by
  rw [ends_bind]
  exact ⟨fun ⟨x, hx, _⟩ => ⟨x, hx⟩, fun ⟨x, hx⟩ => ⟨x, hx, ends_ok _⟩⟩

theorem ends_addUsize {a b : Nat} : Ends (addUsize a b) ↔ a + b < 2 ^ 64 := by
  simp [Ends, addUsize_eq_ok]

/-- A loop keeps what each turn of it keeps. -/
theorem forRange_ok (Inv : Nat → α → Prop) {lo hi : Nat} {body : α → Nat → Exec α} {x : α}
    (hle : lo ≤ hi) (hstart : Inv lo x)
    (hstep : ∀ i x, lo ≤ i → i < hi → Inv i x → ∃ y, body x i = .ok y ∧ Inv (i + 1) y) :
    ∃ y, forRange lo hi body x = .ok y ∧ Inv hi y := by
  unfold forRange
  obtain ⟨n, rfl⟩ := Nat.exists_eq_add_of_le hle
  rw [Nat.add_sub_cancel_left]
  clear hle
  induction n generalizing lo x with
  | zero => exact ⟨x, rfl, hstart⟩
  | succ n ih =>
      obtain ⟨y, hbody, hy⟩ := hstep lo x (Nat.le_refl lo) (by omega) hstart
      rw [List.range'_succ, List.foldlM_cons, hbody, ok_bind,
        show lo + (n + 1) = lo + 1 + n by omega]
      exact ih hy fun i x hlo hhi => hstep i x (by omega) (by omega)

/-- The program ended without a panic, and with a value. -/
def succeeds : Exec (Option α) → Bool
  | .ok (some _) => true
  | _ => false

theorem exists_of_succeeds {m : Exec (Option α)} (h : succeeds m = true) :
    ∃ x, m = .ok (some x) := by
  unfold succeeds at h
  split at h
  · exact ⟨_, rfl⟩
  · cases h

theorem eq_ok_of_toOption {m : Exec α} {x : α} (h : m.toOption = some x) : m = .ok x := by
  cases m with
  | error e => cases h
  | ok y =>
      cases h
      rfl

/-- A program and a run from its result, evaluated together. -/
theorem exists_of_started {α β γ : Type} {m : Exec α} {run : α → Option β} {f : α × β → γ} {c : γ}
    (h : (m.toOption.bind fun x => (run x).bind fun y => some (x, y)).map f = some c) :
    ∃ x y, m = .ok x ∧ run x = some y ∧ f (x, y) = c := by
  obtain ⟨⟨x, y⟩, hrun, hc⟩ := Option.map_eq_some_iff.mp h
  obtain ⟨x', hx, hrun⟩ := Option.bind_eq_some_iff.mp hrun
  obtain ⟨y', hy, hrun⟩ := Option.bind_eq_some_iff.mp hrun
  cases hrun
  exact ⟨x, y, eq_ok_of_toOption hx, hy, hc⟩

theorem eq_of_unwrap {o : Option α} {x : α} (h : unwrap o = .ok x) : o = some x := by
  cases o with
  | none => cases h
  | some y =>
      cases h
      rfl

/-! ### Inside the bounds -/

theorem index_of_lt {s : List α} {i : Nat} (h : i < s.length) : index s i = .ok s[i] := by
  unfold index
  rw [List.getElem?_eq_getElem h]

theorem index_of_le {s : List α} {i : Nat} (h : s.length ≤ i) : index s i = .error .bounds := by
  unfold index
  rw [List.getElem?_eq_none h]

theorem index_ok {s : List α} {i : Nat} (h : i < s.length) :
    ∃ x, index s i = .ok x ∧ s[i]? = some x :=
  ⟨s[i], index_of_lt h, List.getElem?_eq_getElem h⟩

theorem range_ok {s : List α} {lo hi : Nat} (h : lo ≤ hi) (hhi : hi ≤ s.length) :
    range s lo hi = .ok (sub s lo hi) :=
  if_pos ⟨h, hhi⟩

theorem copyFromSlice_ok {s src : List α} {lo hi : Nat} (h : lo ≤ hi) (hhi : hi ≤ s.length)
    (hsrc : src.length = hi - lo) : copyFromSlice s lo hi src = .ok (put s lo src) :=
  if_pos ⟨h, hhi, hsrc⟩

@[simp] theorem array_toList {n : Nat} (v : Vector α n) : array n v.toList = .ok v := by
  unfold array
  rw [dif_pos v.length_toList]
  congr 1

theorem array_ok {n : Nat} {s : List α} (h : s.length = n) :
    ∃ v : Vector α n, array n s = .ok v ∧ v.toList = s := by
  refine ⟨⟨s.toArray, by rw [List.size_toArray, h]⟩, ?_, rfl⟩
  unfold array
  rw [dif_pos h]

/-! ### Exactly inside the bounds -/

theorem ends_index {s : List α} {i : Nat} : Ends (index s i) ↔ i < s.length := by
  rcases Nat.lt_or_ge i s.length with h | h
  · rw [index_of_lt h]
    exact ⟨fun _ => h, fun _ => ends_ok _⟩
  · rw [index_of_le h]
    exact ⟨fun hc => absurd hc (not_ends_error _), fun hc => absurd hc (by omega)⟩

theorem ends_range {s : List α} {lo hi : Nat} :
    Ends (range s lo hi) ↔ lo ≤ hi ∧ hi ≤ s.length := by
  unfold range
  split
  · rename_i h
    exact ⟨fun _ => h, fun _ => ends_ok _⟩
  · rename_i h
    exact ⟨fun hc => absurd hc (not_ends_error _), fun hc => absurd hc h⟩

/-! ### Sums and products that fit -/

theorem addU64_ok {a b : UInt64} (h : a.toNat + b.toNat < 2 ^ 64) :
    ∃ c, addU64 a b = .ok c ∧ c.toNat = a.toNat + b.toNat :=
  ⟨a + b, if_pos h, by rw [UInt64.toNat_add, Nat.mod_eq_of_lt h]⟩

theorem addU64_overflow {a b : UInt64} (h : ¬ a.toNat + b.toNat < 2 ^ 64) :
    addU64 a b = .error .overflow :=
  if_neg h

theorem mulU64_ok {a b : UInt64} (h : a.toNat * b.toNat < 2 ^ 64) :
    ∃ c, mulU64 a b = .ok c ∧ c.toNat = a.toNat * b.toNat :=
  ⟨a * b, if_pos h, by rw [UInt64.toNat_mul, Nat.mod_eq_of_lt h]⟩

theorem mulU64_overflow {a b : UInt64} (h : ¬ a.toNat * b.toNat < 2 ^ 64) :
    mulU64 a b = .error .overflow :=
  if_neg h

/-! ### Lengths -/

@[simp] theorem length_zeros (n : Nat) : (zeros n).length = n := List.length_replicate

theorem drop_zeros (n k : Nat) : (zeros n).drop k = zeros (n - k) := List.drop_replicate

theorem take_zeros (n k : Nat) : (zeros n).take k = zeros (min k n) := List.take_replicate

theorem length_sub {s : List α} {lo hi : Nat} (hhi : hi ≤ s.length) :
    (sub s lo hi).length = hi - lo := by
  rw [sub, List.length_take, List.length_drop]
  omega

theorem length_put {s src : List α} {lo : Nat} (h : lo + src.length ≤ s.length) :
    (put s lo src).length = s.length := by
  rw [put, List.length_append, List.length_append, List.length_take, List.length_drop]
  omega

/-! ### Parts of a slice

A slice that is filled from the front is the part that is done and the rest.
-/

theorem put_append {before rest src : List α} {lo : Nat} (h : lo = before.length) :
    put (before ++ rest) lo src = before ++ (src ++ rest.drop src.length) := by
  subst h
  rw [put, List.take_left, List.drop_append, Nat.add_sub_cancel_left,
    List.drop_of_length_le (Nat.le_add_right _ _), List.nil_append]

theorem put_zero (s src : List α) : put s 0 src = src ++ s.drop src.length := by
  rw [put, List.take_zero, List.nil_append, Nat.zero_add]

/-- An array of the right length is what stands there. -/
theorem arrayAt_ok {n : Nat} {s : List α} {lo hi : Nat} (hn : hi = lo + n) (hhi : hi ≤ s.length) :
    ∃ v, arrayAt n s lo hi = .ok v ∧ v.toList = sub s lo hi := by
  obtain ⟨v, hv, hlist⟩ := array_ok (by rw [length_sub hhi]; omega : (sub s lo hi).length = n)
  refine ⟨v, ?_, hlist⟩
  rw [arrayAt, range_ok (by omega) hhi, ok_bind, hv]

theorem ends_arrayAt {n : Nat} {s : List α} {lo hi : Nat} (h : hi = lo + n) :
    Ends (arrayAt n s lo hi) ↔ hi ≤ s.length := by
  constructor
  · intro hends
    obtain ⟨part, hpart, -⟩ := ends_bind.mp hends
    exact (ends_range.mp ⟨part, hpart⟩).2
  · intro hhi
    obtain ⟨v, hv, -⟩ := arrayAt_ok h hhi
    exact ⟨v, hv⟩

/-! ### Reading -/

@[simp] theorem sub_front (s : List α) (hi : Nat) : sub s 0 hi = s.take hi := by
  rw [sub, List.drop_zero, Nat.sub_zero]

theorem sub_length (s : List α) (lo : Nat) : sub s lo s.length = s.drop lo := by
  rw [sub, List.take_of_length_le (by rw [List.length_drop])]

theorem sub_sub {s : List α} {lo hi lo' hi' : Nat} (h : lo + hi' ≤ hi) :
    sub (sub s lo hi) lo' hi' = sub s (lo + lo') (lo + hi') := by
  unfold sub
  rw [List.drop_take, List.drop_drop, List.take_take]
  congr 1
  omega

/-- Reading only depends on what is read. -/
theorem sub_congr {s t : List α} {lo hi : Nat} (h : ∀ i, lo ≤ i → i < hi → s[i]? = t[i]?) :
    sub s lo hi = sub t lo hi := by
  refine List.ext_getElem? ?_
  intro i
  unfold sub
  rw [List.getElem?_take, List.getElem?_take, List.getElem?_drop, List.getElem?_drop]
  by_cases hi' : i < hi - lo
  · rw [if_pos hi', if_pos hi']
    exact h (lo + i) (by omega) (by omega)
  · rw [if_neg hi', if_neg hi']

theorem sub_append_left {a b : List α} {lo hi : Nat} (h : hi ≤ a.length) :
    sub (a ++ b) lo hi = sub a lo hi :=
  sub_congr fun _ _ hi' => List.getElem?_append_left (by omega)

theorem sub_append_right {a b : List α} {lo hi : Nat} (h : a.length ≤ lo) :
    sub (a ++ b) lo hi = sub b (lo - a.length) (hi - a.length) := by
  unfold sub
  rw [List.drop_append, List.drop_of_length_le h, List.nil_append]
  congr 1
  omega

theorem sub_take {s : List α} {n lo hi : Nat} (h : hi ≤ n) : sub (s.take n) lo hi = sub s lo hi :=
  sub_congr fun _ _ hi' => by rw [List.getElem?_take, if_pos (by omega)]

theorem sub_zeros {n lo hi : Nat} (h : hi ≤ n) : sub (zeros n) lo hi = zeros (hi - lo) := by
  rw [sub, drop_zeros, take_zeros, Nat.min_eq_left (by omega)]

/-- The two parts of what was read. -/
theorem sub_split {s a b : List α} {lo mid hi : Nat} (h : sub s lo hi = a ++ b)
    (hmid : mid = lo + a.length) (hhi : mid ≤ hi) : sub s lo mid = a ∧ sub s mid hi = b := by
  refine ⟨?_, ?_⟩
  · have hfront : sub (sub s lo hi) 0 a.length = sub s lo mid := by
      rw [sub_sub (by omega), Nat.add_zero, hmid]
    rw [← hfront, h, sub_front, List.take_left]
  · have hback : sub (sub s lo hi) a.length (hi - lo) = sub s mid hi := by
      rw [sub_sub (by omega), hmid]
      congr 1
      omega
    have hle : (a ++ b).length ≤ hi - lo := by
      rw [← h]
      exact List.length_take_le _ _
    rw [List.length_append] at hle
    rw [← hback, h, sub_append_right (Nat.le_refl _), Nat.sub_self, sub_front,
      List.take_of_length_le (by omega)]

theorem sub_join {s : List α} {lo mid hi : Nat} (hlo : lo ≤ mid) (hhi : mid ≤ hi) :
    sub s lo hi = sub s lo mid ++ sub s mid hi := by
  unfold sub
  rw [show hi - lo = (mid - lo) + (hi - mid) by omega, List.take_add, List.drop_drop,
    show lo + (mid - lo) = mid by omega]

theorem index_of_sub {s : List α} {i : Nat} {x : α} (h : sub s i (i + 1) = [x]) :
    index s i = .ok x := by
  have hget : s[i]? = some x := by
    have := congrArg (fun l : List α => l[0]?) h
    simpa [sub, Nat.add_sub_cancel_left] using this
  unfold index
  rw [hget]

theorem index_take {s : List α} {n i : Nat} (h : i < n) : index (s.take n) i = index s i := by
  unfold index
  rw [List.getElem?_take_of_lt h]

theorem arrayAt_of_sub {n : Nat} {s : List α} {lo hi : Nat} {v : Vector α n}
    (h : sub s lo hi = v.toList) (hlo : lo ≤ hi) (hhi : hi ≤ s.length) :
    arrayAt n s lo hi = .ok v := by
  rw [arrayAt, range_ok hlo hhi, ok_bind, h, array_toList]

/-! ### Reading back what was written -/

theorem getElem?_put_of_lt {s src : List α} {lo i : Nat} (hi : i < lo) (h : lo ≤ s.length) :
    (put s lo src)[i]? = s[i]? := by
  unfold put
  rw [List.getElem?_append_left (by rw [List.length_take]; omega), List.getElem?_take, if_pos hi]

theorem getElem?_put_of_ge {s src : List α} {lo i : Nat} (hi : lo + src.length ≤ i)
    (h : lo ≤ s.length) : (put s lo src)[i]? = s[i]? := by
  have hlen : (s.take lo).length = lo := by rw [List.length_take]; omega
  unfold put
  rw [List.getElem?_append_right (by omega), List.getElem?_append_right (by omega),
    List.getElem?_drop]
  congr 1
  omega

theorem sub_put_self {s src : List α} {lo hi : Nat} (hhi : hi = lo + src.length)
    (h : lo ≤ s.length) : sub (put s lo src) lo hi = src := by
  have hlen : (s.take lo).length = lo := by rw [List.length_take]; omega
  unfold sub put
  rw [List.drop_append_of_le_length (by omega), List.drop_of_length_le (by omega), List.nil_append,
    List.take_append_of_le_length (by omega), List.take_of_length_le (by omega)]

theorem sub_put_before {s src : List α} {lo hi start : Nat} (hhi : hi ≤ start)
    (h : start ≤ s.length) : sub (put s start src) lo hi = sub s lo hi :=
  sub_congr fun _ _ hi' => getElem?_put_of_lt (by omega) h

theorem sub_put_after {s src : List α} {lo hi start : Nat} (hlo : start + src.length ≤ lo)
    (h : start ≤ s.length) : sub (put s start src) lo hi = sub s lo hi :=
  sub_congr fun _ hlo' _ => getElem?_put_of_ge (by omega) h

/-! ### Lists of writes -/

/-- A write fits a slice of length `n`. -/
def Write.Fits (n : Nat) (w : Write α) : Prop := w.lo ≤ w.hi ∧ w.hi ≤ n ∧ w.src.length = w.hi - w.lo

instance (n : Nat) (w : Write α) : Decidable (w.Fits n) := by
  unfold Write.Fits
  infer_instance

/-- `s` with all of the writes done. -/
def putAll (s : List α) (ws : List (Write α)) : List α :=
  ws.foldl (fun s w => put s w.lo w.src) s

theorem putAll_cons (s : List α) (w : Write α) (ws : List (Write α)) :
    putAll s (w :: ws) = putAll (put s w.lo w.src) ws := rfl

theorem length_of_copyFromSlice {s s' src : List α} {lo hi : Nat}
    (h : copyFromSlice s lo hi src = .ok s') : s'.length = s.length := by
  unfold copyFromSlice at h
  split at h
  · rename_i hb
    cases h
    exact length_put (by omega)
  · cases h

theorem length_of_onRange {s s' : List α} {lo hi : Nat} {f : List α → Exec (List α × β)} {r : β}
    (hf : ∀ part part' r, f part = .ok (part', r) → part'.length = part.length)
    (h : onRange s lo hi f = .ok (s', r)) : s'.length = s.length := by
  obtain ⟨part, hpart, h⟩ := bind_eq_ok.mp h
  obtain ⟨⟨part', r'⟩, hpart', h⟩ := bind_eq_ok.mp h
  cases h
  unfold range at hpart
  split at hpart
  · rename_i hb
    cases hpart
    have hlen := hf _ _ _ hpart'
    rw [length_sub hb.2] at hlen
    exact length_put (by omega)
  · cases hpart

theorem length_of_writeAll {ws : List (Write α)} :
    ∀ {s s' : List α}, writeAll s ws = .ok s' → s'.length = s.length := by
  induction ws with
  | nil =>
      intro s s' h
      cases h
      rfl
  | cons w rest ih =>
      intro s s' h
      obtain ⟨mid, hmid, h⟩ := bind_eq_ok.mp h
      rw [ih h, length_of_copyFromSlice hmid]

/-- Writes that fit are done. -/
theorem writeAll_ok {ws : List (Write α)} :
    ∀ {s : List α}, (∀ w ∈ ws, w.Fits s.length) → writeAll s ws = .ok (putAll s ws) := by
  induction ws with
  | nil =>
      intro s _
      rfl
  | cons w rest ih =>
      intro s hfits
      obtain ⟨hlo, hhi, hsrc⟩ := hfits w List.mem_cons_self
      have hlen : (put s w.lo w.src).length = s.length := length_put (by omega)
      rw [writeAll, copyFromSlice_ok hlo hhi hsrc, ok_bind, ih]
      · rfl
      · intro w' hw'
        rw [hlen]
        exact hfits w' (List.mem_cons_of_mem w hw')

theorem length_putAll {ws : List (Write α)} {s : List α} (hfits : ∀ w ∈ ws, w.Fits s.length) :
    (putAll s ws).length = s.length :=
  length_of_writeAll (writeAll_ok hfits)

/-- Writes elsewhere do not change what is read. -/
theorem sub_putAll_of_apart {ws : List (Write α)} {lo hi : Nat} :
    ∀ {s : List α}, (∀ w ∈ ws, w.Fits s.length) → (∀ w ∈ ws, w.hi ≤ lo ∨ hi ≤ w.lo) →
      sub (putAll s ws) lo hi = sub s lo hi := by
  induction ws with
  | nil =>
      intro s _ _
      rfl
  | cons w rest ih =>
      intro s hfits hapart
      obtain ⟨hlo, hhi, hsrc⟩ := hfits w List.mem_cons_self
      have hlen : (put s w.lo w.src).length = s.length := length_put (by omega)
      rw [putAll_cons, ih]
      · rcases hapart w List.mem_cons_self with h | h
        · exact sub_put_after (by omega) (by omega)
        · exact sub_put_before h (by omega)
      · rw [hlen]
        exact fun w' hw' => hfits w' (List.mem_cons_of_mem w hw')
      · exact fun w' hw' => hapart w' (List.mem_cons_of_mem w hw')

/-- Each write starts where the one before it ended, the first at `lo`. -/
def Consecutive : Nat → List (Write α) → Prop
  | _, [] => True
  | lo, w :: rest => w.lo = lo ∧ Consecutive (lo + w.src.length) rest

/-- What such writes put into the slice is their sources, one after the other. -/
theorem putAll_consecutive {ws : List (Write α)} :
    ∀ before rest : List α, Consecutive before.length ws →
      putAll (before ++ rest) ws
        = before ++ (ws.flatMap Write.src ++ rest.drop (ws.flatMap Write.src).length) := by
  induction ws with
  | nil =>
      intro before rest _
      rfl
  | cons w ws ih =>
      rintro before rest ⟨hlo, hws⟩
      rw [← List.length_append] at hws
      rw [putAll_cons, put_append hlo, ← List.append_assoc, ih _ _ hws, List.flatMap_cons,
        List.length_append, List.drop_drop, List.append_assoc, List.append_assoc]

theorem putAll_front {ws : List (Write α)} (s : List α) (h : Consecutive 0 ws) :
    putAll s ws = ws.flatMap Write.src ++ s.drop (ws.flatMap Write.src).length :=
  putAll_consecutive [] s h

/-! ### Slices that hold some fields -/

/-- Two writes touch different parts of a slice. -/
def Write.Apart (w w' : Write α) : Prop := w'.hi ≤ w.lo ∨ w.hi ≤ w'.lo

/-- One write ends before the next starts. -/
def Write.Before (w w' : Write α) : Prop := w.hi ≤ w'.lo ∧ w'.lo ≤ w'.hi

instance : IsTrans (Write α) Write.Before where
  trans := by
    intro a b c hab hbc
    exact ⟨Nat.le_trans hab.1 (Nat.le_trans hab.2 hbc.1), hbc.2⟩

/-- Writes from front to back touch different parts. -/
theorem pairwise_apart_of_isChain {ws : List (Write α)} (h : ws.IsChain Write.Before) :
    ws.Pairwise Write.Apart :=
  (List.isChain_iff_pairwise.mp h).imp fun hbefore => Or.inr hbefore.1

/-- A slice holds, at its place, what each of some writes wrote. -/
def Holds (s : List α) (ws : List (Write α)) : Prop :=
  ∀ w ∈ ws, w.hi ≤ s.length ∧ sub s w.lo w.hi = w.src

theorem Holds.take {s : List α} {ws : List (Write α)} (h : Holds s ws) {n : Nat}
    (hn : ∀ w ∈ ws, w.hi ≤ n) : Holds (s.take n) ws := by
  intro w hw
  obtain ⟨hhi, hsub⟩ := h w hw
  have hle := hn w hw
  refine ⟨?_, ?_⟩
  · rw [List.length_take]
    omega
  · rw [sub_take hle, hsub]

/-- Writes elsewhere leave the fields alone. -/
theorem Holds.putAll {s : List α} {ws ws' : List (Write α)} (h : Holds s ws)
    (hfits : ∀ w ∈ ws', w.Fits s.length) (hapart : ∀ w ∈ ws, ∀ w' ∈ ws', w.Apart w') :
    Holds (putAll s ws') ws := by
  intro w hw
  obtain ⟨hhi, hsub⟩ := h w hw
  refine ⟨?_, ?_⟩
  · rw [length_putAll hfits]
    exact hhi
  · rw [sub_putAll_of_apart hfits (hapart w hw), hsub]

/-- Writes that touch different parts of a slice are all held afterwards. -/
theorem holds_putAll {ws : List (Write α)} :
    ∀ {s : List α}, (∀ w ∈ ws, w.Fits s.length) → ws.Pairwise Write.Apart →
      Holds (putAll s ws) ws := by
  induction ws with
  | nil =>
      intro s _ _ w hw
      cases hw
  | cons w rest ih =>
      intro s hfits hapart w' hw'
      obtain ⟨hlo, hhi, hsrc⟩ := hfits w List.mem_cons_self
      have hlen : (put s w.lo w.src).length = s.length := length_put (by omega)
      have hrest : ∀ w' ∈ rest, w'.Fits (put s w.lo w.src).length := by
        rw [hlen]
        exact fun w' hw' => hfits w' (List.mem_cons_of_mem w hw')
      rw [List.pairwise_cons] at hapart
      show w'.hi ≤ (Slice.putAll (put s w.lo w.src) rest).length ∧
        sub (Slice.putAll (put s w.lo w.src) rest) w'.lo w'.hi = w'.src
      rcases List.mem_cons.mp hw' with rfl | hw'
      · rw [sub_putAll_of_apart hrest hapart.1, length_putAll hrest, hlen]
        exact ⟨hhi, sub_put_self (by omega) (by omega)⟩
      · exact ih hrest hapart.2 w' hw'

/-- Consecutive writes are all held by their sources, one after the other. -/
theorem holds_consecutive {ws : List (Write α)} :
    ∀ before rest : List α, Consecutive before.length ws →
      (∀ w ∈ ws, w.hi = w.lo + w.src.length) →
        Holds (before ++ (ws.flatMap Write.src ++ rest)) ws := by
  induction ws with
  | nil =>
      intro before rest _ _ w hw
      cases hw
  | cons w ws ih =>
      rintro before rest ⟨hlo, hws⟩ hhi
      rw [← List.length_append] at hws
      have hrest := ih _ rest hws fun w' hw' => hhi w' (List.mem_cons_of_mem w hw')
      rw [List.flatMap_cons, List.append_assoc, ← List.append_assoc]
      intro w' hw'
      rcases List.mem_cons.mp hw' with rfl | hw'
      · have hw := hhi w' List.mem_cons_self
        refine ⟨?_, ?_⟩
        · rw [List.length_append, List.length_append]
          omega
        · rw [List.append_assoc, sub_append_right (by omega), hw, hlo, Nat.sub_self,
            Nat.add_sub_cancel_left, sub_front, List.take_left]
      · exact hrest w' hw'

/-- What a slice holds without a gap. -/
theorem Holds.sub_eq {s : List α} {ws : List (Write α)} :
    ∀ {lo : Nat}, Holds s ws → Consecutive lo ws → (∀ w ∈ ws, w.hi = w.lo + w.src.length) →
      sub s lo (lo + (ws.flatMap Write.src).length) = ws.flatMap Write.src := by
  induction ws with
  | nil =>
      intro lo _ _ _
      rw [List.flatMap_nil, List.length_nil, Nat.add_zero, sub, Nat.sub_self, List.take_zero]
  | cons w ws ih =>
      rintro lo hs ⟨hlo, hws⟩ hhi
      obtain ⟨-, hw⟩ := hs w List.mem_cons_self
      have hrest := ih (fun w' hw' => hs w' (List.mem_cons_of_mem w hw')) hws
        fun w' hw' => hhi w' (List.mem_cons_of_mem w hw')
      rw [hhi w List.mem_cons_self, hlo] at hw
      rw [List.flatMap_cons, List.length_append, ← Nat.add_assoc,
        sub_join (Nat.le_add_right _ _) (Nat.le_add_right _ _), hw, hrest]

theorem holds_front {ws : List (Write α)} (rest : List α) (h : Consecutive 0 ws)
    (hhi : ∀ w ∈ ws, w.hi = w.lo + w.src.length) : Holds (ws.flatMap Write.src ++ rest) ws :=
  holds_consecutive [] rest h hhi

/-- Reading the `k`-th field. -/
theorem Holds.sub {s : List α} {ws : List (Write α)} (h : Holds s ws) (k : Nat) {lo hi : Nat}
    {src : List α} (hk : ws[k]? = some ⟨lo, hi, src⟩) : sub s lo hi = src :=
  (h _ (List.mem_of_getElem? hk)).2

/-- A field of one element. -/
theorem Holds.index {s : List α} {ws : List (Write α)} (h : Holds s ws) (k : Nat) {i : Nat}
    {x : α} (hk : ws[k]? = some (.one i x)) : index s i = .ok x :=
  index_of_sub (h.sub k hk)

/-- An array. -/
theorem Holds.arrayAt {s : List α} {ws : List (Write α)} (h : Holds s ws) (k : Nat)
    {n lo hi : Nat} {v : Vector α n} (hk : ws[k]? = some ⟨lo, hi, v.toList⟩) (hlo : lo ≤ hi) :
    arrayAt n s lo hi = .ok v :=
  arrayAt_of_sub (h.sub k hk) hlo (h _ (List.mem_of_getElem? hk)).1

end Slice
