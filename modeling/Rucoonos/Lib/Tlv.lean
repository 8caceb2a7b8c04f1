/-
Sequences of tagged values.

An entry of such a sequence is a code, the length of its data in one byte, and the data.
Two codes stand for themselves: one is padding between entries, the other ends the
sequence.  `read` takes a sequence apart and says how it ended.

The bound on the number of entries in `readFrom` is the number of bytes; the lemmas on
`read` do not show it.
-/
import Mathlib.Data.List.Basic
import Mathlib.Data.UInt

namespace Tlv

/-- A code and data that one byte can give the length of. -/
structure Entry where
  code : UInt8
  data : List UInt8
  fits : data.length < 256
  deriving DecidableEq, Repr

def Entry.encode (e : Entry) : List UInt8 := e.code :: UInt8.ofNat e.data.length :: e.data

theorem Entry.toNat_length (e : Entry) : (UInt8.ofNat e.data.length).toNat = e.data.length := by
  rw [UInt8.toNat_ofNat', Nat.mod_eq_of_lt e.fits]

/-- An entry has at least a byte. -/
theorem length_le_flatMap_encode (entries : List Entry) :
    entries.length ≤ (entries.flatMap Entry.encode).length := by
  induction entries with
  | nil => exact Nat.le_refl 0
  | cons e entries ih =>
      rw [List.flatMap_cons, List.length_append, List.length_cons, Entry.encode, List.length_cons]
      omega

/-- A code, a length and at least as many bytes start with an entry. -/
theorem exists_entry (code : UInt8) {len : UInt8} {rest : List UInt8} (h : len.toNat ≤ rest.length) :
    ∃ e : Entry, e.code = code ∧ e.data.length = len.toNat ∧
      code :: len :: rest = e.encode ++ rest.drop len.toNat := by
  have hlen : (rest.take len.toNat).length = len.toNat := List.length_take_of_le h
  refine ⟨⟨code, rest.take len.toNat, by rw [hlen]; exact len.toNat_lt⟩, rfl, hlen, ?_⟩
  simp only [Entry.encode, hlen, UInt8.ofNat_toNat, List.cons_append, List.take_append_drop]

/-- How a sequence ended: with its last code, without one, or inside an entry. -/
inductive Ending
  | stopped
  | exhausted
  | truncated
  deriving DecidableEq, Repr

/-- The entry behind its code, and what follows it. -/
def takeEntry (code : UInt8) : List UInt8 → Option (Entry × List UInt8)
  | [] => none
  | len :: rest =>
      if len.toNat ≤ rest.length then
        some (⟨code, rest.take len.toNat, by
          rw [List.length_take]
          exact Nat.lt_of_le_of_lt (Nat.min_le_left _ _) len.toNat_lt⟩, rest.drop len.toNat)
      else none

theorem takeEntry_encode (e : Entry) (rest : List UInt8) :
    takeEntry e.code (UInt8.ofNat e.data.length :: (e.data ++ rest)) = some (e, rest) := by
  have hlen := e.toNat_length
  rw [takeEntry, if_pos (by rw [hlen, List.length_append]; omega)]
  simp only [hlen, List.take_left, List.drop_left]

theorem length_takeEntry {code : UInt8} {bytes rest : List UInt8} {e : Entry}
    (h : takeEntry code bytes = some (e, rest)) : rest.length < bytes.length := by
  cases bytes with
  | nil => cases h
  | cons len bytes =>
      rw [takeEntry] at h
      split at h
      · cases h
        rw [List.length_drop, List.length_cons]
        omega
      · cases h

variable (pad stop : UInt8)

def readFrom : Nat → List UInt8 → List Entry × Ending
  | 0, _ => ([], .exhausted)
  | _ + 1, [] => ([], .exhausted)
  | fuel + 1, code :: rest =>
      if code = pad then readFrom fuel rest
      else if code = stop then ([], .stopped)
      else
        match takeEntry code rest with
        | none => ([], .truncated)
        | some (entry, rest) => ((readFrom fuel rest).map (entry :: ·) id)

/-- The entries of a sequence, and its end. -/
def read (bytes : List UInt8) : List Entry × Ending := readFrom pad stop bytes.length bytes

/-- The data of the first entry with a code. -/
def lookup (code : UInt8) (entries : List Entry) : Option (List UInt8) :=
  (entries.find? (fun e => e.code = code)).map Entry.data

variable {pad stop}

/-- With a pass for every byte the bound is never met. -/
theorem readFrom_eq {fuel fuel' : Nat} : ∀ {bytes : List UInt8}, bytes.length ≤ fuel →
    bytes.length ≤ fuel' → readFrom pad stop fuel bytes = readFrom pad stop fuel' bytes := by
  induction fuel generalizing fuel' with
  | zero =>
      intro bytes h _
      obtain rfl := List.eq_nil_of_length_eq_zero (Nat.le_zero.mp h)
      cases fuel' with
      | zero => rfl
      | succ fuel' => rfl
  | succ fuel ih =>
      intro bytes h h'
      cases bytes with
      | nil =>
          cases fuel' with
          | zero => rfl
          | succ fuel' => rfl
      | cons code rest =>
          rw [List.length_cons] at h h'
          obtain ⟨fuel', rfl⟩ : ∃ k, fuel' = k + 1 := ⟨fuel' - 1, by omega⟩
          rw [readFrom, readFrom, ih (by omega) (by omega : rest.length ≤ fuel')]
          cases htake : takeEntry code rest with
          | none => rfl
          | some taken =>
              have hlen := length_takeEntry htake
              simp only [ih (by omega) (by omega : taken.2.length ≤ fuel')]

theorem read_pad (rest : List UInt8) : read pad stop (pad :: rest) = read pad stop rest := by
  rw [read, List.length_cons, readFrom, if_pos rfl, read]

theorem read_stop (h : stop ≠ pad) (rest : List UInt8) :
    read pad stop (stop :: rest) = ([], .stopped) := by
  rw [read, List.length_cons, readFrom, if_neg h, if_pos rfl]

/-- An entry is read in front of anything. -/
theorem read_encode {e : Entry} (hpad : e.code ≠ pad) (hstop : e.code ≠ stop)
    (rest : List UInt8) :
    read pad stop (e.encode ++ rest) = (read pad stop rest).map (e :: ·) id := by
  show readFrom pad stop (_ + 1) (e.code :: UInt8.ofNat e.data.length :: (e.data ++ rest)) = _
  rw [readFrom, if_neg hpad, if_neg hstop, takeEntry_encode]
  dsimp only
  have hrest : rest.length ≤ (UInt8.ofNat e.data.length :: (e.data ++ rest)).length := by
    rw [List.length_cons, List.length_append]
    omega
  rw [read, readFrom_eq (Nat.le_refl rest.length) hrest]
  rfl

end Tlv
