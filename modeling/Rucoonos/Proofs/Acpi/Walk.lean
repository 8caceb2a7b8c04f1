/-
Which firmware the walk over the ACPI tables survives.

Every length in the tables is taken as it is, so the walk is safe exactly for tables whose
lengths are right: the RSDT has room for its header, an APIC table has room for its header
and the two fields behind it, and the entries of an APIC table fill it exactly, none of
them of length 0 and none with fields that reach over its end (`acpi_walk_safe_iff`).

The one step that matters is a call of `APICEntryIter::next`.  It reads what the type of
the entry asks for and moves on by what the length byte says (`APICEntryIter.next_ok`), and
the two need not have to do with each other.
-/
import Rucoonos.Acpi.Tables

namespace Rucoonos.Acpi

open Traced

/-! ### What the firmware says -/

section Firmware

variable (fw : Firmware)

/-- The header of the table at a physical address. -/
def Firmware.header (p : Nat) : SDTHeader :=
  ⟨fw.bytes (p + fw.offset) 4, leNat (fw.bytes (p + fw.offset + 4) 4)⟩

/-- The size of the pointers in the RSDT at a physical address. -/
def Firmware.pointerSize (p : Nat) : Nat := if (fw.header p).signature = xsdt then 8 else 4

/-- The pointer at a physical address. -/
def Firmware.pointer (size p : Nat) : Nat := leNat (fw.bytes (p + fw.offset) size)

/-- The pointers in the RSDT. -/
def Firmware.tablePointers (p : Nat) : List Nat :=
  (List.range (((fw.header p).length - 36) / fw.pointerSize p)).map fun k =>
    fw.pointer (fw.pointerSize p) (p + 36 + fw.pointerSize p * k)

/-- The type byte of an entry. -/
def Firmware.entryType (p : Nat) : UInt8 := fw.mem (p + fw.offset)

/-- The length byte of an entry. -/
def Firmware.entryLength (p : Nat) : Nat := (fw.mem (p + fw.offset + 1)).toNat

/-- The RSDT and the tables it points to are in physical memory, and physical memory is
mapped inside the address space. -/
structure InMemory (p : Nat) : Prop where
  mapped : fw.offset + 2 ^ 53 ≤ 2 ^ 64
  rsdt : p < 2 ^ 52
  tables : ∀ q ∈ fw.tablePointers p, q < 2 ^ 52

end Firmware

/-- How many bytes of an entry `next` reads. -/
def entrySize (eType : UInt8) : Nat :=
  if eType = 0 then 8
  else if eType = 1 then 12
  else if eType = 2 then 10
  else if eType = 4 then 6
  else 2

/-- The `remaining` bytes at a physical address are entries, one after the other, each of
them with its fields inside and with a length that is not 0. -/
inductive EntriesFill (fw : Firmware) : Nat → Nat → Prop
  | done (p : Nat) : EntriesFill fw p 0
  | entry {p remaining : Nat} (hfields : entrySize (fw.entryType p) ≤ remaining)
      (hpos : 0 < fw.entryLength p) (hle : fw.entryLength p ≤ remaining)
      (hrest : EntriesFill fw (p + fw.entryLength p) (remaining - fw.entryLength p)) :
      EntriesFill fw p remaining

/-- If the table is an APIC table, it has room for its fields, and the rest of it is filled
with entries. -/
def TableFits (fw : Firmware) (p : Nat) : Prop :=
  (fw.header p).signature = apic →
    44 ≤ (fw.header p).length ∧ EntriesFill fw (p + 44) ((fw.header p).length - 44)

/-- The RSDT has room for its header, and the tables it points to fit.  (If its signature
is no text, nothing more is read.) -/
def TablesFit (fw : Firmware) (p : Nat) : Prop :=
  validUtf8 0 0 0 (fw.header p).signature = true →
    36 ≤ (fw.header p).length ∧ ∀ q ∈ fw.tablePointers p, TableFits fw q

/-! ### What is to hold -/

/-- The read ends where the table ends, or before. -/
def InTable (fw : Firmware) (header : SDTHeader) (other : PhysicalPtr) (r : Access) : Prop :=
  r.addr + r.size + sizeOfSdtHeader ≤ other.addr + header.length + fw.offset

/-- No length of the table is too small for what is subtracted from it, and the entries
come to an end and are read inside the table. -/
def TableSafe (fw : Firmware) (header : SDTHeader) (other : PhysicalPtr) : Prop :=
  (AcipEntry.load fw header other).result ≠ .error .length ∧
    ∀ entry, (AcipEntry.load fw header other).result = .ok (.apic entry) →
      Complete (APICEntryIter.next fw) .length (InTable fw header other) entry.entries

structure WalkSafe (fw : Firmware) (p : PhysicalPtr) : Prop where
  load : (RSDT.load fw p).result ≠ .error .length
  iter : ∀ rsdt, (RSDT.load fw p).result = .ok rsdt →
    Complete (RSDTIter.next fw) .length (fun _ => True) rsdt.iter
  tables : ∀ rsdt fuel items, (RSDT.load fw p).result = .ok rsdt →
    (collect (RSDTIter.next fw) fuel rsdt.iter).result = .ok (some items) →
      ∀ header other, (header, other) ∈ items → TableSafe fw header other

/-! ### Reading -/

section Reads

variable (fw : Firmware) {p v k n a b : Nat}

theorem addU64_ok (h : a + b < 2 ^ 64) : addU64 a b = ⟨.ok (a + b), []⟩ := if_pos h

theorem subLength_ok (h : b ≤ a) : subLength a b = ⟨.ok (a - b), []⟩ := if_pos h

theorem subLength_stop (h : ¬ b ≤ a) : subLength a b = ⟨.error .length, []⟩ := if_neg h

theorem translate_ok (h : p + fw.offset < 2 ^ 64) :
    PhysicalPtr.translate fw ⟨p⟩ = ⟨.ok ⟨p + fw.offset⟩, []⟩ := by
  rw [PhysicalPtr.translate, addU64_ok h]
  rfl

theorem addRaw_ok (h : p + k < 2 ^ 64) : PhysicalPtr.addRaw ⟨p⟩ k = ⟨.ok ⟨p + k⟩, []⟩ := by
  rw [PhysicalPtr.addRaw, addU64_ok h]
  rfl

theorem readU8_ok (h : v + k < 2 ^ 64) :
    VirtualPtr.readU8 fw ⟨v⟩ k = ⟨.ok (fw.mem (v + k)), [⟨v + k, 1⟩]⟩ := by
  rw [VirtualPtr.readU8, VirtualPtr.addRaw, addU64_ok h]
  rfl

theorem readUnsigned_ok (h : v + k < 2 ^ 64) :
    VirtualPtr.readUnsigned fw ⟨v⟩ k n = ⟨.ok (leNat (fw.bytes (v + k) n)), [⟨v + k, n⟩]⟩ := by
  rw [VirtualPtr.readUnsigned, VirtualPtr.addRaw, addU64_ok h]
  rfl

theorem header_load_ok (h : p + fw.offset < 2 ^ 64) :
    SDTHeader.load fw ⟨p⟩ = ⟨.ok (fw.header p), [⟨p + fw.offset, 36⟩]⟩ := by
  rw [SDTHeader.load, translate_ok fw h]
  rfl

theorem length_bytes : ∀ {n v : Nat}, (fw.bytes v n).length = n := by
  intro n
  induction n with
  | zero =>
      intro v
      rfl
  | succ n ih =>
      intro v
      rw [Firmware.bytes, List.length_cons, ih]

theorem leNat_lt (bytes : List UInt8) : leNat bytes < 256 ^ bytes.length := by
  induction bytes with
  | nil => decide
  | cons b rest ih =>
      have hb := b.toNat_lt
      have hrest : leNat (b :: rest) = b.toNat + 256 * leNat rest := rfl
      rw [hrest, List.length_cons, Nat.pow_succ]
      omega

/-- A length is a `u32`. -/
theorem header_length_lt : (fw.header p).length < 2 ^ 32 := by
  have hlt := leNat_lt (fw.bytes (p + fw.offset + 4) 4)
  rw [length_bytes] at hlt
  exact hlt

end Reads

/-! ### The entries of an APIC table -/

section Entries

variable (fw : Firmware)

theorem readEntry_ok {v : Nat} (h : v + 12 ≤ 2 ^ 64) (eType : UInt8) :
    ∃ entry reads, readEntry fw ⟨v⟩ eType = ⟨.ok entry, reads⟩ ∧
      ∀ limit, v + 2 ≤ limit →
        ((∀ r ∈ reads, r.addr + r.size ≤ limit) ↔ v + entrySize eType ≤ limit) := by
  have hu8 : ∀ k, k < 12 →
      VirtualPtr.readU8 fw ⟨v⟩ k = ⟨.ok (fw.mem (v + k)), [⟨v + k, 1⟩]⟩ :=
    fun k hk => readU8_ok fw (by omega)
  have hunsigned : ∀ k n, k < 12 →
      VirtualPtr.readUnsigned fw ⟨v⟩ k n = ⟨.ok (leNat (fw.bytes (v + k) n)), [⟨v + k, n⟩]⟩ :=
    fun k n hk => readUnsigned_ok fw (by omega)
  unfold readEntry entrySize
  split_ifs
  all_goals
    simp only [hu8, hunsigned, ok_bind, pure_eq, Nat.reduceLT, List.append_nil, List.cons_append,
      List.nil_append]
    refine ⟨_, _, rfl, fun limit hlimit => ?_⟩
    simp only [List.forall_mem_cons, List.not_mem_nil, false_imp_iff, implies_true, and_true,
      true_iff]
    omega

/-- A call of `next` reads what the type asks for and moves on by what the length says. -/
theorem APICEntryIter.next_ok (p : Nat) {remaining : Nat} (h : p + fw.offset + 2 ^ 8 ≤ 2 ^ 64)
    (hne : remaining ≠ 0) :
    ∃ entry reads,
      APICEntryIter.next fw ⟨⟨p⟩, remaining⟩ =
        ⟨if fw.entryLength p ≤ remaining then
            .ok (some (entry, ⟨⟨p + fw.entryLength p⟩, remaining - fw.entryLength p⟩))
          else .error .length, reads⟩ ∧
      ∀ limit, (∀ r ∈ reads, r.addr + r.size ≤ limit) ↔
        p + fw.offset + entrySize (fw.entryType p) ≤ limit := by
  have hlength : fw.entryLength p < 2 ^ 8 := UInt8.toNat_lt _
  obtain ⟨entry, reads, hentry, hreads⟩ :=
    readEntry_ok fw (v := p + fw.offset) (by omega) (fw.entryType p)
  have htwo : 2 ≤ entrySize (fw.entryType p) := by
    unfold entrySize
    split_ifs <;> decide
  refine ⟨entry, ⟨p + fw.offset, 1⟩ :: ⟨p + fw.offset + 1, 1⟩ :: reads, ?_, fun limit => ?_⟩
  · have hptr := translate_ok fw (p := p) (by omega)
    have htype : VirtualPtr.readU8 fw ⟨p + fw.offset⟩ 0
        = ⟨.ok (fw.entryType p), [⟨p + fw.offset, 1⟩]⟩ := readU8_ok fw (by omega)
    have hlen := readU8_ok fw (v := p + fw.offset) (k := 1) (by omega)
    have hbyte : (fw.mem (p + fw.offset + 1)).toNat = fw.entryLength p := rfl
    have hmove := addRaw_ok (p := p) (k := fw.entryLength p) (by omega)
    rw [APICEntryIter.next, if_neg hne]
    simp only [hptr, htype, hlen, hentry, hbyte, hmove, ok_bind]
    by_cases hle : fw.entryLength p ≤ remaining
    · rw [if_pos hle, subLength_ok hle, ok_bind, pure_eq]
      simp only [List.append_nil, List.nil_append, List.cons_append]
    · rw [if_neg hle, subLength_stop hle, error_bind]
      simp only [List.append_nil, List.nil_append, List.cons_append]
  · rw [List.forall_mem_cons, List.forall_mem_cons]
    constructor
    · rintro ⟨-, hsecond, hrest⟩
      exact (hreads limit (by omega)).mp hrest
    · intro hlimit
      exact ⟨by dsimp only; omega, by dsimp only; omega, (hreads limit (by omega)).mpr hlimit⟩

theorem entriesFill_iff {fw : Firmware} {p remaining : Nat} (hne : remaining ≠ 0) :
    EntriesFill fw p remaining ↔
      entrySize (fw.entryType p) ≤ remaining ∧ 0 < fw.entryLength p ∧
        fw.entryLength p ≤ remaining ∧
        EntriesFill fw (p + fw.entryLength p) (remaining - fw.entryLength p) := by
  constructor
  · intro h
    cases h with
    | done => exact absurd rfl hne
    | entry hfields hpos hle hrest => exact ⟨hfields, hpos, hle, hrest⟩
  · rintro ⟨hfields, hpos, hle, hrest⟩
    exact .entry hfields hpos hle hrest

/-- The iteration is safe exactly if entries fill what remains. -/
theorem entries_complete_iff : ∀ (remaining p : Nat),
    p + remaining + fw.offset + 2 ^ 8 ≤ 2 ^ 64 →
    (Complete (APICEntryIter.next fw) .length
        (fun r => r.addr + r.size ≤ p + remaining + fw.offset) ⟨⟨p⟩, remaining⟩ ↔
      EntriesFill fw p remaining) := by
  intro remaining
  induction remaining using Nat.strongRecOn with
  | ind remaining ih =>
      intro p hbound
      by_cases hne : remaining = 0
      · subst hne
        have hnext : APICEntryIter.next fw ⟨⟨p⟩, 0⟩ = ⟨.ok none, []⟩ := rfl
        rw [complete_of_none hnext]
        exact ⟨fun _ => .done p, fun _ r hr => absurd hr List.not_mem_nil⟩
      · obtain ⟨entry, reads, hnext, hreads⟩ :=
          APICEntryIter.next_ok fw p (by omega) hne
        rw [entriesFill_iff hne]
        by_cases hle : fw.entryLength p ≤ remaining
        · rw [if_pos hle] at hnext
          by_cases hzero : fw.entryLength p = 0
          · -- The pointer stays where it is and so does what remains.
            rw [hzero, Nat.add_zero, Nat.sub_zero] at hnext
            constructor
            · intro hcomplete
              exact absurd hcomplete (not_complete_of_loop hnext)
            · rintro ⟨-, hpos, -⟩
              omega
          · have hrest := ih (remaining - fw.entryLength p) (by omega) (p + fw.entryLength p) (by omega)
            rw [show p + fw.entryLength p + (remaining - fw.entryLength p) = p + remaining by omega]
              at hrest
            rw [complete_of_some hnext, hreads, hrest]
            constructor
            · rintro ⟨hfields, hfill⟩
              exact ⟨by omega, by omega, hle, hfill⟩
            · rintro ⟨hfields, -, -, hfill⟩
              exact ⟨by omega, hfill⟩
        · rw [if_neg hle] at hnext
          constructor
          · intro hcomplete
            exact absurd hcomplete (not_complete_of_error hnext)
          · rintro ⟨-, -, hle', -⟩
            exact absurd hle' hle

end Entries

/-! ### One table -/

section Table

variable (fw : Firmware)

/-- The fields of an APIC table in front of its entries. -/
theorem load_apic {q : Nat} (hmapped : q + fw.offset + 40 < 2 ^ 64) (hq : q + 44 < 2 ^ 64)
    (hsig : (fw.header q).signature = apic) :
    (AcipEntry.load fw (fw.header q) ⟨q + 36⟩).result =
      if 44 ≤ (fw.header q).length then
        .ok (.apic ⟨leNat (fw.bytes (q + 36 + fw.offset) 4), leNat (fw.bytes (q + 36 + fw.offset + 4) 4),
          ⟨q + 44⟩, (fw.header q).length - 44⟩)
      else .error .length := by
  have hutf8 : fromUtf8 apic = ⟨.ok apic, []⟩ := rfl
  have hptr := translate_ok fw (p := q + 36) (by omega)
  have hlocal : VirtualPtr.readUnsigned fw ⟨q + 36 + fw.offset⟩ 0 4
      = ⟨.ok (leNat (fw.bytes (q + 36 + fw.offset) 4)), [⟨q + 36 + fw.offset, 4⟩]⟩ :=
    readUnsigned_ok fw (by omega)
  have hflags := readUnsigned_ok fw (v := q + 36 + fw.offset) (k := 4) (n := 4) (by omega)
  have hstart := addRaw_ok (p := q + 36) (k := 8) (by omega)
  rw [AcipEntry.load, hsig, hutf8]
  simp only [ok_bind, if_true, hptr, hlocal, hflags, hstart]
  have hsize : sizeOfSdtHeader = 36 := rfl
  -- The two subtractions, one after the other.
  by_cases hfirst : 8 ≤ (fw.header q).length
  · rw [subLength_ok hfirst, ok_bind]
    by_cases hsecond : sizeOfSdtHeader ≤ (fw.header q).length - 8
    · rw [subLength_ok hsecond, if_pos (by omega), Nat.sub_sub]
      rfl
    · rw [subLength_stop hsecond, if_neg (by omega)]
      rfl
  · rw [subLength_stop hfirst, if_neg (by omega)]
    rfl

/-- Any other table is not looked into. -/
theorem load_other {header : SDTHeader} (other : PhysicalPtr) (hsig : header.signature ≠ apic) :
    (AcipEntry.load fw header other).result ≠ .error .length ∧
      ∀ entry, (AcipEntry.load fw header other).result ≠ .ok (.apic entry) := by
  unfold AcipEntry.load fromUtf8
  split
  · rw [pure_eq, ok_bind, if_neg hsig]
    split_ifs
    · unfold PhysicalPtr.translate addU64
      split
      · exact ⟨nofun, nofun⟩
      · exact ⟨nofun, nofun⟩
    · exact ⟨nofun, nofun⟩
    · exact ⟨nofun, nofun⟩
    · exact ⟨nofun, nofun⟩
  · exact ⟨nofun, nofun⟩

theorem tableSafe_iff {fw : Firmware} {q : Nat} (hmapped : fw.offset + 2 ^ 53 ≤ 2 ^ 64) (hq : q < 2 ^ 52) :
    TableSafe fw (fw.header q) ⟨q + 36⟩ ↔ TableFits fw q := by
  by_cases hsig : (fw.header q).signature = apic
  · have hload := load_apic fw (q := q) (by omega) (by omega) hsig
    unfold TableSafe TableFits
    rw [hload]
    by_cases hlength : 44 ≤ (fw.header q).length
    · have hlt := header_length_lt fw (p := q)
      have hentries := entries_complete_iff fw ((fw.header q).length - 44) (q + 44) (by omega)
      -- The end of the table, from its start and from its first entry.
      have hend : InTable fw (fw.header q) ⟨q + 36⟩ = fun r =>
          r.addr + r.size ≤ q + 44 + ((fw.header q).length - 44) + fw.offset := by
        funext r
        simp only [InTable, sizeOfSdtHeader, eq_iff_iff]
        omega
      rw [if_pos hlength, hend]
      constructor
      · rintro ⟨-, hcomplete⟩ _
        exact ⟨hlength, hentries.mp (hcomplete _ rfl)⟩
      · intro hfits
        refine ⟨nofun, fun entry hentry => ?_⟩
        cases hentry
        exact hentries.mpr (hfits hsig).2
    · rw [if_neg hlength]
      constructor
      · rintro ⟨hnever, -⟩
        exact absurd rfl hnever
      · intro hfits
        exact absurd (hfits hsig).1 hlength
  · obtain ⟨hlength, hapic⟩ := load_other fw ⟨q + 36⟩ hsig
    constructor
    · intro _ hsig'
      exact absurd hsig' hsig
    · intro _
      exact ⟨hlength, fun entry hentry => absurd hentry (hapic entry)⟩

end Table

/-! ### The RSDT -/

section Rsdt

variable {fw : Firmware}

/-- What the iterator returns for the pointer at a physical address. -/
def Firmware.item (fw : Firmware) (size p : Nat) : SDTHeader × PhysicalPtr :=
  (fw.header (fw.pointer size p), ⟨fw.pointer size p + 36⟩)

theorem RSDTIter.next_ok {p size : Nat} (left : Nat) (hsize : size = 4 ∨ size = 8)
    (hp : p + fw.offset < 2 ^ 64) (hnext : p + size < 2 ^ 64)
    (htable : fw.pointer size p + fw.offset < 2 ^ 64) (hrest : fw.pointer size p + 36 < 2 ^ 64) :
    ∃ reads, RSDTIter.next fw ⟨⟨p⟩, size, left + 1⟩ =
      ⟨.ok (some (fw.item size p, ⟨⟨p + size⟩, size, left⟩)), reads⟩ := by
  have hread : (if size = 4 then 4 else 8) = size := by
    rcases hsize with rfl | rfl
    · rfl
    · rfl
  have hvirt := translate_ok fw hp
  have haddr : VirtualPtr.readUnsigned fw ⟨p + fw.offset⟩ 0 size
      = ⟨.ok (fw.pointer size p), [⟨p + fw.offset, size⟩]⟩ := readUnsigned_ok fw hp
  have hheader := header_load_ok fw htable
  have hrest : PhysicalPtr.addRaw ⟨fw.pointer size p⟩ sizeOfSdtHeader
      = ⟨.ok ⟨fw.pointer size p + 36⟩, []⟩ := addRaw_ok hrest
  have hnext := addRaw_ok hnext
  rw [RSDTIter.next, if_neg (Nat.succ_ne_zero left)]
  simp only [hread, hvirt, haddr, hheader, hrest, hnext, ok_bind, pure_eq]
  exact ⟨_, rfl⟩

/-- A pointer array of which every address that is formed fits 64 bits. -/
structure Pointers (fw : Firmware) (size p left : Nat) : Prop where
  known : size = 4 ∨ size = 8
  bound : p + size * left < 2 ^ 64
  mapped : ∀ k, k < left → p + size * k + fw.offset < 2 ^ 64
  tables : ∀ k, k < left → fw.pointer size (p + size * k) + fw.offset < 2 ^ 64 ∧
    fw.pointer size (p + size * k) + 36 < 2 ^ 64

theorem Pointers.tail {size p left : Nat} (h : Pointers fw size p (left + 1)) :
    Pointers fw size (p + size) left := by
  have hshift : ∀ k, p + size + size * k = p + size * (k + 1) := fun k => by
    rw [Nat.mul_succ, Nat.add_comm (size * k), Nat.add_assoc]
  refine ⟨h.known, ?_, fun k hk => ?_, fun k hk => ?_⟩
  · rw [hshift]
    exact h.bound
  · rw [hshift]
    exact h.mapped (k + 1) (by omega)
  · rw [hshift]
    exact h.tables (k + 1) (by omega)

/-- The iterator returns one table for each pointer. -/
theorem iter_yields {size : Nat} : ∀ {left p : Nat}, Pointers fw size p left →
    Yields (RSDTIter.next fw) ⟨⟨p⟩, size, left⟩
      ((List.range left).map fun k => fw.item size (p + size * k)) := by
  intro left
  induction left with
  | zero =>
      intro p _
      exact .done (rfl : RSDTIter.next fw ⟨⟨p⟩, size, 0⟩ = ⟨.ok none, []⟩)
  | succ left ih =>
      intro p h
      have hbound := h.bound
      rw [Nat.mul_succ] at hbound
      obtain ⟨htable, hrest⟩ := h.tables 0 (by omega)
      obtain ⟨reads, hnext⟩ :=
        RSDTIter.next_ok left h.known (h.mapped 0 (by omega)) (by omega) htable hrest
      rw [List.range_succ_eq_map, List.map_cons, List.map_map]
      have htail : ((List.range left).map fun k => fw.item size (p + size + size * k))
          = (List.range left).map ((fun k => fw.item size (p + size * k)) ∘ Nat.succ) := by
        refine List.map_congr_left fun k _ => ?_
        rw [Function.comp_apply, Nat.mul_succ, Nat.add_comm (size * k), Nat.add_assoc]
      rw [← htail]
      exact .item hnext (ih h.tail)

theorem pointerSize_cases (p : Nat) : fw.pointerSize p = 4 ∨ fw.pointerSize p = 8 := by
  unfold Firmware.pointerSize
  split
  · exact .inr rfl
  · exact .inl rfl

theorem rsdt_load (fw : Firmware) {p : Nat} (hmapped : p + fw.offset < 2 ^ 64) (hp : p + 36 < 2 ^ 64) :
    (RSDT.load fw ⟨p⟩).result =
      if validUtf8 0 0 0 (fw.header p).signature = true then
        if 36 ≤ (fw.header p).length then
          .ok ⟨fw.header p, ⟨p + 36⟩, fw.pointerSize p,
            ((fw.header p).length - 36) / fw.pointerSize p⟩
        else .error .length
      else .error .signature := by
  have hheader := header_load_ok fw hmapped
  have hstart : PhysicalPtr.addRaw ⟨p⟩ sizeOfSdtHeader = ⟨.ok ⟨p + 36⟩, []⟩ := addRaw_ok hp
  rw [RSDT.load, hheader]
  simp only [ok_bind, fromUtf8]
  split
  · rw [pure_eq, ok_bind]
    by_cases hlength : 36 ≤ (fw.header p).length
    · rw [if_pos hlength, show subLength (fw.header p).length sizeOfSdtHeader = _ from
        subLength_ok hlength, ok_bind, hstart]
      rfl
    · rw [if_neg hlength, show subLength (fw.header p).length sizeOfSdtHeader = _ from
        subLength_stop hlength]
      rfl
  · rfl

/-- The pointers of an RSDT in memory. -/
theorem InMemory.pointers {p : Nat} (hmemory : InMemory fw p) :
    Pointers fw (fw.pointerSize p) (p + 36)
      (((fw.header p).length - 36) / fw.pointerSize p) := by
  have hmapped := hmemory.mapped
  have hrsdt := hmemory.rsdt
  have hlt := header_length_lt fw (p := p)
  have hle := Nat.mul_div_le ((fw.header p).length - 36) (fw.pointerSize p)
  refine ⟨pointerSize_cases p, by omega, fun k hk => ?_, fun k hk => ?_⟩
  · have hinside := Nat.mul_le_mul_left (fw.pointerSize p) (Nat.le_of_lt hk)
    omega
  · have htable := hmemory.tables _ (List.mem_map.mpr ⟨k, List.mem_range.mpr hk, rfl⟩)
    omega

/-- With the RSDT loaded it comes down to the tables. -/
theorem walkSafe_iff_tables {p : Nat} (hmemory : InMemory fw p)
    (hload : (RSDT.load fw ⟨p⟩).result = .ok ⟨fw.header p, ⟨p + 36⟩, fw.pointerSize p,
      ((fw.header p).length - 36) / fw.pointerSize p⟩) :
    WalkSafe fw ⟨p⟩ ↔ ∀ q ∈ fw.tablePointers p, TableFits fw q := by
  have hyields := iter_yields hmemory.pointers
  constructor
  · intro hsafe q hq
    obtain ⟨fuel, items, hitems⟩ := (hsafe.iter _ hload).ends
    obtain ⟨k, hk, rfl⟩ := List.mem_map.mp hq
    rw [← tableSafe_iff hmemory.mapped (hmemory.tables _ hq)]
    refine hsafe.tables _ fuel items hload hitems _ _ ?_
    rw [hyields.eq_of_collect hitems]
    exact List.mem_map.mpr ⟨k, hk, rfl⟩
  · intro hfits
    refine ⟨by rw [hload]; nofun, fun rsdt hrsdt => ?_, fun rsdt fuel items hrsdt hitems => ?_⟩
    · rw [hload] at hrsdt
      cases hrsdt
      exact hyields.complete
    · rw [hload] at hrsdt
      cases hrsdt
      intro header other hmem
      rw [hyields.eq_of_collect hitems] at hmem
      obtain ⟨k, hk, hitem⟩ := List.mem_map.mp hmem
      cases hitem
      have hq : fw.pointer (fw.pointerSize p) (p + 36 + fw.pointerSize p * k) ∈ fw.tablePointers p :=
        List.mem_map.mpr ⟨k, hk, rfl⟩
      exact (tableSafe_iff hmemory.mapped (hmemory.tables _ hq)).mpr (hfits _ hq)

end Rsdt

/--
**Which firmware the walk survives.**  For every firmware whose tables are in memory:
no length computation underflows, the entries of every APIC table come to an end and are
read inside the table, exactly if the RSDT is no shorter than its header, every APIC
table is no shorter than its header and fields, and the rest of it is filled with entries
whose fields are inside the table and whose length is not 0.  A signature that is no UTF-8
is a panic of another kind, which the three properties do not speak of; nothing is asked of
the tables behind it.
-/
theorem acpi_walk_safe_iff (fw : Firmware) (p : Nat) (hmemory : InMemory fw p) :
    WalkSafe fw ⟨p⟩ ↔ TablesFit fw p := by
  have hmapped := hmemory.mapped
  have hrsdt := hmemory.rsdt
  have hload := rsdt_load fw (p := p) (by omega) (by omega)
  unfold TablesFit
  by_cases hutf8 : validUtf8 0 0 0 (fw.header p).signature = true
  · rw [if_pos hutf8] at hload
    by_cases hlength : 36 ≤ (fw.header p).length
    · rw [if_pos hlength] at hload
      rw [walkSafe_iff_tables hmemory hload]
      constructor
      · intro hfits _
        exact ⟨hlength, hfits⟩
      · intro hfits
        exact (hfits hutf8).2
    · rw [if_neg hlength] at hload
      constructor
      · intro hsafe
        exact absurd hload hsafe.load
      · intro hfits
        exact absurd (hfits hutf8).1 hlength
  · rw [if_neg hutf8] at hload
    constructor
    · intro _ hutf8'
      exact absurd hutf8' hutf8
    · intro _
      refine ⟨by rw [hload]; nofun, fun rsdt hrsdt => ?_, fun rsdt fuel items hrsdt => ?_⟩
      · rw [hload] at hrsdt
        cases hrsdt
      · rw [hload] at hrsdt
        cases hrsdt

/-- An RSDT with a pointer to one APIC table, which comes right behind it and has an entry
for a processor, with the given length byte, and one for an I/O APIC. -/
def apicFirmware (entryLength : UInt8) : Firmware where
  mem := fun addr =>
    ([0x52, 0x53, 0x44, 0x54, 40, 0, 0, 0] ++ List.replicate 28 0 ++ [0x28, 0x00, 0xfe, 0x07] ++
      apic ++ [64, 0, 0, 0] ++ List.replicate 28 0 ++ [0x00, 0x00, 0xe0, 0xfe, 1, 0, 0, 0] ++
      [0, entryLength, 0, 0, 1, 0, 0, 0] ++
      [1, 12, 1, 0, 0x00, 0x00, 0xc0, 0xfe, 0, 0, 0, 0]).getD (addr - 0x18007fe0000) 0
  offset := 0x18000000000

theorem inMemory_apicFirmware {entryLength : UInt8}
    (h : (apicFirmware entryLength).tablePointers 0x7fe0000 = [0x7fe0028]) :
    InMemory (apicFirmware entryLength) 0x7fe0000 := by
  refine ⟨by show 0x18000000000 + 2 ^ 53 ≤ 2 ^ 64; decide, by decide, fun q hq => ?_⟩
  rw [h, List.mem_singleton] at hq
  rw [hq]
  decide

theorem acpi_walk_safe_iff_two_entries :
    InMemory (apicFirmware 8) 0x7fe0000 ∧ WalkSafe (apicFirmware 8) ⟨0x7fe0000⟩ := by
  have htables : (apicFirmware 8).tablePointers 0x7fe0000 = [0x7fe0028] := rfl
  have hmemory := inMemory_apicFirmware htables
  refine ⟨hmemory, (acpi_walk_safe_iff _ _ hmemory).mpr ?_⟩
  intro _
  refine ⟨by decide, fun q hq _ => ?_⟩
  rw [htables, List.mem_singleton] at hq
  rw [hq]
  refine ⟨by decide, .entry (by decide) (by decide) (by decide) ?_⟩
  exact .entry (by decide) (by decide) (by decide) (.done _)

/-- With a length byte of 0 the iterator returns the same entry over and over. -/
theorem empty_entry_loops :
    InMemory (apicFirmware 0) 0x7fe0000 ∧
      (∀ fuel, (collect (APICEntryIter.next (apicFirmware 0)) fuel ⟨⟨0x7fe0054⟩, 20⟩).result
        = .ok none) ∧
      ¬ WalkSafe (apicFirmware 0) ⟨0x7fe0000⟩ := by
  have htables : (apicFirmware 0).tablePointers 0x7fe0000 = [0x7fe0028] := rfl
  have hmemory := inMemory_apicFirmware htables
  have hzero : (apicFirmware 0).entryLength 0x7fe0054 = 0 := by decide
  obtain ⟨entry, reads, hnext, -⟩ := APICEntryIter.next_ok (apicFirmware 0) 0x7fe0054
    (show 0x7fe0054 + 0x18000000000 + 2 ^ 8 ≤ 2 ^ 64 by decide) (show 20 ≠ 0 by decide)
  rw [hzero, if_pos (by decide), Nat.add_zero, Nat.sub_zero] at hnext
  refine ⟨hmemory, collect_of_loop hnext, fun hsafe => ?_⟩
  have hload := rsdt_load (apicFirmware 0) (p := 0x7fe0000)
    (show 0x7fe0000 + 0x18000000000 < 2 ^ 64 by decide) (by decide)
  rw [if_pos (by decide), if_pos (by decide)] at hload
  have hfits := (walkSafe_iff_tables hmemory hload).mp hsafe 0x7fe0028
    (by rw [htables]; exact List.mem_singleton_self _)
  obtain ⟨-, hpos, -⟩ := (entriesFill_iff (by decide)).mp (hfits (by decide)).2
  exact absurd hpos (by decide)

end Rucoonos.Acpi
