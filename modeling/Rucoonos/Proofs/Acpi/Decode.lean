/-
What the walk over the ACPI tables returns.

`rsdt_yields_tables` is about the root table: whatever is in memory, as long as no
address overflows the iterator returns the tables its pointers point to, in order.

`madt_decoded` is about an APIC table that was written with the layouts of the ACPI
specification.  `Structure` are the structures such a table lists and
`Structure.encode` their bytes.  A call of `next` on the bytes of a structure returns
its fields and leaves the iterator behind them (`next_encoded`), so the list is returned
by induction, and the length of the table is used up exactly when its last structure is.
-/
import Rucoonos.Proofs.Acpi.Walk

namespace Rucoonos.Acpi

open Traced

/-! ### The root table -/

/-- The `i`-th pointer of the root table at `p`. -/
def Firmware.rootPointer (fw : Firmware) (p i : Nat) : Nat :=
  leNat (fw.bytes (p + 36 + fw.pointerSize p * i + fw.offset) (fw.pointerSize p))

/-- No address that is formed for the root table and its first `k` pointers overflows. -/
structure NoOverflow (fw : Firmware) (p k : Nat) : Prop where
  root : p + fw.offset < 2 ^ 64
  array : p + 36 + fw.pointerSize p * k < 2 ^ 64
  mapped : ∀ i, i < k → p + 36 + fw.pointerSize p * i + fw.offset < 2 ^ 64
  tables : ∀ i, i < k → fw.rootPointer p i + fw.offset < 2 ^ 64 ∧ fw.rootPointer p i + 36 < 2 ^ 64

/--
**The root table yields every table once.**  For every memory in which the root table
has a signature that is text and room for `k` pointers, with less than one pointer left
over, loading it and iterating returns `k` items and then nothing.  The `i`-th item is
the header at the `i`-th pointer, with the pointer to what comes behind the header.
-/
theorem rsdt_yields_tables (fw : Firmware) (p k r : Nat)
    (hutf8 : validUtf8 0 0 0 (fw.header p).signature = true)
    (hlength : (fw.header p).length = 36 + k * fw.pointerSize p + r)
    (hr : r < fw.pointerSize p) (hfits : NoOverflow fw p k) :
    ∃ rsdt, (RSDT.load fw ⟨p⟩).result = .ok rsdt ∧
      Yields (RSDTIter.next fw) rsdt.iter ((List.range k).map fun i =>
        (fw.header (fw.rootPointer p i), ⟨fw.rootPointer p i + 36⟩)) := by
  have harray := hfits.array
  have hload := rsdt_load fw (p := p) hfits.root (by omega)
  have hcount : ((fw.header p).length - 36) / fw.pointerSize p = k := by
    rw [hlength, Nat.add_assoc, Nat.add_sub_cancel_left, Nat.mul_comm,
      Nat.mul_add_div (by omega), Nat.div_eq_of_lt hr, Nat.add_zero]
  rw [if_pos hutf8, if_pos (by omega), hcount] at hload
  exact ⟨_, hload, iter_yields ⟨pointerSize_cases p, harray, hfits.mapped, hfits.tables⟩⟩

/-- An XSDT with two pointers and three bytes behind them, and the tables these point to, one
of them an APIC table. -/
def xsdtFirmware : Firmware where
  mem addr :=
    (xsdt ++ [55, 0, 0, 0] ++ List.replicate 28 0 ++ [0x40, 0x00, 0xfe, 0x07, 0, 0, 0, 0] ++
      [0x64, 0x00, 0xfe, 0x07, 0, 0, 0, 0] ++ List.replicate 12 0 ++ facp ++ [36, 0, 0, 0] ++
      List.replicate 28 0 ++ apic ++ [44, 0, 0, 0]).getD (addr - 0x18007fe0000) 0
  offset := 0x18000000000

theorem xsdt_yields_two :
    ∃ rsdt, (RSDT.load xsdtFirmware ⟨0x7fe0000⟩).result = .ok rsdt ∧
      Yields (RSDTIter.next xsdtFirmware) rsdt.iter
        [(⟨facp, 36⟩, ⟨0x7fe0064⟩), (⟨apic, 44⟩, ⟨0x7fe0088⟩)] := by
  have hitems : ((List.range 2).map fun i =>
      (xsdtFirmware.header (xsdtFirmware.rootPointer 0x7fe0000 i),
        PhysicalPtr.mk (xsdtFirmware.rootPointer 0x7fe0000 i + 36)))
      = [(⟨facp, 36⟩, ⟨0x7fe0064⟩), (⟨apic, 44⟩, ⟨0x7fe0088⟩)] := by
    decide +kernel
  rw [← hitems]
  exact rsdt_yields_tables xsdtFirmware 0x7fe0000 2 3 (by decide) (by decide) (by decide)
    ⟨by decide, by decide, by decide, by decide⟩

/-! ### Bytes in memory -/

/-- The `n` low bytes of a number, the least significant first. -/
def leBytes : Nat → Nat → List UInt8
  | 0, _ => []
  | n + 1, x => UInt8.ofNat x :: leBytes n (x / 256)

@[simp] theorem length_leBytes (n x : Nat) : (leBytes n x).length = n := by
  induction n generalizing x with
  | zero => rfl
  | succ n ih => rw [leBytes, List.length_cons, ih]

theorem leNat_leBytes {n x : Nat} (h : x < 256 ^ n) : leNat (leBytes n x) = x := by
  induction n generalizing x with
  | zero =>
      rw [Nat.pow_zero, Nat.lt_one_iff] at h
      rw [h]
      rfl
  | succ n ih =>
      have hrest : x / 256 < 256 ^ n := Nat.div_lt_of_lt_mul (by rwa [Nat.mul_comm, ← Nat.pow_succ])
      have hcons : leNat (leBytes (n + 1) x) = (UInt8.ofNat x).toNat + 256 * leNat (leBytes n (x / 256)) :=
        rfl
      rw [hcons, ih hrest]
      exact Nat.mod_add_div x 256

/-- These bytes are in memory, from a virtual address on. -/
def Firmware.Stored (fw : Firmware) (v : Nat) (bytes : List UInt8) : Prop :=
  fw.bytes v bytes.length = bytes

section Stored

variable {fw : Firmware}

@[simp] theorem stored_nil {v : Nat} : fw.Stored v [] := rfl

@[simp] theorem stored_cons {v : Nat} {b : UInt8} {rest : List UInt8} :
    fw.Stored v (b :: rest) ↔ fw.mem v = b ∧ fw.Stored (v + 1) rest := by
  rw [Firmware.Stored, List.length_cons, Firmware.bytes, List.cons.injEq]
  rfl

@[simp] theorem stored_append {v : Nat} {front rest : List UInt8} :
    fw.Stored v (front ++ rest) ↔ fw.Stored v front ∧ fw.Stored (v + front.length) rest := by
  induction front generalizing v with
  | nil => simp
  | cons b front ih =>
      rw [List.cons_append, stored_cons, stored_cons, ih, and_assoc, List.length_cons,
        Nat.add_assoc, Nat.add_comm 1]

/-- A number is read as it was stored. -/
theorem Firmware.Stored.leNat {v n x : Nat} (h : fw.Stored v (leBytes n x)) (hx : x < 256 ^ n) :
    Acpi.leNat (fw.bytes v n) = x := by
  rw [Firmware.Stored, length_leBytes] at h
  rw [h, leNat_leBytes hx]

end Stored

/-! ### The structures of an APIC table -/

/-- An interrupt controller structure. -/
inductive Structure
  | processorLocalApic (processorId apicId : UInt8) (flags : UInt32)
  | ioApic (id reserved : UInt8) (address gsiBase : UInt32)
  | interruptSourceOverride (busSource irqSource : UInt8) (gsi : UInt32) (flags : UInt16)
  | localApicNmi (processorId : UInt8) (flags : UInt16) (lint : UInt8)
  /-- Any other type, with a body that the length byte still covers. -/
  | other (ty : UInt8) (body : List UInt8) (hty : ty ≠ 0 ∧ ty ≠ 1 ∧ ty ≠ 2 ∧ ty ≠ 4)
      (hbody : body.length + 2 ≤ 255)

namespace Structure

def encode : Structure → List UInt8
  | processorLocalApic processorId apicId flags =>
      [0, 8, processorId, apicId] ++ leBytes 4 flags.toNat
  | ioApic id reserved address gsiBase =>
      [1, 12, id, reserved] ++ leBytes 4 address.toNat ++ leBytes 4 gsiBase.toNat
  | interruptSourceOverride busSource irqSource gsi flags =>
      [2, 10, busSource, irqSource] ++ leBytes 4 gsi.toNat ++ leBytes 2 flags.toNat
  | localApicNmi processorId flags lint =>
      [4, 6, processorId] ++ leBytes 2 flags.toNat ++ [lint]
  | other ty body _ _ => [ty, UInt8.ofNat (body.length + 2)] ++ body

/-- What the kernel is to make of it. -/
def entry : Structure → APICEntry
  | processorLocalApic processorId apicId flags => .processLocal processorId apicId flags.toNat
  | ioApic id reserved address gsiBase => .ioApic id reserved address.toNat gsiBase.toNat
  | interruptSourceOverride busSource irqSource gsi flags =>
      .ioApicInterruptSourceOverride busSource irqSource gsi.toNat flags.toNat
  | localApicNmi processorId flags lint =>
      .localApicNonMaskableInterrupts processorId flags.toNat lint
  | other ty _ _ _ => .unknown ty

variable {fw : Firmware}

theorem length_encode (e : Structure) : 2 ≤ e.encode.length ∧ e.encode.length ≤ 255 := by
  cases e with
  | other ty body hty hbody =>
      rw [encode, List.length_append]
      show 2 ≤ 2 + body.length ∧ 2 + body.length ≤ 255
      omega
  | _ => simp [encode]

/-- The second byte is the length. -/
theorem lengthByte_encode (e : Structure) {v : Nat} (h : fw.Stored v e.encode) :
    (fw.mem (v + 1)).toNat = e.encode.length := by
  cases e with
  | other ty body hty hbody =>
      simp only [encode, List.cons_append, List.nil_append, stored_cons] at h
      rw [h.2.1, encode, List.length_append]
      show (body.length + 2) % 256 = 2 + body.length
      omega
  | _ =>
      simp only [encode, List.cons_append, List.nil_append, stored_cons] at h
      rw [h.2.1]
      simp [encode]

/-- The fields are read back, by the type in the first byte. -/
theorem readEntry_encoded (e : Structure) {v : Nat} (h : fw.Stored v e.encode)
    (hv : v + e.encode.length ≤ 2 ^ 64) :
    (readEntry fw ⟨v⟩ (fw.mem v)).result = .ok e.entry := by
  have hu8 : ∀ {k}, k < e.encode.length →
      VirtualPtr.readU8 fw ⟨v⟩ k = ⟨.ok (fw.mem (v + k)), [⟨v + k, 1⟩]⟩ :=
    fun hk => readU8_ok fw (by omega)
  have hunsigned : ∀ {k n}, k < e.encode.length →
      VirtualPtr.readUnsigned fw ⟨v⟩ k n = ⟨.ok (leNat (fw.bytes (v + k) n)), [⟨v + k, n⟩]⟩ :=
    fun hk => readUnsigned_ok fw (by omega)
  cases e with
  | processorLocalApic processorId apicId flags =>
      simp only [encode, List.cons_append, List.nil_append, stored_cons] at h
      obtain ⟨hty, -, hprocessor, hid, hflags⟩ := h
      rw [hty, readEntry, if_pos rfl, hu8 (by simp [encode]), hu8 (by simp [encode]),
        hunsigned (by simp [encode])]
      simp only [ok_bind, pure_eq]
      rw [hflags.leNat flags.toNat_lt, hprocessor, hid, entry]
  | ioApic id reserved address gsiBase =>
      simp only [encode, List.cons_append, List.nil_append, stored_cons, stored_append,
        length_leBytes] at h
      obtain ⟨hty, -, hid, hreserved, haddress, hgsi⟩ := h
      rw [hty, readEntry, if_neg (by decide), if_pos rfl, hu8 (by simp [encode]),
        hu8 (by simp [encode]), hunsigned (by simp [encode]), hunsigned (by simp [encode])]
      simp only [ok_bind, pure_eq]
      rw [haddress.leNat address.toNat_lt, hgsi.leNat gsiBase.toNat_lt, hid, hreserved, entry]
  | interruptSourceOverride busSource irqSource gsi flags =>
      simp only [encode, List.cons_append, List.nil_append, stored_cons, stored_append,
        length_leBytes] at h
      obtain ⟨hty, -, hbus, hirq, hgsi, hflags⟩ := h
      rw [hty, readEntry, if_neg (by decide), if_neg (by decide), if_pos rfl,
        hu8 (by simp [encode]), hu8 (by simp [encode]), hunsigned (by simp [encode]),
        hunsigned (by simp [encode])]
      simp only [ok_bind, pure_eq]
      rw [hgsi.leNat gsi.toNat_lt, hflags.leNat flags.toNat_lt, hbus, hirq, entry]
  | localApicNmi processorId flags lint =>
      simp only [encode, List.cons_append, List.nil_append, stored_cons, stored_append,
        length_leBytes] at h
      obtain ⟨hty, -, hprocessor, hflags, hlint, -⟩ := h
      rw [hty, readEntry, if_neg (by decide), if_neg (by decide), if_neg (by decide), if_pos rfl,
        hu8 (by simp [encode]), hunsigned (by simp [encode]), hu8 (by simp [encode])]
      simp only [ok_bind, pure_eq]
      rw [hflags.leNat flags.toNat_lt, hprocessor, hlint, entry]
  | other ty body hty hbody =>
      simp only [encode, List.cons_append, List.nil_append, stored_cons] at h
      rw [h.1, readEntry, if_neg hty.1, if_neg hty.2.1, if_neg hty.2.2.1, if_neg hty.2.2.2]
      rfl

/-- A call of `next` returns a structure and goes on behind it. -/
theorem next_encoded (e : Structure) {p : Nat} (remaining : Nat)
    (h : fw.Stored (p + fw.offset) e.encode)
    (hvirt : p + fw.offset + e.encode.length ≤ 2 ^ 64) (hphys : p + e.encode.length < 2 ^ 64)
    (hle : e.encode.length ≤ remaining) :
    ∃ reads, APICEntryIter.next fw ⟨⟨p⟩, remaining⟩ =
      ⟨.ok (some (e.entry, ⟨⟨p + e.encode.length⟩, remaining - e.encode.length⟩)), reads⟩ := by
  have htwo := e.length_encode.1
  have hptr := translate_ok fw (p := p) (by omega)
  have htype : VirtualPtr.readU8 fw ⟨p + fw.offset⟩ 0
      = ⟨.ok (fw.mem (p + fw.offset)), [⟨p + fw.offset, 1⟩]⟩ := readU8_ok fw (by omega)
  have hlength := readU8_ok fw (v := p + fw.offset) (k := 1) (by omega)
  have hentry := eq_of_result (e.readEntry_encoded h hvirt)
  have hmove := addRaw_ok hphys
  have hleft := subLength_ok hle
  have hne : remaining ≠ 0 := by omega
  rw [APICEntryIter.next, if_neg hne]
  simp only [hptr, htype, hlength, ok_bind]
  rw [hentry, e.lengthByte_encode h]
  simp only [hmove, hleft, ok_bind, pure_eq]
  exact ⟨_, rfl⟩

/-- Structures that lie back to back are returned one after the other, and what remains is
0 behind the last. -/
theorem next_yields (es : List Structure) : ∀ {p : Nat},
    fw.Stored (p + fw.offset) (es.flatMap encode) →
    p + fw.offset + (es.flatMap encode).length ≤ 2 ^ 64 →
    p + (es.flatMap encode).length < 2 ^ 64 →
    Yields (APICEntryIter.next fw) ⟨⟨p⟩, (es.flatMap encode).length⟩ (es.map entry) := by
  induction es with
  | nil =>
      intro p _ _ _
      exact .done (rfl : APICEntryIter.next fw ⟨⟨p⟩, 0⟩ = ⟨.ok none, []⟩)
  | cons e es ih =>
      intro p hstored hvirt hphys
      rw [List.flatMap_cons, stored_append] at hstored
      rw [List.flatMap_cons, List.length_append] at hvirt hphys ⊢
      obtain ⟨hfirst, hrest⟩ := hstored
      rw [Nat.add_right_comm] at hrest
      obtain ⟨reads, hnext⟩ := e.next_encoded
        (e.encode.length + (es.flatMap encode).length) hfirst (by omega) (by omega)
        (by omega)
      rw [Nat.add_sub_cancel_left] at hnext
      exact .item hnext (ih hrest (by omega) (by omega))

end Structure

/-! ### The whole table -/

/-- An APIC table. -/
structure Madt where
  /-- The fields of the header behind the length. -/
  rest : List UInt8
  localAddr : UInt32
  flags : UInt32
  structures : List Structure
  hrest : rest.length = 28
  fits : 44 + (structures.flatMap Structure.encode).length < 2 ^ 32

namespace Madt

variable (t : Madt)

/-- The length in the header. -/
def length : Nat := 44 + (t.structures.flatMap Structure.encode).length

def encode : List UInt8 :=
  apic ++ leBytes 4 t.length ++ t.rest ++ leBytes 4 t.localAddr.toNat ++ leBytes 4 t.flags.toNat
    ++ t.structures.flatMap Structure.encode

/-- The fields of a table in memory, each at its place. -/
theorem stored_encode {fw : Firmware} {q : Nat} (h : fw.Stored (q + fw.offset) t.encode) :
    fw.header q = ⟨apic, t.length⟩ ∧
      leNat (fw.bytes (q + 36 + fw.offset) 4) = t.localAddr.toNat ∧
      leNat (fw.bytes (q + 36 + fw.offset + 4) 4) = t.flags.toNat ∧
      fw.Stored (q + 44 + fw.offset) (t.structures.flatMap Structure.encode) := by
  simp only [encode, stored_append, List.length_append, length_leBytes, t.hrest] at h
  obtain ⟨⟨⟨⟨⟨hsignature, hlength⟩, -⟩, hlocal⟩, hflags⟩, hstructures⟩ := h
  have hheader : fw.header q = ⟨apic, t.length⟩ := by
    rw [Firmware.header, SDTHeader.mk.injEq]
    exact ⟨hsignature, hlength.leNat t.fits⟩
  have hfields : q + fw.offset + (apic.length + 4 + 28) = q + 36 + fw.offset := by
    rw [show apic.length = 4 from rfl]
    omega
  have hbehind : q + fw.offset + (apic.length + 4 + 28 + 4 + 4) = q + 44 + fw.offset := by
    rw [show apic.length = 4 from rfl]
    omega
  rw [hfields] at hlocal
  rw [← Nat.add_assoc, hfields] at hflags
  rw [hbehind] at hstructures
  exact ⟨hheader, hlocal.leNat t.localAddr.toNat_lt, hflags.leNat t.flags.toNat_lt, hstructures⟩

end Madt

/--
**Decoding an APIC table inverts encoding it.**  For every table, wherever it is in memory:
loading it gives an APIC entry with its local address and flags, and iterating over the
entries returns what its structures are, in order, and then nothing.
-/
theorem madt_decoded (fw : Firmware) (q : Nat) (t : Madt)
    (hstored : fw.Stored (q + fw.offset) t.encode) (hvirt : q + fw.offset + t.length ≤ 2 ^ 64)
    (hphys : q + t.length < 2 ^ 64) :
    ∃ header entry,
      (SDTHeader.load fw ⟨q⟩).result = .ok header ∧ header.length = t.length ∧
      (AcipEntry.load fw header ⟨q + 36⟩).result = .ok (.apic entry) ∧
      entry.localAddr = t.localAddr.toNat ∧ entry.flags = t.flags.toNat ∧
      Yields (APICEntryIter.next fw) entry.entries (t.structures.map Structure.entry) := by
  obtain ⟨hheader, hlocal, hflags, hstructures⟩ := t.stored_encode hstored
  have hlength : t.length = 44 + (t.structures.flatMap Structure.encode).length := rfl
  have hload := load_apic fw (q := q) (by omega) (by omega) (by rw [hheader])
  rw [hheader, if_pos (show 44 ≤ t.length by omega), hlocal, hflags] at hload
  have hentries := Structure.next_yields t.structures hstructures (by omega) (by omega)
  refine ⟨⟨apic, t.length⟩, _, ?_, rfl, hload, rfl, rfl, ?_⟩
  · rw [header_load_ok fw (by omega), hheader]
  · rw [AcipApicEntry.entries, hlength, Nat.add_sub_cancel_left]
    exact hentries

/-- The table of `apicFirmware`, with a processor and an I/O APIC. -/
theorem two_entries_decoded :
    ∃ header entry,
      (SDTHeader.load (apicFirmware 8) ⟨0x7fe0028⟩).result = .ok header ∧ header.length = 64 ∧
      (AcipEntry.load (apicFirmware 8) header ⟨0x7fe004c⟩).result = .ok (.apic entry) ∧
      entry.localAddr = 0xfee00000 ∧ entry.flags = 1 ∧
      Yields (APICEntryIter.next (apicFirmware 8)) entry.entries
        [.processLocal 0 0 1, .ioApic 1 0 0xfec00000 0] :=
  madt_decoded (apicFirmware 8) 0x7fe0028
    ⟨List.replicate 28 0, 0xfee00000, 1, [.processorLocalApic 0 0 1, .ioApic 1 0 0xfec00000 0],
      by decide, by decide⟩
    (by unfold Firmware.Stored; decide +kernel) (by decide +kernel) (by decide +kernel)

end Rucoonos.Acpi
