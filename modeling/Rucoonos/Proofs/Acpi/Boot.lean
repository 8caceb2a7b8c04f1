/-
What the kernel lists at boot, for every content of memory.

The boot goes from the RSDP to the root table and from there to one table after the
other, and prints a line for each.  `Firmware.tableFault` says of one table whether the
kernel gets past it, `Firmware.tableLine` what it prints for it, and neither says
anything about the other tables.  `boot_lists_tables` puts them together: the lines are
those of the tables in front of the first one the kernel does not get past, and if there
is none the boot goes on.
-/
import Rucoonos.Acpi.Boot
import Rucoonos.Proofs.Acpi.Walk

namespace Rucoonos.Acpi

open Traced

/-! ### What is to come of it -/

section Report

variable (fw : Firmware)

/-- Why the kernel panics at the table at a physical address, if it does. -/
def Firmware.tableFault (q : Nat) : Option Fault :=
  if ¬ (q + fw.offset < 2 ^ 64 ∧ q + 36 < 2 ^ 64) then some .address
  else if validUtf8 0 0 0 (fw.header q).signature = false then some .signature
  else if (fw.header q).signature = apic then
    if ¬ (q + 40 + fw.offset < 2 ^ 64 ∧ q + 44 < 2 ^ 64) then some .address
    else if (fw.header q).length < 44 then some .length
    else none
  else if (fw.header q).signature = facp then
    if ¬ q + 36 + fw.offset < 2 ^ 64 then some .address else none
  else none

/-- The line for the table at a physical address. -/
def Firmware.tableLine (q : Nat) : Line :=
  if (fw.header q).signature = apic then .apic
  else if (fw.header q).signature = facp then .fadt
  else if (fw.header q).signature = hpet then .highPrecisionEventTimer
  else if (fw.header q).signature = waet then .windowsAcpiEmulatedDevices
  else .unknown (fw.header q).signature

/-- The tables in front of the first one the kernel does not get past. -/
def Firmware.listed (tables : List Nat) : List Nat :=
  tables.takeWhile fun q => (fw.tableFault q).isNone

/-- What comes of a list of tables. -/
def Firmware.report (tables : List Nat) : Boot (Option Unit) :=
  ⟨match tables.findSome? fw.tableFault with
    | none => .ok (some ())
    | some fault => .error (.acpi fault),
    (fw.listed tables).map fw.tableLine⟩

/-- Where the RSDP at a physical address says that the root table is. -/
def Firmware.rootAddress (p : Nat) : Nat := leNat (fw.bytes (p + fw.offset + 16) 4)

/-- What comes of the root table at a physical address and of its tables. -/
def Firmware.rootReport (root : Nat) : Boot (Option Unit) :=
  if validUtf8 0 0 0 (fw.header root).signature = false then .stop (.acpi .signature)
  else if (fw.header root).length < 36 then .stop (.acpi .length)
  else fw.report (fw.tablePointers root)

end Report

/-- What comes of the boot. -/
def BootInfo.report (mem : Nat → UInt8) (info : BootInfo) : Boot (Option Unit) :=
  match info.rsdpAddr, info.physicalMemoryOffset with
  | none, _ => pure (some ())
  | some _, none => .stop .missingPhysicalOffset
  | some rsdp, some offset =>
      let fw : Firmware := ⟨mem, offset⟩
      fw.rootReport (fw.rootAddress rsdp)

/-- The tables the boot is pointed to. -/
def BootInfo.tables (mem : Nat → UInt8) (info : BootInfo) : List Nat :=
  match info.rsdpAddr, info.physicalMemoryOffset with
  | some rsdp, some offset =>
      let fw : Firmware := ⟨mem, offset⟩
      fw.tablePointers (fw.rootAddress rsdp)
  | _, _ => []

/-- The RSDP is in physical memory, and physical memory is mapped inside the address
space. -/
structure BootInfo.Mapped (info : BootInfo) : Prop where
  rsdp : ∀ p, info.rsdpAddr = some p → p < 2 ^ 52
  offset : ∀ offset, info.physicalMemoryOffset = some offset → offset + 2 ^ 53 ≤ 2 ^ 64

section Report

variable {fw : Firmware} {q : Nat} {rest : List Nat}

theorem report_fault {fault : Fault} (h : fw.tableFault q = some fault) :
    fw.report (q :: rest) = .stop (.acpi fault) := by
  simp [Firmware.report, Firmware.listed, h, Traced.stop]

theorem report_line (h : fw.tableFault q = none) :
    fw.report (q :: rest) =
      ⟨(fw.report rest).result, fw.tableLine q :: (fw.report rest).trace⟩ := by
  simp [Firmware.report, Firmware.listed, h]

end Report

/-! ### One table -/

section Table

variable {fw : Firmware} {q : Nat}

theorem addU64_stop {a b : Nat} (h : ¬ a + b < 2 ^ 64) : addU64 a b = ⟨.error .address, []⟩ :=
  if_neg h

theorem translate_stop (h : ¬ q + fw.offset < 2 ^ 64) :
    PhysicalPtr.translate fw ⟨q⟩ = ⟨.error .address, []⟩ := by
  rw [PhysicalPtr.translate, addU64_stop h]
  rfl

theorem addRaw_stop {k : Nat} (h : ¬ q + k < 2 ^ 64) :
    PhysicalPtr.addRaw ⟨q⟩ k = ⟨.error .address, []⟩ := by
  rw [PhysicalPtr.addRaw, addU64_stop h]
  rfl

theorem readUnsigned_stop {v k n : Nat} (h : ¬ v + k < 2 ^ 64) :
    VirtualPtr.readUnsigned fw ⟨v⟩ k n = ⟨.error .address, []⟩ := by
  rw [VirtualPtr.readUnsigned, VirtualPtr.addRaw, addU64_stop h]
  rfl

/-- What the loop needs of a call of `load` on a table: an entry with its line, or the
fault. -/
def Lists (fw : Firmware) (q : Nat) (m : Walk AcipEntry) : Prop :=
  match fw.tableFault q with
  | some fault => m.result = .error fault
  | none => ∃ entry, m.result = .ok entry ∧ entry.line = ⟨.ok (fw.tableLine q), []⟩

/-- An APIC table too high up for its fields. -/
theorem load_apic_stop (hsig : (fw.header q).signature = apic)
    (h : ¬ (q + 40 + fw.offset < 2 ^ 64 ∧ q + 44 < 2 ^ 64)) :
    (AcipEntry.load fw (fw.header q) ⟨q + 36⟩).result = .error .address := by
  have hutf8 : fromUtf8 apic = ⟨.ok apic, []⟩ := rfl
  rw [AcipEntry.load, hsig, hutf8]
  simp only [ok_bind, if_true]
  by_cases hptr : q + 36 + fw.offset < 2 ^ 64
  · have hlocal := readUnsigned_ok fw (v := q + 36 + fw.offset) (k := 0) (n := 4) hptr
    simp only [translate_ok fw hptr, ok_bind, hlocal]
    by_cases hflags : q + 36 + fw.offset + 4 < 2 ^ 64
    · simp only [readUnsigned_ok fw hflags, ok_bind]
      rw [addRaw_stop (by omega)]
      rfl
    · rw [readUnsigned_stop hflags]
      rfl
  · rw [translate_stop hptr]
    rfl

theorem load_lists (hq : q + fw.offset < 2 ^ 64 ∧ q + 36 < 2 ^ 64) :
    Lists fw q (AcipEntry.load fw (fw.header q) ⟨q + 36⟩) := by
  unfold Lists Firmware.tableFault Firmware.tableLine
  rw [if_neg (not_not_intro hq)]
  by_cases hutf8 : validUtf8 0 0 0 (fw.header q).signature = false
  · rw [if_pos hutf8, AcipEntry.load, fromUtf8, if_neg (by rw [hutf8]; decide)]
    rfl
  · rw [if_neg hutf8]
    have hvalid : fromUtf8 (fw.header q).signature = ⟨.ok (fw.header q).signature, []⟩ :=
      if_pos (by simpa using hutf8)
    by_cases hapic : (fw.header q).signature = apic
    · rw [if_pos hapic, if_pos hapic]
      by_cases hfields : q + 40 + fw.offset < 2 ^ 64 ∧ q + 44 < 2 ^ 64
      · rw [if_neg (not_not_intro hfields), load_apic fw (by omega) hfields.2 hapic]
        by_cases hlength : (fw.header q).length < 44
        · rw [if_pos hlength, if_neg (by omega)]
        · rw [if_neg hlength, if_pos (by omega)]
          exact ⟨_, rfl, rfl⟩
      · rw [if_pos hfields, load_apic_stop hapic hfields]
    · rw [if_neg hapic, if_neg hapic, AcipEntry.load, hvalid, ok_bind, if_neg hapic]
      by_cases hfacp : (fw.header q).signature = facp
      · rw [if_pos hfacp, if_pos hfacp, if_pos hfacp]
        by_cases hptr : q + 36 + fw.offset < 2 ^ 64
        · rw [if_neg (not_not_intro hptr), translate_ok fw hptr]
          exact ⟨_, rfl, rfl⟩
        · rw [if_pos hptr, translate_stop hptr]
          rfl
      · -- The other tables are not looked into, and the last is parsed a second time.
        rw [if_neg hfacp, if_neg hfacp, if_neg hfacp]
        split_ifs
        · exact ⟨_, rfl, rfl⟩
        · exact ⟨_, rfl, rfl⟩
        · refine ⟨_, rfl, ?_⟩
          rw [AcipEntry.line, hvalid]
          rfl

end Table

/-! ### The loop -/

section Loop

variable {fw : Firmware} {p size left : Nat}

/-- A pointer to no address that can be mapped. -/
theorem RSDTIter.next_stop (hsize : size = 4 ∨ size = 8) (hp : p + fw.offset < 2 ^ 64)
    (h : ¬ (fw.pointer size p + fw.offset < 2 ^ 64 ∧ fw.pointer size p + 36 < 2 ^ 64)) :
    (RSDTIter.next fw ⟨⟨p⟩, size, left + 1⟩).result = .error .address := by
  have hread : (if size = 4 then 4 else 8) = size := by
    rcases hsize with rfl | rfl
    · rfl
    · rfl
  have haddr : VirtualPtr.readUnsigned fw ⟨p + fw.offset⟩ 0 size
      = ⟨.ok (fw.pointer size p), [⟨p + fw.offset, size⟩]⟩ := readUnsigned_ok fw hp
  rw [RSDTIter.next, if_neg (Nat.succ_ne_zero left)]
  simp only [hread, translate_ok fw hp, haddr, ok_bind]
  by_cases htable : fw.pointer size p + fw.offset < 2 ^ 64
  · have hrest : ¬ fw.pointer size p + sizeOfSdtHeader < 2 ^ 64 := fun hc => h ⟨htable, hc⟩
    simp only [header_load_ok fw htable, ok_bind, addRaw_stop hrest, error_bind]
  · rw [SDTHeader.load, translate_stop htable]
    rfl

/-- A round of the loop on a table the kernel does not get past. -/
theorem entriesNext_fault {fault : Fault} (hsize : size = 4 ∨ size = 8)
    (hp : p + size + fw.offset < 2 ^ 64)
    (h : fw.tableFault (fw.pointer size p) = some fault) :
    (rsdtEntriesNext fw ⟨⟨p⟩, size, left + 1⟩).result = .error fault := by
  by_cases hq : fw.pointer size p + fw.offset < 2 ^ 64 ∧ fw.pointer size p + 36 < 2 ^ 64
  · obtain ⟨reads, hnext⟩ := RSDTIter.next_ok left hsize (by omega) (by omega) hq.1 hq.2
    have hload := load_lists hq
    rw [Lists, h] at hload
    rw [rsdtEntriesNext, hnext, ok_bind]
    dsimp only [Firmware.item]
    rw [eq_of_result hload]
    rfl
  · have hfault : fault = .address := by
      rw [Firmware.tableFault, if_pos hq] at h
      exact (Option.some.inj h).symm
    rw [rsdtEntriesNext, eq_of_result (RSDTIter.next_stop hsize (by omega) hq), hfault]
    rfl

/-- A round of the loop on any other table. -/
theorem entriesNext_entry (left : Nat) (hsize : size = 4 ∨ size = 8)
    (hp : p + size + fw.offset < 2 ^ 64)
    (h : fw.tableFault (fw.pointer size p) = none) :
    ∃ entry, (rsdtEntriesNext fw ⟨⟨p⟩, size, left + 1⟩).result
        = .ok (some (entry, ⟨⟨p + size⟩, size, left⟩)) ∧
      entry.line = ⟨.ok (fw.tableLine (fw.pointer size p)), []⟩ := by
  have hq : fw.pointer size p + fw.offset < 2 ^ 64 ∧ fw.pointer size p + 36 < 2 ^ 64 := by
    by_contra hq
    rw [Firmware.tableFault, if_pos hq] at h
    cases h
  obtain ⟨reads, hnext⟩ := RSDTIter.next_ok left hsize (by omega) (by omega) hq.1 hq.2
  have hload := load_lists hq
  rw [Lists, h] at hload
  obtain ⟨entry, hentry, hline⟩ := hload
  refine ⟨entry, ?_, hline⟩
  rw [rsdtEntriesNext, hnext, ok_bind]
  dsimp only [Firmware.item]
  rw [eq_of_result hentry]
  rfl

/-- The loop over the pointers in an array. -/
theorem printEntries_eq (hsize : size = 4 ∨ size = 8) : ∀ {left p fuel : Nat},
    p + size * left + fw.offset < 2 ^ 64 → left < fuel →
    printEntries fw fuel ⟨⟨p⟩, size, left⟩ =
      fw.report ((List.range left).map fun k => fw.pointer size (p + size * k)) := by
  intro left
  induction left with
  | zero =>
      intro p fuel _ hfuel
      obtain ⟨fuel, rfl⟩ := Nat.exists_eq_succ_of_ne_zero (Nat.ne_of_gt hfuel)
      rfl
  | succ left ih =>
      intro p fuel hbound hfuel
      obtain ⟨fuel, rfl⟩ := Nat.exists_eq_succ_of_ne_zero (Nat.ne_zero_of_lt hfuel)
      rw [Nat.mul_succ] at hbound
      have hlist : ((List.range (left + 1)).map fun k => fw.pointer size (p + size * k))
          = fw.pointer size p ::
            (List.range left).map fun k => fw.pointer size (p + size + size * k) := by
        rw [List.range_succ_eq_map, List.map_cons, List.map_map]
        refine congrArg (_ :: ·) (List.map_congr_left fun k _ => ?_)
        rw [Function.comp_apply, Nat.mul_succ, Nat.add_comm (size * k), Nat.add_assoc]
      rw [hlist, printEntries]
      cases hfault : fw.tableFault (fw.pointer size p) with
      | some fault =>
          rw [report_fault hfault, Boot.ofWalk, entriesNext_fault hsize (by omega) hfault]
          rfl
      | none =>
          obtain ⟨entry, hentry, hline⟩ := entriesNext_entry left hsize (by omega) hfault
          have hrest := ih (p := p + size) (by omega) (Nat.lt_of_succ_lt_succ hfuel)
          rw [report_line hfault, ← hrest, Boot.ofWalk, hentry]
          simp only [Except.mapError, ok_bind, Boot.ofWalk, hline, Boot.println, List.nil_append,
            List.cons_append]

end Loop

/-! ### The root table -/

section Root

variable {fw : Firmware}

theorem rsdp_load (fw : Firmware) {p : Nat} (h : p + fw.offset < 2 ^ 64) :
    ∃ rsdp, (RSDP.load fw ⟨p⟩).result = .ok rsdp ∧ rsdp.rsdtAddr = ⟨fw.rootAddress p⟩ := by
  rw [RSDP.load, translate_ok fw h]
  exact ⟨_, rfl, rfl⟩

/-- The RSDP has room for an address of 32 bits. -/
theorem rootAddress_lt (p : Nat) : fw.rootAddress p < 2 ^ 32 := by
  have hlt := leNat_lt (fw.bytes (p + fw.offset + 16) 4)
  rw [length_bytes] at hlt
  exact hlt

/-- The root table is loaded and its tables are listed. -/
theorem printRoot_eq {root fuel : Nat} (hmapped : fw.offset + 2 ^ 53 ≤ 2 ^ 64)
    (hroot : root < 2 ^ 32) (hfuel : (fw.tablePointers root).length < fuel) :
    (Boot.ofWalk (RSDT.load fw ⟨root⟩) >>= fun rsdt => printEntries fw fuel rsdt.iter) =
      fw.rootReport root := by
  rw [Boot.ofWalk, rsdt_load fw (by omega) (by omega), Firmware.rootReport]
  by_cases hutf8 : validUtf8 0 0 0 (fw.header root).signature = false
  · rw [if_pos hutf8, if_neg (by rw [hutf8]; decide)]
    rfl
  · rw [if_neg hutf8, if_pos (by simpa using hutf8)]
    by_cases hlength : (fw.header root).length < 36
    · rw [if_pos hlength, if_neg (by omega)]
      rfl
    · have hlt := header_length_lt fw (p := root)
      have hle := Nat.mul_div_le ((fw.header root).length - 36) (fw.pointerSize root)
      rw [Firmware.tablePointers, List.length_map, List.length_range] at hfuel
      rw [if_neg hlength, if_pos (by omega), Firmware.tablePointers,
        ← printEntries_eq (pointerSize_cases root) (by omega) hfuel]
      rfl

end Root

/--
**The boot lists the tables up to the first one it cannot read.**  For every content of
memory, with physical memory mapped inside the address space: the kernel panics before it
printed anything if the root table has a signature that is no text or is shorter than its
header.  Otherwise it prints one line for each table the root table points to, in order
and by the signature of the table, up to the first one whose pointer is too high to be
mapped, whose signature is no text, or which is an APIC table without room for its fields,
and panics there.  If there is no such table, all are listed and the boot goes on.
-/
theorem boot_lists_tables (mem : Nat → UInt8) (info : BootInfo) (hmapped : info.Mapped)
    (fuel : Nat) (hfuel : (info.tables mem).length < fuel) :
    bootTables mem info fuel = info.report mem := by
  obtain ⟨rsdpAddr, physicalMemoryOffset⟩ := info
  cases rsdpAddr with
  | none => rfl
  | some p =>
      cases physicalMemoryOffset with
      | none => rfl
      | some offset =>
          have hp : p < 2 ^ 52 := hmapped.rsdp p rfl
          have hoffset : offset + 2 ^ 53 ≤ 2 ^ 64 := hmapped.offset offset rfl
          have hfw : (Firmware.mk mem offset).offset = offset := rfl
          obtain ⟨rsdp, hload, hroot⟩ := rsdp_load ⟨mem, offset⟩ (p := p) (by omega)
          have hboot : Boot.ofWalk (RSDP.load ⟨mem, offset⟩ ⟨p⟩) = ⟨.ok rsdp, []⟩ := by
            rw [Boot.ofWalk, hload]
            rfl
          rw [bootTables, rsdpAcipSetup]
          dsimp only
          rw [hboot, ok_bind, RSDP.loadRsdt, hroot]
          -- The root table is the last step in which the set up can fail.
          refine Eq.trans ?_ (printRoot_eq hoffset (rootAddress_lt p) hfuel)
          generalize Boot.ofWalk (RSDT.load ⟨mem, offset⟩ ⟨Firmware.rootAddress _ p⟩) = m
          obtain ⟨result, lines⟩ := m
          cases result with
          | error fault => rfl
          | ok rsdt => simp

/-- Memory with an RSDP at 0, the root table behind it and four tables behind that: an APIC
table, an HPET table, a table whose signature is no text and another HPET table. -/
def brokenTableMemory : Nat → UInt8 := fun addr =>
  (List.replicate 16 0 ++ [20, 0, 0, 0] ++
    [0x52, 0x53, 0x44, 0x54, 52, 0, 0, 0] ++ List.replicate 28 0 ++
    [72, 0, 0, 0, 116, 0, 0, 0, 152, 0, 0, 0, 116, 0, 0, 0] ++
    apic ++ [44, 0, 0, 0] ++ List.replicate 36 0 ++
    hpet ++ [36, 0, 0, 0] ++ List.replicate 28 0 ++
    [0xff, 0xff, 0xff, 0xff, 36, 0, 0, 0] ++ List.replicate 28 0).getD (addr - 0x18000000000) 0

theorem mapped_brokenTable : (BootInfo.mk (some 0) (some 0x18000000000)).Mapped := by
  refine ⟨fun p hp => ?_, fun offset hoffset => ?_⟩
  · cases hp
    decide
  · cases hoffset
    decide

/-- The first two tables are listed. -/
theorem boot_lists_two :
    bootTables brokenTableMemory ⟨some 0, some 0x18000000000⟩ 5 =
      ⟨.error (.acpi .signature), [.apic, .highPrecisionEventTimer]⟩ := by
  have hreport : (BootInfo.mk (some 0) (some 0x18000000000)).report brokenTableMemory =
      ⟨.error (.acpi .signature), [.apic, .highPrecisionEventTimer]⟩ := by
    rfl
  rw [← hreport]
  exact boot_lists_tables brokenTableMemory _ mapped_brokenTable 5 (by decide +kernel)

end Rucoonos.Acpi
