/-
From the boot information to the list of the tables: `RSDP` of `src/acpi.rs`,
`rsdp_acip_setup` and `get_rsdt_entries` of `src/hardware.rs`, and the loop over the
entries in `src/main.rs`.

The trace of a walk is the reads it made.  The boot is of the same kind, but what it
leaves behind is what it printed: when it panics, the lines before stay on the screen.
-/
import Rucoonos.Acpi.Tables

namespace Rucoonos.Acpi

/-! ### `acpi.rs` -/

structure RSDP where
  signature : List UInt8
  checksum : UInt8
  oemid : List UInt8
  revision : UInt8
  rsdtAddr : PhysicalPtr
  deriving DecidableEq, Repr

/-- `size_of::<raw::RSDP>()`. -/
def sizeOfRsdp : Nat := 20

def RSDP.load (fw : Firmware) (p : PhysicalPtr) : Walk RSDP := do
  let targetPtr ← p.translate fw
  let raw ← targetPtr.read fw sizeOfRsdp
  return ⟨raw.take 8, raw.getD 8 0, (raw.drop 9).take 6, raw.getD 15 0,
    ⟨leNat ((raw.drop 16).take 4)⟩⟩

def RSDP.loadRsdt (fw : Firmware) (r : RSDP) : Walk RSDT := RSDT.load fw r.rsdtAddr

/-! ### `hardware.rs` -/

inductive BootFault
  | missingPhysicalOffset
  | acpi (fault : Fault)
  deriving DecidableEq, Repr

/-- A line that `kernel_main` prints for a table. -/
inductive Line
  /-- Prints ` -> Apic Entry`. -/
  | apic
  /-- Prints ` -> FADT Entry`. -/
  | fadt
  /-- Prints ` -> High Precision Event Timer Entry`. -/
  | highPrecisionEventTimer
  /-- Prints ` -> Windows ACPI Emulated Devices Entry`. -/
  | windowsAcpiEmulatedDevices
  /-- Prints ` -> Unknown Entry: `, and the signature. -/
  | unknown (signature : List UInt8)
  deriving DecidableEq, Repr

abbrev Boot := Traced BootFault Line

/-- A walk as a part of the boot.  It prints nothing. -/
def Boot.ofWalk {α : Type} (m : Walk α) : Boot α := ⟨m.result.mapError .acpi, []⟩

/-- What the boot loader hands over, as far as it is read here. -/
structure BootInfo where
  rsdpAddr : Option Nat
  physicalMemoryOffset : Option Nat
  deriving DecidableEq, Repr

/-- `rsdp_acip_setup`.  The mapper is returned together with the memory it maps into. -/
def rsdpAcipSetup (mem : Nat → UInt8) (info : BootInfo) : Boot (Option (RSDT × Firmware)) :=
  match info.rsdpAddr with
  | none => pure none
  | some rawAddr =>
      match info.physicalMemoryOffset with
      | none => .stop .missingPhysicalOffset
      | some offset => do
          let fw : Firmware := ⟨mem, offset⟩
          let rsdp ← Boot.ofWalk (RSDP.load fw ⟨rawAddr⟩)
          let rsdt ← Boot.ofWalk (rsdp.loadRsdt fw)
          return some (rsdt, fw)

/-- `next` of the iterator of `get_rsdt_entries`. -/
def rsdtEntriesNext (fw : Firmware) (it : RSDTIter) : Walk (Option (AcipEntry × RSDTIter)) := do
  match ← it.next fw with
  | none => return none
  | some ((header, ptr), it) => do
      let entry ← AcipEntry.load fw header ptr
      return some (entry, it)

/-! ### `main.rs` -/

/-- The `match entry` of `kernel_main`. -/
def AcipEntry.line : AcipEntry → Walk Line
  | .apic _ => return .apic
  | .fadt _ => return .fadt
  | .highPrecisionEventTimer _ _ => return .highPrecisionEventTimer
  | .windowsAcpiEmulatedDevices _ _ => return .windowsAcpiEmulatedDevices
  | .unknown header _ => do
      let signature ← fromUtf8 header.signature
      return .unknown signature

def Boot.println (line : Line) : Boot Unit := ⟨.ok (), [line]⟩

/-- The `for entry in iter` of `kernel_main`; `none` if that many rounds are not enough. -/
def printEntries (fw : Firmware) : Nat → RSDTIter → Boot (Option Unit)
  | 0, _ => pure none
  | fuel + 1, it => do
      match ← Boot.ofWalk (rsdtEntriesNext fw it) with
      | none => pure (some ())
      | some (entry, it) => do
          let line ← Boot.ofWalk entry.line
          Boot.println line
          printEntries fw fuel it

/-- The tables are set up, and then listed if there are any. -/
def bootTables (mem : Nat → UInt8) (info : BootInfo) (fuel : Nat) : Boot (Option Unit) := do
  match ← rsdpAcipSetup mem info with
  | none => pure (some ())
  | some (rsdt, fw) => printEntries fw fuel rsdt.iter

end Rucoonos.Acpi
