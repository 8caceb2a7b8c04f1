/-
The ACPI tables: `src/acpi.rs`, `src/acpi/ptr.rs` and `src/acpi/acpi.rs`.

The kernel reads the tables where the firmware put them.  All of physical memory is
mapped at an offset, so a read through a translated pointer gives whatever bytes are
there.  Everything the code does with what it read is done here too: the lengths are
subtracted and the pointers moved as they stand in the tables.

Three things can panic, and they are kept apart: an address that does not fit 64 bits, a
signature that is not UTF-8, and a length that is too small for what is subtracted from
it.  The trace of a program is the reads it made.
-/
import Rucoonos.Lib.Traced
import Mathlib.Data.UInt

namespace Rucoonos.Acpi

inductive Fault
  | address
  | signature
  | length
  deriving DecidableEq, Repr

/-- A read of `size` bytes at a virtual address. -/
structure Access where
  addr : Nat
  size : Nat
  deriving DecidableEq, Repr

abbrev Walk := Traced Fault Access

/-- What the kernel finds at each virtual address, and where physical memory is mapped. -/
structure Firmware where
  mem : Nat → UInt8
  /-- `OffsetMapper::offset`. -/
  offset : Nat

/-- `a + b` of two `u64`s. -/
def addU64 (a b : Nat) : Walk Nat := if a + b < 2 ^ 64 then pure (a + b) else .stop .address

/-- `a - b` of two lengths. -/
def subLength (a b : Nat) : Walk Nat := if b ≤ a then pure (a - b) else .stop .length

/-! ### `ptr.rs` -/

structure PhysicalPtr where
  addr : Nat
  deriving DecidableEq, Repr

structure VirtualPtr where
  addr : Nat
  deriving DecidableEq, Repr

/-- `translate`, with an `OffsetMapper`. -/
def PhysicalPtr.translate (fw : Firmware) (p : PhysicalPtr) : Walk VirtualPtr := do
  let addr ← addU64 p.addr fw.offset
  return ⟨addr⟩

def PhysicalPtr.addRaw (p : PhysicalPtr) (offset : Nat) : Walk PhysicalPtr := do
  let addr ← addU64 p.addr offset
  return ⟨addr⟩

def VirtualPtr.addRaw (p : VirtualPtr) (offset : Nat) : Walk VirtualPtr := do
  let addr ← addU64 p.addr offset
  return ⟨addr⟩

def Firmware.bytes (fw : Firmware) : Nat → Nat → List UInt8
  | _, 0 => []
  | addr, n + 1 => fw.mem addr :: fw.bytes (addr + 1) n

/-- The number with these bytes, the least significant first. -/
def leNat (bytes : List UInt8) : Nat := bytes.foldr (fun b n => b.toNat + 256 * n) 0

/-- `read` of a type of `size` bytes.  The processor does not ask for an alignment. -/
def VirtualPtr.read (fw : Firmware) (p : VirtualPtr) (size : Nat) : Walk (List UInt8) :=
  ⟨.ok (fw.bytes p.addr size), [⟨p.addr, size⟩]⟩

/-- `ptr.add_raw(offset).read::<u8>()`. -/
def VirtualPtr.readU8 (fw : Firmware) (p : VirtualPtr) (offset : Nat) : Walk UInt8 := do
  let p ← p.addRaw offset
  let _ ← p.read fw 1
  return fw.mem p.addr

/-- `ptr.add_raw(offset).read::<T>()` at an unsigned type of `size` bytes. -/
def VirtualPtr.readUnsigned (fw : Firmware) (p : VirtualPtr) (offset size : Nat) : Walk Nat := do
  let p ← p.addRaw offset
  let bytes ← p.read fw size
  return leNat bytes

/-! ### `core::str::from_utf8` -/

/-- How many bytes follow the first one of a character, and between which two the second
lies. -/
def utf8Leading (b : UInt8) : Option (Nat × UInt8 × UInt8) :=
  if b ≤ 0x7F then some (0, 0x80, 0xBF)
  else if 0xC2 ≤ b ∧ b ≤ 0xDF then some (1, 0x80, 0xBF)
  else if b = 0xE0 then some (2, 0xA0, 0xBF)
  else if b = 0xED then some (2, 0x80, 0x9F)
  else if 0xE1 ≤ b ∧ b ≤ 0xEF then some (2, 0x80, 0xBF)
  else if b = 0xF0 then some (3, 0x90, 0xBF)
  else if 0xF1 ≤ b ∧ b ≤ 0xF3 then some (3, 0x80, 0xBF)
  else if b = 0xF4 then some (3, 0x80, 0x8F)
  else none

/-- The rest of a text, `left` bytes before the end of a character. -/
def validUtf8 : Nat → UInt8 → UInt8 → List UInt8 → Bool
  | 0, _, _, [] => true
  | _ + 1, _, _, [] => false
  | 0, _, _, b :: rest =>
      match utf8Leading b with
      | some (left, lo, hi) => validUtf8 left lo hi rest
      | none => false
  | left + 1, lo, hi, b :: rest => lo ≤ b && b ≤ hi && validUtf8 left 0x80 0xBF rest

/-- `core::str::from_utf8(..).unwrap()`, by the bytes of the text. -/
def fromUtf8 (bytes : List UInt8) : Walk (List UInt8) :=
  if validUtf8 0 0 0 bytes then pure bytes else .stop .signature

/-- `"XSDT"`. -/
def xsdt : List UInt8 := [0x58, 0x53, 0x44, 0x54]
/-- `"APIC"`. -/
def apic : List UInt8 := [0x41, 0x50, 0x49, 0x43]
/-- `"FACP"`. -/
def facp : List UInt8 := [0x46, 0x41, 0x43, 0x50]
/-- `"HPET"`. -/
def hpet : List UInt8 := [0x48, 0x50, 0x45, 0x54]
/-- `"WAET"`. -/
def waet : List UInt8 := [0x57, 0x41, 0x45, 0x54]

/-! ### `acpi.rs` -/

/-- `SDTHeader`, less the fields that are never read. -/
structure SDTHeader where
  signature : List UInt8
  length : Nat
  deriving DecidableEq, Repr

/-- `size_of::<SDTHeader>()`. -/
def sizeOfSdtHeader : Nat := 36

def SDTHeader.load (fw : Firmware) (p : PhysicalPtr) : Walk SDTHeader := do
  let targetPtr ← p.translate fw
  let raw ← targetPtr.read fw sizeOfSdtHeader
  return ⟨raw.take 4, leNat ((raw.drop 4).take 4)⟩

/-- `RSDT`, with the fields of `RSDTPointers`. -/
structure RSDT where
  header : SDTHeader
  start : PhysicalPtr
  size : Nat
  count : Nat
  deriving DecidableEq, Repr

def RSDT.load (fw : Firmware) (p : PhysicalPtr) : Walk RSDT := do
  let header ← SDTHeader.load fw p
  let signatureStr ← fromUtf8 header.signature
  let ptrSize := if signatureStr = xsdt then 8 else 4
  let length ← subLength header.length sizeOfSdtHeader
  let start ← p.addRaw sizeOfSdtHeader
  return ⟨header, start, ptrSize, length / ptrSize⟩

structure RSDTIter where
  ptr : PhysicalPtr
  size : Nat
  left : Nat
  deriving DecidableEq, Repr

def RSDT.iter (r : RSDT) : RSDTIter := ⟨r.start, r.size, r.count⟩

def RSDTIter.next (fw : Firmware) (it : RSDTIter) :
    Walk (Option ((SDTHeader × PhysicalPtr) × RSDTIter)) :=
  if it.left = 0 then pure none
  else do
    let virtualCurrentPtr ← it.ptr.translate fw
    let addr ← virtualCurrentPtr.readUnsigned fw 0 (if it.size = 4 then 4 else 8)
    let rawHeaderPtr : PhysicalPtr := ⟨addr⟩
    let header ← SDTHeader.load fw rawHeaderPtr
    let restPtr ← rawHeaderPtr.addRaw sizeOfSdtHeader
    let ptr ← it.ptr.addRaw it.size
    return some ((header, restPtr), ⟨ptr, it.size, it.left - 1⟩)

/-! ### `acpi/acpi.rs` -/

structure AcipApicEntry where
  localAddr : Nat
  flags : Nat
  startingAddr : PhysicalPtr
  remaining : Nat
  deriving DecidableEq, Repr

inductive AcipEntry
  | apic (entry : AcipApicEntry)
  | fadt (raw : List UInt8)
  | highPrecisionEventTimer (header : SDTHeader) (ptr : PhysicalPtr)
  | windowsAcpiEmulatedDevices (header : SDTHeader) (ptr : PhysicalPtr)
  | unknown (header : SDTHeader) (ptr : PhysicalPtr)
  deriving DecidableEq, Repr

/-- `size_of::<raw::FADT>()`. -/
def sizeOfFadt : Nat := 208

def AcipEntry.load (fw : Firmware) (header : SDTHeader) (other : PhysicalPtr) : Walk AcipEntry := do
  let signature ← fromUtf8 header.signature
  if signature = Acpi.apic then do
    let ptr ← other.translate fw
    let localAddr ← ptr.readUnsigned fw 0 4
    let flags ← ptr.readUnsigned fw 4 4
    let startingAddr ← other.addRaw 8
    let length ← subLength header.length 8
    let remaining ← subLength length sizeOfSdtHeader
    return .apic ⟨localAddr, flags, startingAddr, remaining⟩
  else if signature = facp then do
    let ptr ← other.translate fw
    let rawFadt ← ptr.read fw sizeOfFadt
    return .fadt rawFadt
  else if signature = hpet then return .highPrecisionEventTimer header other
  else if signature = waet then return .windowsAcpiEmulatedDevices header other
  else return .unknown header other

inductive APICEntry
  | processLocal (processorId apicId : UInt8) (flags : Nat)
  | ioApic (id reserved : UInt8) (address gsiBase : Nat)
  | ioApicInterruptSourceOverride (busSource irqSource : UInt8) (gsi flags : Nat)
  | localApicNonMaskableInterrupts (acpiProcessorId : UInt8) (flags : Nat) (lint : UInt8)
  | unknown (id : UInt8)
  deriving DecidableEq, Repr

structure APICEntryIter where
  ptr : PhysicalPtr
  remainingSize : Nat
  deriving DecidableEq, Repr

def AcipApicEntry.entries (e : AcipApicEntry) : APICEntryIter := ⟨e.startingAddr, e.remaining⟩

/-- The `match e_type` of `next`. -/
def readEntry (fw : Firmware) (ptr : VirtualPtr) (eType : UInt8) : Walk APICEntry :=
  if eType = 0 then do
    let processorId ← ptr.readU8 fw 2
    let apicId ← ptr.readU8 fw 3
    let flags ← ptr.readUnsigned fw 4 4
    return .processLocal processorId apicId flags
  else if eType = 1 then do
    let apicId ← ptr.readU8 fw 2
    let reserved ← ptr.readU8 fw 3
    let address ← ptr.readUnsigned fw 4 4
    let gsiBase ← ptr.readUnsigned fw 8 4
    return .ioApic apicId reserved address gsiBase
  else if eType = 2 then do
    let busSource ← ptr.readU8 fw 2
    let irqSource ← ptr.readU8 fw 3
    let gsi ← ptr.readUnsigned fw 4 4
    let flags ← ptr.readUnsigned fw 8 2
    return .ioApicInterruptSourceOverride busSource irqSource gsi flags
  else if eType = 4 then do
    let acpiProcessorId ← ptr.readU8 fw 2
    let flags ← ptr.readUnsigned fw 3 2
    let lint ← ptr.readU8 fw 5
    return .localApicNonMaskableInterrupts acpiProcessorId flags lint
  else return .unknown eType

def APICEntryIter.next (fw : Firmware) (it : APICEntryIter) :
    Walk (Option (APICEntry × APICEntryIter)) :=
  if it.remainingSize = 0 then pure none
  else do
    let ptr ← it.ptr.translate fw
    let eType ← ptr.readU8 fw 0
    let eLength ← ptr.readU8 fw 1
    let entry ← readEntry fw ptr eType
    let newPtr ← it.ptr.addRaw eLength.toNat
    let remainingSize ← subLength it.remainingSize eLength.toNat
    return some (entry, ⟨newPtr, remainingSize⟩)

end Rucoonos.Acpi
