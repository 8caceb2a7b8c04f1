/-
The PCI bus (`hardware/pci.rs`): reading configuration space through the two ports,
decoding the header of a device, and looking for devices at every location.

The content of configuration space is the byte at each bus, device, function and
offset.  Writing an address to the port `CONFIG_ADDRESS` selects a double word of it,
which a read of `CONFIG_DATA` returns, lowest byte first; `configData` is that pair of
port accesses.  The `prog_if` byte is read by the source and used nowhere.
-/
import Rucoonos.Lib.Slice

namespace Rucoonos.Pci

open Slice

/-! ### The ports -/

/-- The byte at each bus, device, function and offset. -/
def ConfigSpace := UInt8 → UInt8 → UInt8 → UInt8 → UInt8

/-- Four bytes, the lowest one first. -/
def dword (b₀ b₁ b₂ b₃ : UInt8) : UInt32 :=
  UInt32.ofNat (b₀.toNat + 2 ^ 8 * b₁.toNat + 2 ^ 16 * b₂.toNat + 2 ^ 24 * b₃.toNat)

/--
What `CONFIG_DATA` returns once `address` was written to `CONFIG_ADDRESS`: bit 31
enables the access, and the bus, the device, the function and the register stand in
bits 16 to 23, 11 to 15, 8 to 10 and 2 to 7.
-/
def configData (space : ConfigSpace) (address : UInt32) : UInt32 :=
  if address &&& 0x80000000 = 0 then 0xffffffff
  else
    let byte := space (address >>> 16).toUInt8 ((address >>> 11).toUInt8 &&& 0x1f)
      ((address >>> 8).toUInt8 &&& 0x07)
    let register := address.toUInt8 &&& 0xfc
    dword (byte register) (byte (register + 1)) (byte (register + 2)) (byte (register + 3))

def address (bus slot func offset : UInt8) : UInt32 :=
  (bus.toUInt32 <<< 16) ||| (slot.toUInt32 <<< 11) ||| (func.toUInt32 <<< 8) |||
    (offset.toUInt32 &&& 0xFC) ||| 0x80000000

def read32bit (space : ConfigSpace) (bus slot func offset : UInt8) : UInt32 :=
  configData space (address bus slot func offset)

def readWord (space : ConfigSpace) (bus slot func offset : UInt8) : UInt16 :=
  let rawResult := configData space (address bus slot func offset)
  let result := (rawResult >>> ((offset.toUInt32 &&& 2) * 8)) &&& 0xffff
  result.toUInt16

/-! ### Devices -/

inductive BaseAddressRegister
  | memorySpace (address : UInt32) (prefetchable : Bool) (ty : UInt8)
  | ioSpace (address : UInt32)
  deriving DecidableEq, Repr

/-- `BaseAddressRegister::from`. -/
def BaseAddressRegister.ofU32 (raw : UInt32) : Exec BaseAddressRegister :=
  if raw &&& 0x1 = 0 then
    let address := raw &&& 0xfffffff0
    let rawTy := raw &&& 0b110
    let prefetchable := (raw &&& 0b1000) == 1
    .ok (.memorySpace address prefetchable rawTy.toUInt8)
  else if raw &&& 0x1 = 1 then
    .ok (.ioSpace (raw &&& 0xfffffffc))
  else
    -- `unreachable!`
    .error .assertion

inductive NetworkContollerClass
  | ethernet
  | unknown (subclass : UInt8)
  deriving DecidableEq, Repr

inductive DisplayControllerClass
  | vgaCompatible
  | unknown (subclass : UInt8)
  deriving DecidableEq, Repr

inductive DeviceClass
  | networkController (network : NetworkContollerClass)
  | displayController (display : DisplayControllerClass)
  | unknown (baseclass subclass : UInt8)
  deriving DecidableEq, Repr

structure GenericHeader where
  id : UInt16
  vendorId : UInt16
  status : UInt16
  command : UInt16
  deviceClass : DeviceClass
  revisionId : UInt8
  bist : UInt8
  latencyTimer : UInt8
  cacheLineSize : UInt8
  deriving DecidableEq, Repr

inductive HeaderType
  | generic (baseAddresses : Vector BaseAddressRegister 6) (cardbusCisPointer : UInt32)
      (interruptLine : UInt8)
  | unknown (ty : UInt8)
  deriving DecidableEq, Repr

structure Device where
  bus : UInt8
  slot : UInt8
  func : UInt8
  generic : GenericHeader
  headerType : HeaderType
  deriving DecidableEq, Repr

/-- The `match` on the two class bytes. -/
def DeviceClass.ofBytes (baseclass subclass : UInt8) : DeviceClass :=
  if baseclass = 0x2 then
    .networkController (if subclass = 0x0 then .ethernet else .unknown subclass)
  else if baseclass = 0x3 then
    .displayController (if subclass = 0x0 then .vgaCompatible else .unknown subclass)
  else .unknown baseclass subclass

/-- The `match` on the header type byte. -/
def loadHeaderType (space : ConfigSpace) (bus device function rawHeaderType : UInt8) :
    Exec HeaderType :=
  if rawHeaderType = 0x00 then do
    let bar₀ ← BaseAddressRegister.ofU32 (read32bit space bus device function 0x10)
    let bar₁ ← BaseAddressRegister.ofU32 (read32bit space bus device function 0x14)
    let bar₂ ← BaseAddressRegister.ofU32 (read32bit space bus device function 0x18)
    let bar₃ ← BaseAddressRegister.ofU32 (read32bit space bus device function 0x1C)
    let bar₄ ← BaseAddressRegister.ofU32 (read32bit space bus device function 0x20)
    let bar₅ ← BaseAddressRegister.ofU32 (read32bit space bus device function 0x24)
    let cisPointer := read32bit space bus device function 0x28
    let lastLine := read32bit space bus device function 0x3c
    return .generic #v[bar₀, bar₁, bar₂, bar₃, bar₄, bar₅] cisPointer
      (lastLine &&& 0x000000ff).toUInt8
  else return .unknown rawHeaderType

def loadDevice (space : ConfigSpace) (bus device : UInt8) : Exec (Option Device) :=
  let function := 0
  let vendorId := readWord space bus device function 0x0
  if vendorId = 0xffff then return none
  else do
    let deviceId := readWord space bus device function 0x2
    let secondRow := read32bit space bus device function 0x4
    let status := (secondRow >>> 16).toUInt16
    let command := (secondRow &&& 0x0000ffff).toUInt16
    let thirdLine := read32bit space bus device function 0x8
    let baseclass := (thirdLine >>> 24).toUInt8
    let subclass := ((thirdLine >>> 16) &&& 0x000000ff).toUInt8
    let revisionId := (thirdLine &&& 0x000000ff).toUInt8
    let fourthLine := read32bit space bus device function 0xc
    let bist := (fourthLine >>> 24).toUInt8
    let rawHeaderType := ((fourthLine >>> 16) &&& 0x000000ff).toUInt8
    let latencyTimer := ((fourthLine >>> 8) &&& 0x000000ff).toUInt8
    let cacheLineSize := (fourthLine &&& 0x000000ff).toUInt8
    let headerType ← loadHeaderType space bus device function rawHeaderType
    return some
      { bus, slot := device, func := function
        generic :=
          { id := deviceId, vendorId, status, command,
            deviceClass := DeviceClass.ofBytes baseclass subclass,
            revisionId, bist, latencyTimer, cacheLineSize }
        headerType }

/-! ### Enumeration -/

/-- `(0..255).flat_map(|bus| (0..32).map(move |device| (bus, device)))`. -/
def locations : List (UInt8 × UInt8) :=
  (List.range 255).flatMap fun bus =>
    (List.range 32).map fun device => (UInt8.ofNat bus, UInt8.ofNat device)

/-- The devices found at the locations of a list, in its order. -/
def loadAll (space : ConfigSpace) : List (UInt8 × UInt8) → Exec (List Device)
  | [] => return []
  | (bus, device) :: rest => do
      let found ← loadDevice space bus device
      let others ← loadAll space rest
      return found.toList ++ others

/-- Everything that the iterator yields. -/
def bruteforce (space : ConfigSpace) : Exec (List Device) := loadAll space locations

end Rucoonos.Pci
