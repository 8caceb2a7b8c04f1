/-
Setting up the network extension: `extensions/networking.rs`, with `E1000Driver::new` of
`hardware/device.rs`.

Each E1000 on the bus gets two halves, a `NetworkDevice` for the handler and a card for
the interrupt.  They belong together by the packet queue between them and by the id, which
is the position of the function in the PCI enumeration.

What the card answers while it is set up is a parameter, the address that
`read_mac_address` gives.
-/
import Rucoonos.Device.Interrupts
import Rucoonos.Hardware.Pci
import Rucoonos.Net.Handler

namespace Rucoonos.Net

open E1000 (Nic)

/-- `E1000Driver::new`. -/
def E1000Driver.new (id : Nat) (device : Pci.Device) (mac : Mac) :
    Option (Nic × NetworkingMetadata) :=
  match device.headerType with
  | .generic .. => some (Nic.init id, ⟨mac, none, .initial⟩)
  | .unknown _ => none

/-- The closure of the `filter_map`. -/
def setupDevice (readMac : Nat → Mac) (id : Nat) (header : Pci.Device) :
    Option (NetworkDevice × Nic) :=
  if header.generic.id = 0x100E ∧ header.generic.vendorId = 0x8086 then
    match E1000Driver.new id header (readMac id) with
    | some (nDevice, metadata) => some (⟨nDevice.card.id, metadata, []⟩, nDevice)
    | none => none
  else none

/-- `NetworkExtension::setup`, up to the `unzip`. -/
def setup (readMac : Nat → Mac) (pciDevices : List Pci.Device) :
    List NetworkDevice × List Nic :=
  (pciDevices.zipIdx.filterMap fun (header, id) => setupDevice readMac id header).unzip

/-- Where `interrupt::handle_interrupt` stands. -/
inductive Turn
  /-- No interrupt is being handled. -/
  | outside
  /-- At the top of the loop, before the `k`-th card. -/
  | before (k : Nat)
  /-- In `handle_interrupt` of the `k`-th card. -/
  | inside (k : Nat)
  deriving DecidableEq, Repr

end Rucoonos.Net
