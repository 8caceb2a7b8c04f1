/-
Registers of the card: `hardware/device/e1000/regs.rs`.

Each register is a record that is read from a word and written to one, bit by bit.  The
two directions are written down apart from each other in the source, and so they are here.
-/
import Mathlib.Data.UInt

namespace Rucoonos.E1000

/-- `InterruptCauseRegister`. -/
structure InterruptCauseRegister where
  txdw : Bool
  txqe : Bool
  lsc : Bool
  rxdmt : Bool
  dsw : Bool
  rxo : Bool
  rxt : Bool
  txdLow : Bool
  intAsserted : Bool
  deriving DecidableEq, Repr

/-- `((raw >> i) & 0b01) != 0`. -/
def bit (raw : UInt32) (i : UInt32) : Bool := (raw >>> i) &&& 1 != 0

/-- `impl From<u32> for InterruptCauseRegister`. -/
def InterruptCauseRegister.ofRaw (raw : UInt32) : InterruptCauseRegister where
  txdw := bit raw 0
  txqe := bit raw 1
  lsc := bit raw 2
  rxdmt := bit raw 4
  dsw := bit raw 5
  rxo := bit raw 6
  rxt := bit raw 7
  txdLow := bit raw 15
  intAsserted := bit raw 31

/-- `if value { result |= 1 << i; }`. -/
def setBit (result : UInt32) (value : Bool) (i : UInt32) : UInt32 :=
  if value then result ||| (1 <<< i) else result

/-- `impl Into<u32> for InterruptCauseRegister`. -/
def InterruptCauseRegister.toRaw (r : InterruptCauseRegister) : UInt32 :=
  let result := 0
  let result := setBit result r.txdw 0
  let result := setBit result r.txqe 1
  let result := setBit result r.lsc 2
  let result := setBit result r.rxdmt 4
  let result := setBit result r.dsw 5
  let result := setBit result r.rxo 6
  let result := setBit result r.rxt 7
  let result := setBit result r.txdLow 15
  setBit result r.intAsserted 31

namespace InterruptCauseRegister

def default : InterruptCauseRegister where
  txdw := false
  txqe := false
  lsc := false
  rxdmt := false
  dsw := false
  rxo := false
  rxt := false
  txdLow := false
  intAsserted := false

def setTxdLow (r : InterruptCauseRegister) (value : Bool) : InterruptCauseRegister :=
  { r with txdLow := value }

def setAsserted (r : InterruptCauseRegister) (value : Bool) : InterruptCauseRegister :=
  { r with intAsserted := value }

end InterruptCauseRegister

/-- `CtrlRegister`. -/
structure CtrlRegister where
  fullDuplex : Bool
  masterDisable : Bool
  speedSelection : UInt8
  forceSpeed : Bool
  forceDuplex : Bool
  lanphypcOverride : Bool
  lanphypcValue : Bool
  lcdPowerDown : Bool
  hostToMeInterrupt : Bool
  hostSoftwareReset : Bool
  receiveFlowControlEnable : Bool
  transmitFlowControlEnable : Bool
  vlanModeEnable : Bool
  lanConnectedDeviceReset : Bool
  deriving DecidableEq, Repr

namespace CtrlRegister

/-- `impl From<u32> for CtrlRegister`. -/
def ofRaw (raw : UInt32) : CtrlRegister where
  fullDuplex := bit raw 0
  masterDisable := bit raw 2
  speedSelection := ((raw >>> 8) &&& 0b11).toUInt8
  forceSpeed := bit raw 11
  forceDuplex := bit raw 12
  lanphypcOverride := bit raw 16
  lanphypcValue := bit raw 17
  lcdPowerDown := bit raw 24
  hostToMeInterrupt := bit raw 25
  hostSoftwareReset := bit raw 26
  receiveFlowControlEnable := bit raw 27
  transmitFlowControlEnable := bit raw 28
  vlanModeEnable := bit raw 30
  lanConnectedDeviceReset := bit raw 31

/-- `impl Into<u32> for CtrlRegister`. -/
def toRaw (r : CtrlRegister) : UInt32 :=
  let result := 0
  let result := setBit result r.fullDuplex 0
  let result := setBit result r.masterDisable 2
  let result := result ||| (r.speedSelection.toUInt32 <<< 8)
  let result := setBit result r.forceSpeed 11
  let result := setBit result r.forceDuplex 12
  let result := setBit result r.lanphypcOverride 16
  let result := setBit result r.lanphypcValue 17
  let result := setBit result r.lcdPowerDown 24
  let result := setBit result r.hostToMeInterrupt 25
  let result := setBit result r.hostSoftwareReset 26
  let result := setBit result r.receiveFlowControlEnable 27
  let result := setBit result r.transmitFlowControlEnable 28
  let result := setBit result r.vlanModeEnable 30
  setBit result r.lanConnectedDeviceReset 31

def default : CtrlRegister where
  fullDuplex := true
  masterDisable := false
  speedSelection := 0b10
  forceSpeed := false
  forceDuplex := false
  lanphypcOverride := false
  lanphypcValue := false
  lcdPowerDown := false
  hostToMeInterrupt := false
  hostSoftwareReset := false
  receiveFlowControlEnable := false
  transmitFlowControlEnable := false
  vlanModeEnable := false
  lanConnectedDeviceReset := false

end CtrlRegister

/-- `IMaskRegister`. -/
structure IMaskRegister where
  txdw : Bool
  txqe : Bool
  lsc : Bool
  rxdmto : Bool
  dsw : Bool
  rxo : Bool
  rxto : Bool
  mdac : Bool
  phyint : Bool
  lsecpn : Bool
  txdLow : Bool
  deriving DecidableEq, Repr

namespace IMaskRegister

/-- `impl From<u32> for IMaskRegister`. -/
def ofRaw (raw : UInt32) : IMaskRegister where
  txdw := bit raw 0
  txqe := bit raw 1
  lsc := bit raw 2
  rxdmto := bit raw 4
  dsw := bit raw 5
  rxo := bit raw 6
  rxto := bit raw 7
  mdac := bit raw 9
  phyint := bit raw 12
  lsecpn := bit raw 14
  txdLow := bit raw 15

/-- `impl Into<u32> for IMaskRegister`. -/
def toRaw (r : IMaskRegister) : UInt32 :=
  let result := 0
  let result := setBit result r.txdw 0
  let result := setBit result r.txqe 1
  let result := setBit result r.lsc 2
  let result := setBit result r.rxdmto 4
  let result := setBit result r.dsw 5
  let result := setBit result r.rxo 6
  let result := setBit result r.rxto 7
  let result := setBit result r.mdac 9
  let result := setBit result r.phyint 12
  let result := setBit result r.lsecpn 14
  setBit result r.txdLow 15

def default : IMaskRegister where
  txdw := false
  txqe := false
  lsc := false
  rxdmto := false
  dsw := false
  rxo := false
  rxto := false
  mdac := false
  phyint := false
  lsecpn := false
  txdLow := false

def setTxdw (r : IMaskRegister) (value : Bool) : IMaskRegister := { r with txdw := value }

def setTxqe (r : IMaskRegister) (value : Bool) : IMaskRegister := { r with txqe := value }

def setLsc (r : IMaskRegister) (value : Bool) : IMaskRegister := { r with lsc := value }

def setRxdmto (r : IMaskRegister) (value : Bool) : IMaskRegister := { r with rxdmto := value }

def setDsw (r : IMaskRegister) (value : Bool) : IMaskRegister := { r with dsw := value }

def setRxo (r : IMaskRegister) (value : Bool) : IMaskRegister := { r with rxo := value }

def setRxto (r : IMaskRegister) (value : Bool) : IMaskRegister := { r with rxto := value }

def setMdac (r : IMaskRegister) (value : Bool) : IMaskRegister := { r with mdac := value }

def setPhyint (r : IMaskRegister) (value : Bool) : IMaskRegister := { r with phyint := value }

def setLsecpn (r : IMaskRegister) (value : Bool) : IMaskRegister := { r with lsecpn := value }

def setTxdLow (r : IMaskRegister) (value : Bool) : IMaskRegister := { r with txdLow := value }

end IMaskRegister

/-- The DD bit of a status it was set in. -/
theorem or_one_and_one (status : UInt8) : (status ||| 1) &&& 1 = 1 := by
  apply UInt8.toBitVec_inj.mp
  ext i hi
  simp
  exact Or.inr

end Rucoonos.E1000
