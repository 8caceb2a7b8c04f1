/-
Reading a register and writing it.

The words of the three registers are made of fields (`Bits.Codec`), all of one bit but
for the speed in the control register.  For each register the word is shown to be packed
from its fields in one direction, and the fields to be read from the word in the other;
the layout in between is one list, so the two tables of the source are compared with it
and not with each other.

The mask and the cause register share eight causes, two of them under different names.
`Cause` lists them, and `mask_bit_of_cause` says that both registers keep a cause in the
same bit.
-/
import Rucoonos.Device.Regs
import Rucoonos.Lib.Bits

namespace Rucoonos.E1000

open Bits

/-! ### Bits of a word -/

theorem toNat_setBit (result : UInt32) (value : Bool) {i : UInt32} (h : i.toNat < 32) :
    (setBit result value i).toNat = result.toNat ||| value.toNat * 2 ^ i.toNat := by
  cases value with
  | false => rw [setBit, if_neg Bool.false_ne_true, Bool.toNat_false, Nat.zero_mul, Nat.or_zero]
  | true =>
      have hpow : 2 ^ i.toNat < 2 ^ 32 := Nat.pow_lt_pow_right (by decide) h
      have hone : (1 : UInt32).toNat = 1 := rfl
      rw [setBit, if_pos rfl, UInt32.toNat_or, UInt32.toNat_shiftLeft, Nat.mod_eq_of_lt h, hone,
        Nat.shiftLeft_eq, Nat.one_mul, Nat.mod_eq_of_lt hpow, Bool.toNat_true, Nat.one_mul]

/-- The bits of a word from `i` on. -/
theorem toNat_shifted (raw mask : UInt32) {i : UInt32} (n : Nat) (h : i.toNat < 32)
    (hmask : mask.toNat = 2 ^ n - 1) :
    ((raw >>> i) &&& mask).toNat = (BitField.mk i.toNat n).get raw.toNat := by
  rw [UInt32.toNat_and, UInt32.toNat_shiftRight, Nat.mod_eq_of_lt h, hmask,
    Nat.and_two_pow_sub_one_eq_mod, Nat.shiftRight_eq_div_pow]
  rfl

theorem toNat_bit (raw : UInt32) {i : UInt32} (h : i.toNat < 32) :
    (bit raw i).toNat = (BitField.mk i.toNat 1).get raw.toNat := by
  have hbit : ((raw >>> i) &&& 1).toNat = _ := toNat_shifted raw 1 1 h rfl
  have hlt : (BitField.mk i.toNat 1).get raw.toNat < 2 := BitField.get_lt _ _
  rw [← hbit] at hlt ⊢
  by_cases hzero : (raw >>> i) &&& 1 = 0
  · rw [bit, hzero]
    rfl
  · have hne : ((raw >>> i) &&& 1).toNat ≠ 0 := fun hz => hzero (UInt32.toNat_inj.mp hz)
    have htrue : bit raw i = true := bne_iff_ne.mpr hzero
    rw [htrue, Bool.toNat_true]
    omega

theorem bit_eq_testBit (raw : UInt32) {i : UInt32} (h : i.toNat < 32) :
    bit raw i = raw.toNat.testBit i.toNat := by
  have hbit : (bit raw i).toNat = raw.toNat / 2 ^ i.toNat % 2 := toNat_bit raw h
  rw [Nat.testBit_eq_decide_div_mod_eq, ← hbit]
  cases bit raw i with
  | false => rfl
  | true => rfl

/-- A bit as the field of a layout. -/
theorem flag_bit (raw : UInt32) {n : Nat} {i : UInt32} (hi : i.toNat = n) (h : n < 32) :
    flag n (bit raw i) = (⟨n, 1⟩, (BitField.mk n 1).get raw.toNat) := by
  subst hi
  rw [flag, toNat_bit raw h]

/-! ### The fields of the registers -/

def CtrlRegister.fields (r : CtrlRegister) : List (BitField × Nat) :=
  [flag 0 r.fullDuplex, flag 2 r.masterDisable, (⟨8, 2⟩, r.speedSelection.toNat),
    flag 11 r.forceSpeed, flag 12 r.forceDuplex, flag 16 r.lanphypcOverride,
    flag 17 r.lanphypcValue, flag 24 r.lcdPowerDown, flag 25 r.hostToMeInterrupt,
    flag 26 r.hostSoftwareReset, flag 27 r.receiveFlowControlEnable,
    flag 28 r.transmitFlowControlEnable, flag 30 r.vlanModeEnable,
    flag 31 r.lanConnectedDeviceReset]

/-- The speed is or'ed in with no regard to its width. -/
theorem toNat_or_speed (result : UInt32) (speed : UInt8) :
    (result ||| (speed.toUInt32 <<< 8)).toNat = result.toNat ||| speed.toNat * 2 ^ 8 := by
  have hlt := speed.toNat_lt
  rw [UInt32.toNat_or, UInt32.toNat_shiftLeft, UInt8.toNat_toUInt32, Nat.shiftLeft_eq]
  congr 1
  exact Nat.mod_eq_of_lt (show speed.toNat * 2 ^ 8 < 2 ^ 32 by omega)

theorem toNat_speed (raw : UInt32) :
    ((raw >>> 8) &&& 0b11).toUInt8.toNat = (BitField.mk 8 2).get raw.toNat := by
  have hfield : ((raw >>> 8) &&& 0b11).toNat = (BitField.mk 8 2).get raw.toNat :=
    toNat_shifted raw 0b11 2 (by decide) rfl
  have hlt : (BitField.mk 8 2).get raw.toNat < 4 := BitField.get_lt _ _
  rw [UInt32.toNat_toUInt8, hfield]
  omega

def ctrlCodec : Codec UInt32 CtrlRegister UInt32.toNat where
  decode := CtrlRegister.ofRaw
  encode := CtrlRegister.toRaw
  layout := [⟨0, 1⟩, ⟨2, 1⟩, ⟨8, 2⟩, ⟨11, 1⟩, ⟨12, 1⟩, ⟨16, 1⟩, ⟨17, 1⟩, ⟨24, 1⟩, ⟨25, 1⟩,
    ⟨26, 1⟩, ⟨27, 1⟩, ⟨28, 1⟩, ⟨30, 1⟩, ⟨31, 1⟩]
  fields := CtrlRegister.fields
  fields_injective := by
    rintro ⟨⟩ ⟨⟩ h
    simpa [CtrlRegister.fields, UInt8.toNat_inj] using h
  fields_layout _ := rfl
  apart := by decide
  toNat_encode r := by
    simp (disch := decide) only [CtrlRegister.toRaw, toNat_setBit, toNat_or_speed]
    rfl
  fields_decode raw := by
    simp (disch := decide) only [CtrlRegister.fields, CtrlRegister.ofRaw, flag_bit, toNat_speed]
    rfl

def IMaskRegister.fields (r : IMaskRegister) : List (BitField × Nat) :=
  [flag 0 r.txdw, flag 1 r.txqe, flag 2 r.lsc, flag 4 r.rxdmto, flag 5 r.dsw, flag 6 r.rxo,
    flag 7 r.rxto, flag 9 r.mdac, flag 12 r.phyint, flag 14 r.lsecpn, flag 15 r.txdLow]

def imaskCodec : Codec UInt32 IMaskRegister UInt32.toNat where
  decode := IMaskRegister.ofRaw
  encode := IMaskRegister.toRaw
  layout := [0, 1, 2, 4, 5, 6, 7, 9, 12, 14, 15].map fun i => ⟨i, 1⟩
  fields := IMaskRegister.fields
  fields_injective := by
    rintro ⟨⟩ ⟨⟩ h
    simpa [IMaskRegister.fields] using h
  fields_layout _ := rfl
  apart := by decide
  toNat_encode r := by
    simp (disch := decide) only [IMaskRegister.toRaw, toNat_setBit]
    rfl
  fields_decode raw := by
    simp (disch := decide) only [IMaskRegister.fields, IMaskRegister.ofRaw, flag_bit]
    rfl

def InterruptCauseRegister.fields (r : InterruptCauseRegister) : List (BitField × Nat) :=
  [flag 0 r.txdw, flag 1 r.txqe, flag 2 r.lsc, flag 4 r.rxdmt, flag 5 r.dsw, flag 6 r.rxo,
    flag 7 r.rxt, flag 15 r.txdLow, flag 31 r.intAsserted]

def causeCodec : Codec UInt32 InterruptCauseRegister UInt32.toNat where
  decode := InterruptCauseRegister.ofRaw
  encode := InterruptCauseRegister.toRaw
  layout := [0, 1, 2, 4, 5, 6, 7, 15, 31].map fun i => ⟨i, 1⟩
  fields := InterruptCauseRegister.fields
  fields_injective := by
    rintro ⟨⟩ ⟨⟩ h
    simpa [InterruptCauseRegister.fields] using h
  fields_layout _ := rfl
  apart := by decide
  toNat_encode r := by
    simp (disch := decide) only [InterruptCauseRegister.toRaw, toNat_setBit]
    rfl
  fields_decode raw := by
    simp (disch := decide) only [InterruptCauseRegister.fields, InterruptCauseRegister.ofRaw,
      flag_bit]
    rfl

/-! ### There and back -/

/-- What is read is written back, but for the bits that are not defined; what is written is
read back; and reading depends on the defined bits and on all of them. -/
structure Codes {α : Type} (ofRaw : UInt32 → α) (toRaw : α → UInt32) (defined : UInt32)
    (Proper : α → Prop) : Prop where
  encode_decode : ∀ raw, toRaw (ofRaw raw) = raw &&& defined
  decode_encode : ∀ r, Proper r → ofRaw (toRaw r) = r
  depends : ∀ a b, ofRaw a = ofRaw b ↔ a &&& defined = b &&& defined

theorem codes_of_codec {α : Type} (c : Codec UInt32 α UInt32.toNat) {defined : UInt32}
    (hmask : maskOf 0 c.layout = defined.toNat) {Proper : α → Prop}
    (hfits : ∀ r, Proper r → Fits (c.fields r)) : Codes c.decode c.encode defined Proper := by
  have hand : ∀ raw : UInt32, raw.toNat &&& maskOf 0 c.layout = (raw &&& defined).toNat :=
    fun raw => by rw [hmask, UInt32.toNat_and]
  refine ⟨fun raw => ?_, fun r hr => c.decode_encode (hfits r hr), fun a b => ?_⟩
  · rw [← UInt32.toNat_inj, c.encode_decode, hand]
  · rw [c.decode_eq_iff fun _ _ => UInt32.toNat_inj.mp, hand, hand, UInt32.toNat_inj]

theorem ctrl_codes :
    Codes CtrlRegister.ofRaw CtrlRegister.toRaw 0xdf031b05 (·.speedSelection < 4) := by
  refine codes_of_codec ctrlCodec rfl fun r hspeed => ?_
  have hfits : r.speedSelection.toNat < 4 := UInt8.lt_iff_toNat_lt.mp hspeed
  simp [Fits, ctrlCodec, CtrlRegister.fields, hfits]

theorem imask_codes :
    Codes IMaskRegister.ofRaw IMaskRegister.toRaw 0x0000d2f7 (fun _ => True) := by
  refine codes_of_codec imaskCodec rfl fun r _ => ?_
  simp [Fits, imaskCodec, IMaskRegister.fields]

theorem cause_codes :
    Codes InterruptCauseRegister.ofRaw InterruptCauseRegister.toRaw 0x800080f7
      (fun _ => True) := by
  refine codes_of_codec causeCodec rfl fun r _ => ?_
  simp [Fits, causeCodec, InterruptCauseRegister.fields]

/-! ### The causes in both registers -/

/-- The setters of the mask register. -/
inductive Setter
  | txdw | txqe | lsc | rxdmto | dsw | rxo | rxto | mdac | phyint | lsecpn | txdLow
  deriving DecidableEq, Repr

def IMaskRegister.call (r : IMaskRegister) (value : Bool) : Setter → IMaskRegister
  | .txdw => r.setTxdw value
  | .txqe => r.setTxqe value
  | .lsc => r.setLsc value
  | .rxdmto => r.setRxdmto value
  | .dsw => r.setDsw value
  | .rxo => r.setRxo value
  | .rxto => r.setRxto value
  | .mdac => r.setMdac value
  | .phyint => r.setPhyint value
  | .lsecpn => r.setLsecpn value
  | .txdLow => r.setTxdLow value

/-- One call of a setter after the other. -/
def IMaskRegister.calls (r : IMaskRegister) (cs : List (Setter × Bool)) : IMaskRegister :=
  cs.foldl (fun r c => r.call c.2 c.1) r

def IMaskRegister.enables (r : IMaskRegister) : Setter → Bool
  | .txdw => r.txdw
  | .txqe => r.txqe
  | .lsc => r.lsc
  | .rxdmto => r.rxdmto
  | .dsw => r.dsw
  | .rxo => r.rxo
  | .rxto => r.rxto
  | .mdac => r.mdac
  | .phyint => r.phyint
  | .lsecpn => r.lsecpn
  | .txdLow => r.txdLow

/-- The value of the last call of a setter, and `on` if there is none. -/
def lastValue (s : Setter) (on : Bool) (cs : List (Setter × Bool)) : Bool :=
  cs.foldl (fun on c => if c.1 = s then c.2 else on) on

/-- The causes that both registers name. -/
inductive Cause
  | txdw | txqe | lsc | rxdmt | dsw | rxo | rxt | txdLow
  deriving DecidableEq, Repr

def Cause.setter : Cause → Setter
  | .txdw => .txdw
  | .txqe => .txqe
  | .lsc => .lsc
  | .rxdmt => .rxdmto
  | .dsw => .dsw
  | .rxo => .rxo
  | .rxt => .rxto
  | .txdLow => .txdLow

def InterruptCauseRegister.names (r : InterruptCauseRegister) : Cause → Bool
  | .txdw => r.txdw
  | .txqe => r.txqe
  | .lsc => r.lsc
  | .rxdmt => r.rxdmt
  | .dsw => r.dsw
  | .rxo => r.rxo
  | .rxt => r.rxt
  | .txdLow => r.txdLow

theorem enables_call (r : IMaskRegister) (value : Bool) (t s : Setter) :
    (r.call value t).enables s = if t = s then value else r.enables s := by
  cases t <;> cases s <;> rfl

theorem enables_calls (s : Setter) (cs : List (Setter × Bool)) (r : IMaskRegister) :
    (r.calls cs).enables s = lastValue s (r.enables s) cs := by
  induction cs generalizing r with
  | nil => rfl
  | cons c rest ih =>
      have hstep : r.calls (c :: rest) = (r.call c.2 c.1).calls rest := rfl
      rw [hstep, ih, enables_call]
      rfl

/-- Both registers read a cause from the same bit. -/
theorem bit_of_cause (c : Cause) : ∃ i : UInt32, i.toNat < 32 ∧
    (∀ raw, (InterruptCauseRegister.ofRaw raw).names c = bit raw i) ∧
      ∀ raw, (IMaskRegister.ofRaw raw).enables c.setter = bit raw i := by
  cases c with
  | txdw => exact ⟨0, by decide, fun _ => rfl, fun _ => rfl⟩
  | txqe => exact ⟨1, by decide, fun _ => rfl, fun _ => rfl⟩
  | lsc => exact ⟨2, by decide, fun _ => rfl, fun _ => rfl⟩
  | rxdmt => exact ⟨4, by decide, fun _ => rfl, fun _ => rfl⟩
  | dsw => exact ⟨5, by decide, fun _ => rfl, fun _ => rfl⟩
  | rxo => exact ⟨6, by decide, fun _ => rfl, fun _ => rfl⟩
  | rxt => exact ⟨7, by decide, fun _ => rfl, fun _ => rfl⟩
  | txdLow => exact ⟨15, by decide, fun _ => rfl, fun _ => rfl⟩

/-- A cause is written to the bit of the mask from which it is read in the cause register. -/
theorem mask_bit_of_cause (c : Cause) : ∃ i, i < 32 ∧
    (∀ raw, (InterruptCauseRegister.ofRaw raw).names c = raw.toNat.testBit i) ∧
      ∀ cs, (IMaskRegister.default.calls cs).toRaw.toNat.testBit i
        = lastValue c.setter false cs := by
  obtain ⟨i, hi, hcause, hmask⟩ := bit_of_cause c
  refine ⟨i.toNat, hi, fun raw => ?_, fun cs => ?_⟩
  · rw [hcause, bit_eq_testBit raw hi]
  · have hdefault : IMaskRegister.default.enables c.setter = false := by
      cases c <;> rfl
    rw [← bit_eq_testBit _ hi, ← hmask, imask_codes.decode_encode _ trivial, enables_calls,
      hdefault]

/--
**The registers of the card.**  For the control register, the mask register and the cause
register: every word that is read and written back is the word under the mask of the
defined bits, every register value (with a speed below 4) that is written and read is what
it was, and reading depends on exactly the defined bits.  Whichever setters of the mask
register are called, the bit of a cause in the word that is written is the bit from which
the cause register reads that cause.
-/
theorem register_codecs :
    Codes CtrlRegister.ofRaw CtrlRegister.toRaw 0xdf031b05 (·.speedSelection < 4) ∧
      Codes IMaskRegister.ofRaw IMaskRegister.toRaw 0x0000d2f7 (fun _ => True) ∧
      Codes InterruptCauseRegister.ofRaw InterruptCauseRegister.toRaw 0x800080f7
        (fun _ => True) ∧
      ∀ c : Cause, ∃ i, i < 32 ∧
        (∀ raw, (InterruptCauseRegister.ofRaw raw).names c = raw.toNat.testBit i) ∧
        ∀ cs, (IMaskRegister.default.calls cs).toRaw.toNat.testBit i
          = lastValue c.setter false cs :=
  ⟨ctrl_codes, imask_codes, cause_codes, mask_bit_of_cause⟩

/-- The default of the control register, and the calls of `enable_interrupts`, which let the
interrupt through that the sender raises. -/
theorem register_codecs_enable_interrupts :
    CtrlRegister.default.speedSelection < 4 ∧
      CtrlRegister.ofRaw CtrlRegister.default.toRaw = CtrlRegister.default ∧
      ∃ i, (∀ raw, (InterruptCauseRegister.ofRaw raw).names .txdLow = raw.toNat.testBit i) ∧
        (IMaskRegister.default.calls [(.txdw, true), (.txqe, false), (.lsc, true),
          (.rxdmto, false), (.rxo, false), (.rxto, true), (.txdLow, true)]).toRaw.toNat.testBit i
            = true := by
  obtain ⟨hctrl, -, -, hcauses⟩ := register_codecs
  have hspeed : CtrlRegister.default.speedSelection < 4 := by decide
  obtain ⟨i, -, hcause, hmask⟩ := hcauses .txdLow
  exact ⟨hspeed, hctrl.decode_encode _ hspeed, i, hcause, hmask _⟩

end Rucoonos.E1000
