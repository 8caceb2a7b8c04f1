/-
Reading the PCI bus.

The address of a register is a sum of its fields (`toNat_address`), so for a device
number below 32 the port decodes the fields it was packed from: a read returns the four
bytes of the function at that offset, and different registers have different addresses.

On top of that, `loadDevice_eq` says what the code makes of the bytes, and `Describes`
what a device should say about them.  They differ in two places.  The header type is
compared with its multi-function bit, and the prefetchable bit of a memory BAR is
compared with 1 although it stands in bit 3.

`bruteforce` looks at the buses below 255 only.
-/
import Rucoonos.Hardware.Pci
import Rucoonos.Lib.Bits

namespace Rucoonos.Pci

open Slice Bits

variable {space : ConfigSpace} {bus slot func offset : UInt8}

/-! ### Addresses -/

/-- A byte shifted to a place where it fits. -/
theorem toNat_field (b : UInt8) {shift : UInt32} (h : shift.toNat ≤ 24) :
    (b.toUInt32 <<< shift).toNat = b.toNat * 2 ^ shift.toNat := by
  have hlt : b.toNat * 2 ^ shift.toNat < 2 ^ 8 * 2 ^ 24 :=
    Nat.mul_lt_mul_of_lt_of_le b.toNat_lt (Nat.pow_le_pow_right (by decide) h) (by decide)
  rw [UInt32.toNat_shiftLeft, UInt8.toNat_toUInt32, Nat.shiftLeft_eq,
    Nat.mod_eq_of_lt (a := shift.toNat) (by omega), Nat.mod_eq_of_lt (by omega)]

/-- The byte at a shift. -/
theorem toNat_byteAt (v : UInt32) {shift : UInt32} (h : shift.toNat < 32) :
    (v >>> shift).toUInt8.toNat = v.toNat / 2 ^ shift.toNat % 2 ^ 8 := by
  rw [UInt32.toNat_toUInt8, UInt32.toNat_shiftRight, Nat.mod_eq_of_lt h,
    Nat.shiftRight_eq_div_pow]

/-- An offset rounded down to its register. -/
theorem toNat_masked (o : UInt8) : (o &&& 0xfc).toNat = o.toNat / 4 % 64 * 4 := by
  rw [UInt8.toNat_and]
  exact and_field o.toNat 2 6

theorem toNat_address (hslot : slot.toNat < 32) (hfunc : func.toNat < 8) :
    (address bus slot func offset).toNat
      = 2 ^ 31 + bus.toNat * 2 ^ 16 + slot.toNat * 2 ^ 11 + func.toNat * 2 ^ 8
        + offset.toNat / 4 % 64 * 4 := by
  have hbus := bus.toNat_lt
  have hoff : (offset.toUInt32 &&& 0xFC).toNat = offset.toNat / 4 % 64 * 4 := by
    rw [UInt32.toNat_and, UInt8.toNat_toUInt32]
    exact and_field offset.toNat 2 6
  -- Each field is put behind the ones before it, and bit 31 in front of them all.
  have hslot' : bus.toNat * 2 ^ 16 ||| slot.toNat * 2 ^ 11
      = (bus.toNat * 32 + slot.toNat) * 2 ^ 11 := by
    rw [or_low (n := bus.toNat) (k := 16) rfl (by omega)]
    omega
  have hfunc' : (bus.toNat * 32 + slot.toNat) * 2 ^ 11 ||| func.toNat * 2 ^ 8
      = ((bus.toNat * 32 + slot.toNat) * 8 + func.toNat) * 2 ^ 8 := by
    rw [or_low rfl (by omega)]
    omega
  rw [address, UInt32.toNat_or, UInt32.toNat_or, UInt32.toNat_or, UInt32.toNat_or, hoff,
    toNat_field bus (by decide), toNat_field slot (by decide), toNat_field func (by decide)]
  show bus.toNat * 2 ^ 16 ||| slot.toNat * 2 ^ 11 ||| func.toNat * 2 ^ 8 ||| _ ||| 1 * 2 ^ 31 = _
  rw [hslot', hfunc', or_low rfl (by omega), Nat.or_comm,
    or_low rfl (by omega)]
  omega

/-- Different registers of different functions have different addresses. -/
theorem address_injective {bus' slot' func' offset' : UInt8} (hslot : slot.toNat < 32)
    (hslot' : slot'.toNat < 32) (hfunc : func.toNat < 8) (hfunc' : func'.toNat < 8)
    (h : address bus slot func offset = address bus' slot' func' offset') :
    bus = bus' ∧ slot = slot' ∧ func = func' ∧ offset &&& 0xfc = offset' &&& 0xfc := by
  have hnat := congrArg UInt32.toNat h
  rw [toNat_address hslot hfunc, toNat_address hslot' hfunc'] at hnat
  refine ⟨UInt8.toNat_inj.mp (by omega), UInt8.toNat_inj.mp (by omega),
    UInt8.toNat_inj.mp (by omega), UInt8.toNat_inj.mp ?_⟩
  rw [toNat_masked, toNat_masked]
  omega

/-- A read returns the four bytes of the register, the lowest one first. -/
theorem read32bit_eq (hslot : slot.toNat < 32) (hfunc : func.toNat < 8) :
    read32bit space bus slot func offset =
      dword (space bus slot func (offset &&& 0xfc)) (space bus slot func ((offset &&& 0xfc) + 1))
        (space bus slot func ((offset &&& 0xfc) + 2))
        (space bus slot func ((offset &&& 0xfc) + 3)) := by
  have haddr : (address bus slot func offset).toNat = _ := toNat_address hslot hfunc
  have hbus := bus.toNat_lt
  rw [read32bit]
  generalize address bus slot func offset = a at haddr
  have henable : ¬ a &&& 0x80000000 = 0 := by
    intro h
    have hbit := and_field a.toNat 31 1
    have hzero := congrArg UInt32.toNat h
    rw [UInt32.toNat_and] at hzero
    change a.toNat &&& ((2 ^ 1 - 1) * 2 ^ 31) = 0 at hzero
    omega
  have hb : (a >>> 16).toUInt8 = bus := by
    refine UInt8.toNat_inj.mp ?_
    rw [toNat_byteAt a (by decide)]
    show a.toNat / 2 ^ 16 % 2 ^ 8 = _
    omega
  have hs : (a >>> 11).toUInt8 &&& 0x1f = slot := by
    refine UInt8.toNat_inj.mp ?_
    rw [UInt8.toNat_and, toNat_byteAt a (by decide)]
    show a.toNat / 2 ^ 11 % 2 ^ 8 &&& (2 ^ 5 - 1) = _
    rw [Nat.and_two_pow_sub_one_eq_mod]
    omega
  have hf : (a >>> 8).toUInt8 &&& 0x07 = func := by
    refine UInt8.toNat_inj.mp ?_
    rw [UInt8.toNat_and, toNat_byteAt a (by decide)]
    show a.toNat / 2 ^ 8 % 2 ^ 8 &&& (2 ^ 3 - 1) = _
    rw [Nat.and_two_pow_sub_one_eq_mod]
    omega
  have ho : a.toUInt8 &&& 0xfc = offset &&& 0xfc := by
    refine UInt8.toNat_inj.mp ?_
    rw [toNat_masked, toNat_masked, UInt32.toNat_toUInt8]
    omega
  rw [configData, if_neg henable, hb, hs, hf, ho]

/-! ### Taking a double word apart -/

/-- Two bytes, the lower one first. -/
def word (b₀ b₁ : UInt8) : UInt16 := UInt16.ofNat (b₀.toNat + 2 ^ 8 * b₁.toNat)

theorem toUInt8_masked (v : UInt32) : (v &&& 0x000000ff).toUInt8 = v.toUInt8 := by
  refine UInt8.toNat_inj.mp ?_
  rw [UInt32.toNat_toUInt8, UInt32.toNat_toUInt8, UInt32.toNat_and]
  show (v.toNat &&& (2 ^ 8 - 1)) % 2 ^ 8 = _
  rw [Nat.and_two_pow_sub_one_eq_mod, Nat.mod_mod]

theorem toUInt16_masked (v : UInt32) : (v &&& 0x0000ffff).toUInt16 = v.toUInt16 := by
  refine UInt16.toNat_inj.mp ?_
  rw [UInt32.toNat_toUInt16, UInt32.toNat_toUInt16, UInt32.toNat_and]
  show (v.toNat &&& (2 ^ 16 - 1)) % 2 ^ 16 = _
  rw [Nat.and_two_pow_sub_one_eq_mod, Nat.mod_mod]

section Parts

variable (b₀ b₁ b₂ b₃ : UInt8)

theorem toNat_dword : (dword b₀ b₁ b₂ b₃).toNat
    = b₀.toNat + 2 ^ 8 * b₁.toNat + 2 ^ 16 * b₂.toNat + 2 ^ 24 * b₃.toNat := by
  have h₀ := b₀.toNat_lt
  have h₁ := b₁.toNat_lt
  have h₂ := b₂.toNat_lt
  have h₃ := b₃.toNat_lt
  exact UInt32.toNat_ofNat_of_lt (by simp only [UInt32.size]; omega)

theorem toNat_word : (word b₀ b₁).toNat = b₀.toNat + 2 ^ 8 * b₁.toNat := by
  have h₀ := b₀.toNat_lt
  have h₁ := b₁.toNat_lt
  exact UInt16.toNat_ofNat_of_lt (by simp only [UInt16.size]; omega)

theorem dword_byte₀ : (dword b₀ b₁ b₂ b₃).toUInt8 = b₀ := by
  refine UInt8.toNat_inj.mp ?_
  have h₀ := b₀.toNat_lt
  rw [UInt32.toNat_toUInt8, toNat_dword]
  omega

theorem dword_byte₁ : (dword b₀ b₁ b₂ b₃ >>> 8).toUInt8 = b₁ := by
  refine UInt8.toNat_inj.mp ?_
  have h₀ := b₀.toNat_lt
  have h₁ := b₁.toNat_lt
  rw [toNat_byteAt _ (by decide), toNat_dword]
  show _ / 2 ^ 8 % 2 ^ 8 = _
  omega

theorem dword_byte₂ : (dword b₀ b₁ b₂ b₃ >>> 16).toUInt8 = b₂ := by
  refine UInt8.toNat_inj.mp ?_
  have h₀ := b₀.toNat_lt
  have h₁ := b₁.toNat_lt
  have h₂ := b₂.toNat_lt
  rw [toNat_byteAt _ (by decide), toNat_dword]
  show _ / 2 ^ 16 % 2 ^ 8 = _
  omega

theorem dword_byte₃ : (dword b₀ b₁ b₂ b₃ >>> 24).toUInt8 = b₃ := by
  refine UInt8.toNat_inj.mp ?_
  have h₀ := b₀.toNat_lt
  have h₁ := b₁.toNat_lt
  have h₂ := b₂.toNat_lt
  have h₃ := b₃.toNat_lt
  rw [toNat_byteAt _ (by decide), toNat_dword]
  show _ / 2 ^ 24 % 2 ^ 8 = _
  omega

theorem dword_low : (dword b₀ b₁ b₂ b₃).toUInt16 = word b₀ b₁ := by
  refine UInt16.toNat_inj.mp ?_
  have h₀ := b₀.toNat_lt
  have h₁ := b₁.toNat_lt
  rw [UInt32.toNat_toUInt16, toNat_dword, toNat_word]
  omega

theorem dword_high : (dword b₀ b₁ b₂ b₃ >>> 16).toUInt16 = word b₂ b₃ := by
  refine UInt16.toNat_inj.mp ?_
  have h₀ := b₀.toNat_lt
  have h₁ := b₁.toNat_lt
  have h₂ := b₂.toNat_lt
  have h₃ := b₃.toNat_lt
  rw [UInt32.toNat_toUInt16, UInt32.toNat_shiftRight, Nat.shiftRight_eq_div_pow, toNat_dword,
    toNat_word]
  show _ / 2 ^ 16 % 2 ^ 16 = _
  omega

end Parts

/-! ### Base address registers -/

/-- What a base address register says, by bit 0 of its value. -/
def BaseAddressRegister.Decodes (raw : UInt32) : BaseAddressRegister → Prop
  | .ioSpace address => raw.toNat % 2 = 1 ∧ address.toNat = raw.toNat - raw.toNat % 4
  | .memorySpace address prefetchable ty =>
      raw.toNat % 2 = 0 ∧ address.toNat = raw.toNat - raw.toNat % 16 ∧
        (prefetchable = true ↔ raw.toNat / 8 % 2 = 1) ∧ ty.toNat = raw.toNat / 2 % 4 * 2

/-- Bit 0 is set, or bit 3 is clear. -/
def NotPrefetchable (raw : UInt32) : Prop := raw.toNat % 2 = 1 ∨ raw.toNat / 8 % 2 = 0

instance instDecidableNotPrefetchable (raw : UInt32) : Decidable (NotPrefetchable raw) :=
  inferInstanceAs (Decidable (_ ∨ _))

/-- What the code makes of a value. -/
def BaseAddressRegister.made (raw : UInt32) : BaseAddressRegister :=
  if raw &&& 0x1 = 0 then
    .memorySpace (raw &&& 0xfffffff0) false (raw &&& 0b110).toUInt8
  else .ioSpace (raw &&& 0xfffffffc)

theorem toNat_bit₀ (raw : UInt32) : (raw &&& 0x1).toNat = raw.toNat % 2 := by
  rw [UInt32.toNat_and]
  exact Nat.and_two_pow_sub_one_eq_mod raw.toNat 1

/-- Masked with bit 3, a value is 0 or 8 and never 1. -/
theorem bit₃_ne_one (raw : UInt32) : ((raw &&& 0b1000) == 1) = false := by
  rw [beq_eq_false_iff_ne]
  intro hone
  have hnat := congrArg UInt32.toNat hone
  rw [UInt32.toNat_and] at hnat
  change raw.toNat &&& ((2 ^ 1 - 1) * 2 ^ 3) = 1 at hnat
  rw [and_field] at hnat
  omega

theorem BaseAddressRegister.ofU32_eq (raw : UInt32) : ofU32 raw = .ok (made raw) := by
  rw [ofU32, made, bit₃_ne_one]
  by_cases h : raw &&& 0x1 = 0
  · rw [if_pos h, if_pos h]
  · have hone : raw &&& 0x1 = 1 := by
      refine UInt32.toNat_inj.mp ?_
      have hne : (raw &&& 0x1).toNat ≠ 0 := fun hz => h (UInt32.toNat_inj.mp hz)
      rw [toNat_bit₀] at hne ⊢
      show raw.toNat % 2 = 1
      omega
    rw [if_neg h, if_neg h, if_pos hone]

/-- It is the right register, unless the value says prefetchable memory. -/
theorem BaseAddressRegister.made_decodes (raw : UInt32) :
    (made raw).Decodes raw ↔ NotPrefetchable raw := by
  have hlt := raw.toNat_lt
  have hbit := toNat_bit₀ raw
  unfold made
  split
  · rename_i h
    have heven : raw.toNat % 2 = 0 := by
      rw [← hbit, h]
      rfl
    have haddress : (raw &&& 0xfffffff0).toNat = raw.toNat - raw.toNat % 16 := by
      rw [UInt32.toNat_and]
      refine (and_field raw.toNat 4 28).trans ?_
      omega
    have hty : (raw &&& 0b110).toUInt8.toNat = raw.toNat / 2 % 4 * 2 := by
      rw [UInt32.toNat_toUInt8, UInt32.toNat_and]
      refine (congrArg (· % 2 ^ 8) (and_field raw.toNat 1 2)).trans ?_
      show raw.toNat / 2 ^ 1 % 2 ^ 2 * 2 ^ 1 % 2 ^ 8 = _
      omega
    simp only [Decodes, NotPrefetchable, haddress, hty, heven, true_and, and_true,
      Bool.false_eq_true, false_iff]
    omega
  · rename_i h
    have hodd : raw.toNat % 2 = 1 := by
      have hne : (raw &&& 0x1).toNat ≠ 0 := fun hz => h (UInt32.toNat_inj.mp hz)
      omega
    have haddress : (raw &&& 0xfffffffc).toNat = raw.toNat - raw.toNat % 4 := by
      rw [UInt32.toNat_and]
      refine (and_field raw.toNat 2 30).trans ?_
      omega
    simp only [Decodes, NotPrefetchable, haddress, hodd, true_and, true_or]

/-! ### The header of a device -/

section Header

variable (space : ConfigSpace) (bus slot : UInt8)

/-- A byte, a word and a double word of function 0. -/
def byteAt (offset : UInt8) : UInt8 := space bus slot 0 offset

def wordAt (offset : UInt8) : UInt16 :=
  word (byteAt space bus slot offset) (byteAt space bus slot (offset + 1))

def dwordAt (offset : UInt8) : UInt32 :=
  dword (byteAt space bus slot offset) (byteAt space bus slot (offset + 1))
    (byteAt space bus slot (offset + 2)) (byteAt space bus slot (offset + 3))

def vendorAt : UInt16 := wordAt space bus slot 0x0

def headerTypeAt : UInt8 := byteAt space bus slot 0xe

/-- The value of base address register `i`. -/
def barAt (i : Fin 6) : UInt32 := dwordAt space bus slot (UInt8.ofNat (0x10 + 4 * i))

/-- The two bytes that a class was made from. -/
def DeviceClass.bytes : DeviceClass → UInt8 × UInt8
  | .networkController .ethernet => (0x2, 0x0)
  | .networkController (.unknown subclass) => (0x2, subclass)
  | .displayController .vgaCompatible => (0x3, 0x0)
  | .displayController (.unknown subclass) => (0x3, subclass)
  | .unknown baseclass subclass => (baseclass, subclass)

/-- The rest of the header, by its layout: the header type without its multi-function bit. -/
def HeaderType.Describes : HeaderType → Prop
  | .generic baseAddresses cardbusCisPointer interruptLine =>
      headerTypeAt space bus slot &&& 0x7f = 0 ∧
        (∀ i : Fin 6, (baseAddresses.get i).Decodes (barAt space bus slot i)) ∧
        cardbusCisPointer = dwordAt space bus slot 0x28 ∧
        interruptLine = byteAt space bus slot 0x3c
  | .unknown _ => headerTypeAt space bus slot &&& 0x7f ≠ 0

/-- What the fields of a device should be: the bytes at their offsets. -/
structure Device.Describes (d : Device) : Prop where
  location : (d.bus, d.slot, d.func) = (bus, slot, 0)
  vendorId : d.generic.vendorId = wordAt space bus slot 0x0
  id : d.generic.id = wordAt space bus slot 0x2
  command : d.generic.command = wordAt space bus slot 0x4
  status : d.generic.status = wordAt space bus slot 0x6
  revisionId : d.generic.revisionId = byteAt space bus slot 0x8
  deviceClass : d.generic.deviceClass.bytes = (byteAt space bus slot 0xb, byteAt space bus slot 0xa)
  cacheLineSize : d.generic.cacheLineSize = byteAt space bus slot 0xc
  latencyTimer : d.generic.latencyTimer = byteAt space bus slot 0xd
  bist : d.generic.bist = byteAt space bus slot 0xf
  headerType : d.headerType.Describes space bus slot

end Header

theorem DeviceClass.bytes_ofBytes (baseclass subclass : UInt8) :
    (ofBytes baseclass subclass).bytes = (baseclass, subclass) := by
  unfold ofBytes
  split
  · rename_i hbase
    split
    · rename_i hsub
      rw [hbase, hsub, bytes]
    · rw [hbase, bytes]
  · split
    · rename_i hbase
      split
      · rename_i hsub
        rw [hbase, hsub, bytes]
      · rw [hbase, bytes]
    · rfl

/-- A register whose offset is a multiple of four. -/
theorem read32bit_aligned (hslot : slot.toNat < 32) (h : offset &&& 0xfc = offset) :
    read32bit space bus slot 0 offset = dwordAt space bus slot offset := by
  rw [read32bit_eq hslot (by decide), h]
  rfl

theorem dwordAt_byte₀ : (dwordAt space bus slot offset).toUInt8 = byteAt space bus slot offset :=
  dword_byte₀ _ _ _ _

theorem readWord_low (hslot : slot.toNat < 32) :
    readWord space bus slot 0 0x0 = vendorAt space bus slot := by
  have hread : read32bit space bus slot 0 0x0 = _ := read32bit_aligned hslot (by decide)
  rw [read32bit] at hread
  rw [readWord]
  simp only [hread]
  rw [show ((0x0 : UInt8).toUInt32 &&& 2) * 8 = 0 from rfl, UInt32.shiftRight_zero, toUInt16_masked]
  exact dword_low _ _ _ _

theorem readWord_high (hslot : slot.toNat < 32) :
    readWord space bus slot 0 0x2 = wordAt space bus slot 0x2 := by
  have hread : read32bit space bus slot 0 0x2 = _ := read32bit_eq hslot (by decide)
  rw [read32bit] at hread
  rw [readWord]
  simp only [hread]
  rw [show ((0x2 : UInt8).toUInt32 &&& 2) * 8 = 16 from rfl, toUInt16_masked]
  exact dword_high _ _ _ _

/-- The header that the code makes of the bytes. -/
def madeHeaderType (space : ConfigSpace) (bus slot : UInt8) : HeaderType :=
  if headerTypeAt space bus slot = 0x00 then
    .generic (Vector.ofFn fun i => BaseAddressRegister.made (barAt space bus slot i))
      (dwordAt space bus slot 0x28) (byteAt space bus slot 0x3c)
  else .unknown (headerTypeAt space bus slot)

theorem loadHeaderType_eq (hslot : slot.toNat < 32) :
    loadHeaderType space bus slot 0 (headerTypeAt space bus slot)
      = .ok (madeHeaderType space bus slot) := by
  unfold loadHeaderType madeHeaderType
  split
  · simp (disch := decide) only [read32bit_aligned hslot, BaseAddressRegister.ofU32_eq, ok_bind,
      pure_eq_ok, toUInt8_masked]
    rw [dwordAt_byte₀]
    rfl
  · rfl

theorem layout_eq_zero {ty : UInt8} (h : ¬ ty = 0x00) : ty &&& 0x7f = 0 ↔ ty = 0x80 := by
  have hlt := ty.toNat_lt
  have hne : ty.toNat ≠ 0 := fun hz => h (UInt8.toNat_inj.mp hz)
  have hmask : (ty &&& 0x7f).toNat = ty.toNat % 2 ^ 7 := by
    rw [UInt8.toNat_and]
    exact Nat.and_two_pow_sub_one_eq_mod ty.toNat 7
  rw [← UInt8.toNat_inj, ← UInt8.toNat_inj, hmask]
  show ty.toNat % 2 ^ 7 = 0 ↔ ty.toNat = 128
  omega

/-- It is right but for a set multi-function bit and a prefetchable base address. -/
theorem madeHeaderType_describes :
    (madeHeaderType space bus slot).Describes space bus slot ↔
      headerTypeAt space bus slot ≠ 0x80 ∧ (headerTypeAt space bus slot = 0 →
        ∀ i, NotPrefetchable (barAt space bus slot i)) := by
  unfold madeHeaderType
  split
  · rename_i hzero
    have hbars : ∀ i : Fin 6,
        (Vector.ofFn fun i => BaseAddressRegister.made (barAt space bus slot i)).get i
          = .made (barAt space bus slot i) := fun i => Vector.getElem_ofFn i.isLt
    simp only [HeaderType.Describes, hzero, hbars, BaseAddressRegister.made_decodes, and_true,
      true_implies]
    exact ⟨fun h => ⟨by decide, h.2⟩, fun h => ⟨by decide, h.2⟩⟩
  · rename_i hne
    simp only [HeaderType.Describes, ne_eq, layout_eq_zero hne, hne, false_implies, and_true]

/-! ### Loading a device -/

/-- The device that the code makes of the bytes. -/
def madeDevice (space : ConfigSpace) (bus slot : UInt8) : Device where
  bus := bus
  slot := slot
  func := 0
  generic :=
    { id := wordAt space bus slot 0x2
      vendorId := wordAt space bus slot 0x0
      status := wordAt space bus slot 0x6
      command := wordAt space bus slot 0x4
      deviceClass := .ofBytes (byteAt space bus slot 0xb) (byteAt space bus slot 0xa)
      revisionId := byteAt space bus slot 0x8
      bist := byteAt space bus slot 0xf
      latencyTimer := byteAt space bus slot 0xd
      cacheLineSize := byteAt space bus slot 0xc }
  headerType := madeHeaderType space bus slot

/-- The parts of the rows, as bytes and words of their own. -/
theorem dwordAt_parts (space : ConfigSpace) (bus slot offset : UInt8) :
    (dwordAt space bus slot offset >>> 8).toUInt8 = byteAt space bus slot (offset + 1) ∧
      (dwordAt space bus slot offset >>> 16).toUInt8 = byteAt space bus slot (offset + 2) ∧
      (dwordAt space bus slot offset >>> 24).toUInt8 = byteAt space bus slot (offset + 3) ∧
      (dwordAt space bus slot offset).toUInt16 = wordAt space bus slot offset ∧
      (dwordAt space bus slot offset >>> 16).toUInt16 =
        word (byteAt space bus slot (offset + 2)) (byteAt space bus slot (offset + 3)) :=
  ⟨dword_byte₁ _ _ _ _, dword_byte₂ _ _ _ _, dword_byte₃ _ _ _ _, dword_low _ _ _ _,
    dword_high _ _ _ _⟩

theorem loadDevice_eq (hslot : slot.toNat < 32) :
    loadDevice space bus slot
      = .ok (if vendorAt space bus slot = 0xffff then none
          else some (madeDevice space bus slot)) := by
  have hheader : loadHeaderType space bus slot 0 (headerTypeAt space bus slot) = _ :=
    loadHeaderType_eq hslot
  obtain ⟨-, -, -, hcommand, hstatus⟩ := dwordAt_parts space bus slot 0x4
  obtain ⟨-, hsubclass, hbaseclass, -, -⟩ := dwordAt_parts space bus slot 0x8
  obtain ⟨hlatency, htype, hbist, -, -⟩ := dwordAt_parts space bus slot 0xc
  rw [loadDevice, readWord_low hslot]
  split
  · rfl
  · simp (disch := decide) only [readWord_high hslot, read32bit_aligned hslot, toUInt8_masked,
      toUInt16_masked, hcommand, hstatus, hsubclass, hbaseclass, hlatency, htype, hbist,
      dwordAt_byte₀]
    rw [show byteAt space bus slot (0xc + 2) = headerTypeAt space bus slot from rfl, hheader,
      ok_bind]
    rfl

theorem madeDevice_describes :
    (madeDevice space bus slot).Describes space bus slot ↔
      (madeHeaderType space bus slot).Describes space bus slot := by
  refine ⟨fun h => h.headerType, fun h => ?_⟩
  exact { location := rfl, vendorId := rfl, id := rfl, command := rfl, status := rfl,
          revisionId := rfl, deviceClass := DeviceClass.bytes_ofBytes _ _, cacheLineSize := rfl,
          latencyTimer := rfl, bist := rfl, headerType := h }

/-- A result that reports no device exactly where there is none, and otherwise its fields. -/
def Reports (space : ConfigSpace) (bus slot : UInt8) (result : Exec (Option Device)) : Prop :=
  ∃ found, result = .ok found ∧ (found = none ↔ vendorAt space bus slot = 0xffff) ∧
    ∀ d, found = some d → d.Describes space bus slot

/-- Where a device answers, all depends on the rest of its header. -/
theorem reports_iff_describes (hslot : slot.toNat < 32) (hvendor : vendorAt space bus slot ≠ 0xffff) :
    Reports space bus slot (loadDevice space bus slot) ↔
      (madeHeaderType space bus slot).Describes space bus slot := by
  unfold Reports
  rw [loadDevice_eq hslot, if_neg hvendor, ← madeDevice_describes]
  constructor
  · rintro ⟨found, hfound, -, hdescribes⟩
    exact hdescribes _ (Except.ok.inj hfound).symm
  · intro h
    refine ⟨_, rfl, iff_of_false (Option.some_ne_none _) hvendor, ?_⟩
    intro d hd
    rw [← Option.some.inj hd]
    exact h

/--
**Where the header is decoded right.**  For every content of configuration space and
every bus and device number, `load_device` reports what stands there exactly when no
device answers, or the header type is not that of a multi-function device with the
layout 0 and, in the layout 0, none of the six base addresses is prefetchable memory.
-/
theorem loadDevice_reports_iff (space : ConfigSpace) (bus slot : UInt8) (hslot : slot.toNat < 32) :
    Reports space bus slot (loadDevice space bus slot) ↔
      vendorAt space bus slot = 0xffff ∨
        headerTypeAt space bus slot ≠ 0x80 ∧ (headerTypeAt space bus slot = 0 →
          ∀ i, NotPrefetchable (barAt space bus slot i)) := by
  by_cases hvendor : vendorAt space bus slot = 0xffff
  · refine iff_of_true ?_ (.inl hvendor)
    rw [loadDevice_eq hslot, if_pos hvendor]
    exact ⟨none, rfl, iff_of_true rfl hvendor, fun d hd => by cases hd⟩
  · rw [reports_iff_describes hslot hvendor, madeHeaderType_describes, or_iff_right hvendor]

/-- A configuration space with one device: function 0 of device 3 on bus 0. -/
def oneDevice (headerType bar : UInt8) : ConfigSpace := fun bus slot func offset =>
  if bus = 0 ∧ slot = 3 ∧ func = 0 then
    if offset = 0xe then headerType else if offset = 0x10 then bar else 0
  else 0xff

theorem oneDevice_reported :
    (3 : UInt8).toNat < 32 ∧
      Reports (oneDevice 0x00 0x01) 0 3 (loadDevice (oneDevice 0x00 0x01) 0 3) :=
  ⟨by decide, (loadDevice_reports_iff _ 0 3 (by decide)).mpr (.inr (by decide))⟩

/-- The layout 0 of a multi-function device is not recognised, and bit 3 of a base address lost. -/
theorem loadDevice_misreads :
    headerTypeAt (oneDevice 0x80 0x00) 0 3 &&& 0x7f = 0 ∧
      (loadDevice (oneDevice 0x80 0x00) 0 3).map (Option.map (·.headerType))
        = .ok (some (.unknown 0x80)) ∧
      ¬ Reports (oneDevice 0x80 0x00) 0 3 (loadDevice (oneDevice 0x80 0x00) 0 3) ∧
      barAt (oneDevice 0x00 0x08) 0 3 0 = 0b1000 ∧
      BaseAddressRegister.ofU32 0b1000 = .ok (.memorySpace 0 false 0) ∧
      ¬ Reports (oneDevice 0x00 0x08) 0 3 (loadDevice (oneDevice 0x00 0x08) 0 3) := by
  refine ⟨by decide, by decide, ?_, by decide, by decide, ?_⟩
  · rw [reports_iff_describes (by decide) (by decide), madeHeaderType_describes]
    decide
  · rw [reports_iff_describes (by decide) (by decide), madeHeaderType_describes]
    decide

/-! ### Enumeration -/

/-- The order in which locations are looked at. -/
def Before (p q : UInt8 × UInt8) : Prop :=
  p.1.toNat < q.1.toNat ∨ p.1 = q.1 ∧ p.2.toNat < q.2.toNat

theorem toNat_number {n : Nat} (h : n < 256) : (UInt8.ofNat n).toNat = n :=
  UInt8.toNat_ofNat_of_lt' h

theorem mem_locations {p : UInt8 × UInt8} :
    p ∈ locations ↔ p.1.toNat < 255 ∧ p.2.toNat < 32 := by
  obtain ⟨bus, slot⟩ := p
  simp only [locations, List.mem_flatMap, List.mem_range, List.mem_map, Prod.mk.injEq]
  constructor
  · rintro ⟨b, hb, s, hs, rfl, rfl⟩
    rw [toNat_number (by omega), toNat_number (by omega)]
    exact ⟨hb, hs⟩
  · rintro ⟨hb, hs⟩
    exact ⟨bus.toNat, hb, slot.toNat, hs, UInt8.ofNat_toNat, UInt8.ofNat_toNat⟩

theorem locations_ordered : locations.Pairwise Before := by
  unfold locations
  rw [List.pairwise_flatMap]
  constructor
  · -- On one bus the device numbers grow.
    intro bus _
    rw [List.pairwise_map]
    refine (List.pairwise_lt_range).imp_of_mem ?_
    intro i j hi hj hij
    rw [List.mem_range] at hi hj
    refine .inr ⟨rfl, ?_⟩
    rwa [toNat_number (by omega), toNat_number (by omega)]
  · refine (List.pairwise_lt_range).imp_of_mem ?_
    intro i j hi hj hij p hp q hq
    rw [List.mem_range] at hi hj
    obtain ⟨_, -, rfl⟩ := List.mem_map.mp hp
    obtain ⟨_, -, rfl⟩ := List.mem_map.mp hq
    refine .inl ?_
    rwa [toNat_number (by omega), toNat_number (by omega)]

/-- The devices of a list of locations with a valid device number. -/
theorem loadAll_eq : ∀ {ls : List (UInt8 × UInt8)}, (∀ p ∈ ls, p.2.toNat < 32) →
    loadAll space ls = .ok ((ls.filter fun p => vendorAt space p.1 p.2 ≠ 0xffff).map fun p =>
      madeDevice space p.1 p.2)
  | [], _ => rfl
  | (bus, slot) :: rest, h => by
      rw [loadAll, loadDevice_eq (h _ (List.mem_cons_self ..)),
        loadAll_eq fun p hp => h p (List.mem_cons_of_mem _ hp)]
      by_cases hvendor : vendorAt space bus slot = 0xffff
      · simp [hvendor]
      · simp [hvendor]

/-- The locations where a device answers, in the order of `bruteforce`. -/
def answering (space : ConfigSpace) : List (UInt8 × UInt8) :=
  locations.filter fun p => vendorAt space p.1 p.2 ≠ 0xffff

theorem bruteforce_eq : bruteforce space
    = .ok ((answering space).map fun p => madeDevice space p.1 p.2) :=
  loadAll_eq fun _ hp => (mem_locations.mp hp).2

theorem mem_answering {p : UInt8 × UInt8} : p ∈ answering space ↔
    (p.1.toNat < 255 ∧ p.2.toNat < 32) ∧ vendorAt space p.1 p.2 ≠ 0xffff := by
  unfold answering
  rw [List.mem_filter, mem_locations, decide_eq_true_iff]

def Device.place (d : Device) : UInt8 × UInt8 := (d.bus, d.slot)

/-- All devices, in increasing order and each once, with what `load_device` says of them. -/
structure Enumerates (space : ConfigSpace) (ds : List Device) : Prop where
  ordered : (ds.map Device.place).Pairwise Before
  loaded : ∀ d ∈ ds, d.slot.toNat < 32 ∧ loadDevice space d.bus d.slot = .ok (some d)
  complete : ∀ bus slot, slot.toNat < 32 →
    ((bus, slot) ∈ ds.map Device.place ↔ vendorAt space bus slot ≠ 0xffff)

theorem places_eq : ((answering space).map fun p => madeDevice space p.1 p.2).map Device.place
    = answering space := by
  rw [List.map_map]
  exact List.map_id'' (fun _ => rfl) _

/--
**Where the enumeration is complete.**  For every content of configuration space,
`bruteforce` yields exactly the devices that answer, in increasing order and each once,
if and only if none answers on bus 255.  Different registers never share an address.
-/
theorem bruteforce_enumerates_iff (space : ConfigSpace) :
    ((∃ ds, bruteforce space = .ok ds ∧ Enumerates space ds) ↔
        ∀ slot : UInt8, slot.toNat < 32 → vendorAt space 0xff slot = 0xffff) ∧
      ∀ bus slot func offset bus' slot' offset' : UInt8, slot.toNat < 32 → slot'.toNat < 32 →
        func.toNat < 8 → (bus, slot, offset &&& 0xfc) ≠ (bus', slot', offset' &&& 0xfc) →
          address bus slot func offset ≠ address bus' slot' func offset' := by
  constructor
  · constructor
    · rintro ⟨ds, hrun, hall⟩ slot hslot
      rw [bruteforce_eq, Except.ok.injEq] at hrun
      by_contra hvendor
      have hmem := (hall.complete 0xff slot hslot).mpr hvendor
      rw [← hrun, places_eq, mem_answering] at hmem
      exact absurd hmem.1.1 (show ¬ (0xff : UInt8).toNat < 255 by decide)
    · intro hlast
      refine ⟨_, bruteforce_eq, ?_, ?_, ?_⟩
      · rw [places_eq]
        exact locations_ordered.filter _
      · intro d hd
        obtain ⟨p, hp, rfl⟩ := List.mem_map.mp hd
        obtain ⟨⟨-, hslot⟩, hvendor⟩ := mem_answering.mp hp
        refine ⟨hslot, ?_⟩
        show loadDevice space p.1 p.2 = _
        rw [loadDevice_eq hslot, if_neg hvendor]
      · intro bus slot hslot
        rw [places_eq, mem_answering]
        refine ⟨fun h => h.2, fun hvendor => ⟨⟨?_, hslot⟩, hvendor⟩⟩
        -- The only bus that is not looked at is 255.
        by_contra hbus
        change ¬ bus.toNat < 255 at hbus
        have hlt := bus.toNat_lt
        have hff : bus = 0xff := UInt8.toNat_inj.mp (show bus.toNat = 255 by omega)
        exact hvendor (hff ▸ hlast slot hslot)
  · intro bus slot func offset bus' slot' offset' hslot hslot' hfunc hne heq
    obtain ⟨hbus, hs, -, hoffset⟩ := address_injective hslot hslot' hfunc hfunc heq
    exact hne (by rw [hbus, hs, hoffset])

/-- A bus with one device, on bus 0, is enumerated. -/
theorem oneDevice_enumerated :
    ∃ ds, bruteforce (oneDevice 0 0) = .ok ds ∧ Enumerates (oneDevice 0 0) ds :=
  (bruteforce_enumerates_iff (oneDevice 0 0)).1.mpr fun slot _ => by
    simp [vendorAt, wordAt, byteAt, oneDevice, word]

/-- A device that only answers on bus 255. -/
def lastBus : ConfigSpace := fun bus slot func _ =>
  if bus = 0xff ∧ slot = 0 ∧ func = 0 then 0 else 0xff

/-- `load_device` finds it, but `bruteforce` does not look there. -/
theorem bruteforce_misses_lastBus :
    vendorAt lastBus 0xff 0 = 0 ∧ Ends (loadDevice lastBus 0xff 0) ∧
      loadDevice lastBus 0xff 0 ≠ .ok none ∧ bruteforce lastBus = .ok [] := by
  refine ⟨by decide, ⟨_, loadDevice_eq (by decide)⟩, ?_, ?_⟩
  · rw [loadDevice_eq (by decide), if_neg (by decide)]
    exact fun h => by cases h
  · have hnone : answering lastBus = [] := by
      rw [List.eq_nil_iff_forall_not_mem]
      intro p hp
      obtain ⟨⟨hbus, -⟩, hvendor⟩ := mem_answering.mp hp
      have hne : ¬ p.1 = 0xff := fun h => by
        rw [h] at hbus
        exact absurd hbus (by decide)
      exact hvendor (by simp [vendorAt, wordAt, byteAt, lastBus, hne, word])
    rw [bruteforce_eq, hnone]
    rfl

end Rucoonos.Pci
