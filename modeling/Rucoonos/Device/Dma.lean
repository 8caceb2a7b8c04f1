/-
What the card is told about memory: `E1000Card::init` and `enqueue_packet` of
`hardware/device/e1000.rs`.

The card works with physical addresses.  `init` gives it those of the two descriptor
tables in its registers and those of the receive buffers in the descriptors, and
`enqueue_packet` gives it that of a packet.  Each of them is the translation of the
first byte of a block in the heap.

Here addresses are numbers, a register holds what was last written to it, and the
blocks that the global allocator returns are parameters (`Placement`).  The registers
that are only read in `init` are left out.
-/
import Rucoonos.Device.E1000
import Rucoonos.Hardware.Pci
import Rucoonos.Memory.Heap

namespace Rucoonos.Dma

open Slice Memory
open Pci (BaseAddressRegister)
open E1000 (rxDesc txDesc tstaDd cmdEop cmdIfcs cmdRs)

/-! ### `Coms` -/

/-- `Coms`, with the registers it writes. -/
structure Coms where
  bar : BaseAddressRegister
  regs : UInt16 → UInt32

def Coms.writeCommand (c : Coms) (pAddress : UInt16) (value : UInt32) : Exec Coms :=
  match c.bar with
  | .memorySpace _ _ _ => return { c with regs := Function.update c.regs pAddress value }
  | .ioSpace _ => .error .todo

/-- One `write_command` after the other. -/
def Coms.writeCommands (c : Coms) : List (UInt16 × UInt32) → Exec Coms
  | [] => return c
  | (pAddress, value) :: rest => do
      let c ← c.writeCommand pAddress value
      c.writeCommands rest

def regTctrl : UInt16 := 0x400
def regTxdesclo : UInt16 := 0x3800
def regTxdeschi : UInt16 := 0x3804
def regTxdesclen : UInt16 := 0x3808
def regTxdeschead : UInt16 := 0x3810
def regTxdesctail : UInt16 := 0x3818

def regRctrl : UInt16 := 0x0100
def regRxdesclo : UInt16 := 0x2800
def regRxdeschi : UInt16 := 0x2804
def regRxdesclen : UInt16 := 0x2808
def regRxdeschead : UInt16 := 0x2810
def regRxdesctail : UInt16 := 0x2818

def regTipg : UInt16 := 0x0410

def rctlEn : UInt32 := (1 : UInt32) <<< 1
def rctlSbp : UInt32 := (1 : UInt32) <<< 2
def rctlUpe : UInt32 := (1 : UInt32) <<< 3
def rctlMpe : UInt32 := (1 : UInt32) <<< 4
def rctlLbmNone : UInt32 := (0 : UInt32) <<< 7
def rtclRdmtsHalf : UInt32 := (0 : UInt32) <<< 8
def rctlBam : UInt32 := (1 : UInt32) <<< 15
def rctlSecrc : UInt32 := (1 : UInt32) <<< 26
def rctlBsize2048 : UInt32 := (0 : UInt32) <<< 16

def tctlEn : UInt32 := (1 : UInt32) <<< 1
def tctlPsp : UInt32 := (1 : UInt32) <<< 3
def tctlCtShift : UInt32 := 4
def tctlColdShift : UInt32 := 12
def tctlRtlc : UInt32 := (1 : UInt32) <<< 24

/-- The address in a pair of registers, as the card reads it. -/
def Coms.base (c : Coms) (hi lo : UInt16) : Nat := (c.regs hi).toNat * 2 ^ 32 + (c.regs lo).toNat

/-! ### Blocks in the heap -/

/-- A block of the heap with its virtual address. -/
structure Block (size : Nat) where
  virt : Nat
  le_virt : heapStart ≤ virt
  virt_le : virt + size ≤ heapStart + heapSize

/-- A block from `descriptors::allocate_buffer`, for descriptors of 16 bytes. -/
structure Table (count : Nat) extends Block (count * 16) where
  aligned : 16 ∣ virt

/-- The blocks `init` gets from the global allocator. -/
structure Placement where
  rxBuffers : List (Block (2048 + 16))
  length_rxBuffers : rxBuffers.length = rxDesc + 1
  rxTable : Table (rxDesc + 1)
  txTable : Table (txDesc + 1)

/-! ### The card -/

/-- `RxDesc`, less the fields that stay 0. -/
structure RxDesc where
  addr : Nat
  length : UInt16
  status : UInt8

/-- `TxDesc`, less the fields that stay 0. -/
structure TxDesc where
  addr : Nat
  length : UInt16
  cmd : UInt8
  status : UInt8

/-- `E1000Card`, with the contents of the tables it points to. -/
structure Card where
  coms : Coms
  rxPtr : Nat
  txPtr : Nat
  rxDescs : List RxDesc
  txDescs : Nat → TxDesc
  curTx : Nat
  curRx : Nat
  rxBuffers : List Nat
  /-- 0 is the null pointer. -/
  txBuffers : Nat → Nat

/-- The loop that allocates the receive buffers. -/
def rxDescriptors (t : OffsetPageTable) : List (Block (2048 + 16)) → Exec (List RxDesc)
  | [] => return []
  | buffer :: rest => do
      let physAddr ← unwrap (t.translateAddr buffer.virt)
      let descs ← rxDescriptors t rest
      return ⟨physAddr, 0, 0⟩ :: descs

/-- The registers `init` writes for the RX table at `ptr`.  The first two are those of the
TX table, with the halves the wrong way round. -/
def rxCommands (ptr : Nat) : List (UInt16 × UInt32) :=
  [(regTxdesclo, .ofNat (ptr >>> 32)),
    (regTxdeschi, .ofNat ptr),
    (regRxdesclo, .ofNat ptr),
    (regRxdeschi, 0),
    (regRxdesclen, UInt32.ofNat rxDesc * 16),
    (regRxdeschead, 0),
    (regRxdesctail, UInt32.ofNat rxDesc - 1),
    (regRctrl, rctlEn ||| rctlSbp ||| rctlUpe ||| rctlMpe ||| rctlLbmNone ||| rtclRdmtsHalf
      ||| rctlBam ||| rctlSecrc ||| rctlBsize2048)]

/-- The registers `init` writes for the TX table at `ptr`. -/
def txCommands (ptr : Nat) : List (UInt16 × UInt32) :=
  [(regTxdeschi, .ofNat (ptr >>> 32)),
    (regTxdesclo, .ofNat ptr),
    (regTxdesclen, UInt32.ofNat txDesc * 16),
    (regTxdeschead, 0),
    (regTxdesctail, 0),
    (regTctrl, tctlEn ||| tctlPsp ||| (15 <<< tctlCtShift) ||| (64 <<< tctlColdShift) ||| tctlRtlc),
    (regTipg, 0x0060200A)]

/-- `E1000Card::init`. -/
def Card.init (t : OffsetPageTable) (coms : Coms) (p : Placement) : Exec Card := do
  let coms ← coms.writeCommand 0x0014 0x1
  let rxDescs ← rxDescriptors t p.rxBuffers
  let ptr ← unwrap (t.translateAddr p.rxTable.virt)
  let coms ← coms.writeCommands (rxCommands ptr)
  let ptr ← unwrap (t.translateAddr p.txTable.virt)
  let coms ← coms.writeCommands (txCommands ptr)
  return {
    coms := coms
    rxPtr := p.rxTable.virt
    txPtr := p.txTable.virt
    rxDescs := rxDescs
    txDescs := fun _ => ⟨0, 0, 0, tstaDd⟩
    curTx := 0
    curRx := 0
    rxBuffers := (p.rxBuffers.take rxDesc).map fun buffer => buffer.virt
    txBuffers := fun _ => 0 }

/-- `enqueue_packet`. -/
def Card.enqueuePacket (s : Card) (t : OffsetPageTable) (data : Block 2048) (len : Nat) :
    Exec Card := do
  let addr ← unwrap (t.translateAddr data.virt)
  let nextTail := (s.curTx + 1) % 8
  let coms ← s.coms.writeCommand regTxdesctail (.ofNat nextTail)
  return { s with
    coms := coms
    txDescs := Function.update s.txDescs s.curTx
      ⟨addr, .ofNat len, cmdEop ||| cmdIfcs ||| cmdRs, 0⟩
    txBuffers := Function.update s.txBuffers s.curTx data.virt
    curTx := nextTail }

/-- One pass of the receive loop of `handle_interrupt`, for a frame of `len` bytes. -/
def Card.receivePacket (s : Card) (len : UInt16) : Exec Card := do
  let oldRx := s.curRx
  let coms ← s.coms.writeCommand regRxdesctail (.ofNat oldRx)
  return { s with
    coms := coms
    rxDescs := s.rxDescs.modify oldRx fun desc => { desc with length := len, status := 0 }
    curRx := (oldRx + 1) % rxDesc }

/-- One pass of the reclaim loop of `handle_interrupt`. -/
def Card.reclaim (s : Card) (txIndex : Nat) : Card :=
  { s with txBuffers := Function.update s.txBuffers txIndex 0 }

inductive Action
  | enqueuePacket (data : Block 2048) (len : Nat)
  | receivePacket (len : UInt16)
  | reclaim (txIndex : Nat)

def step (t : OffsetPageTable) (s : Card) : Action → Option Card
  | .enqueuePacket data len => (s.enqueuePacket t data len).toOption
  | .receivePacket len => (s.receivePacket len).toOption
  | .reclaim txIndex => some (s.reclaim txIndex)

end Rucoonos.Dma
