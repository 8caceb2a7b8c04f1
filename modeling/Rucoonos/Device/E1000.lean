/-
The E1000 driver and its card: `hardware/device/e1000.rs`.

`handle_interrupt` and the card run side by side on the same registers and
descriptors, so the driver is cut at every access to something the card also
touches.  Between two such accesses it works on its own fields, and those are part
of the step that precedes them.

The card is what the driver expects of it and no more.  On the transmit side,
whenever its head differs from the tail it may take the descriptor at the head, set
the DD bit and move on; on the receive side, whenever its head differs from the tail
it may fill the buffer of the descriptor at the head, set the DD bit and move on.

Heap blocks are named by numbers that are never used twice, with 0 for the null
pointer.  `translate_addr` is kept symbolic: a physical address is the translation
of the pointer it was made from.  The packet queue and the handler queue are
unbounded FIFOs.
-/
import Rucoonos.Lib.Run
import Rucoonos.Net.Buffer
import Rucoonos.Device.Regs
import Mathlib.Logic.Function.Basic

namespace Rucoonos.E1000

/-- A pointer, by the name of the block it points to; 0 is null. -/
abbrev Ptr := Nat

/-- A physical address, by the pointer it is the translation of. -/
structure PhysAddr where
  virt : Ptr
  deriving DecidableEq, Repr

/-- `MEMORY_MAPPING.translate_addr(..).unwrap()`. -/
def translateAddr (p : Ptr) : PhysAddr := ⟨p⟩

/-- `RxDesc`, less the fields neither side of the driver reads. -/
structure RxDesc where
  addr : PhysAddr
  length : UInt16
  status : UInt8
  deriving DecidableEq, Repr

/-- `TxDesc`, less the fields the driver never writes. -/
structure TxDesc where
  addr : PhysAddr
  length : UInt16
  cmd : UInt8
  status : UInt8
  deriving DecidableEq, Repr

/-- The number of RX descriptors. -/
def rxDesc : Nat := 32

/-- The number of TX descriptors. -/
def txDesc : Nat := 8

def tstaDd : UInt8 := (1 : UInt8) <<< 0

def cmdEop : UInt8 := (1 : UInt8) <<< 0
def cmdIfcs : UInt8 := (1 : UInt8) <<< 1
def cmdRs : UInt8 := (1 : UInt8) <<< 3

/-- What `packet.into_buffer().into_raw()` gives: the box and the length of the packet. -/
structure RawBuffer where
  ptr : Ptr
  len : Nat
  deriving DecidableEq, Repr

/-- What the card takes from a TX descriptor: where the packet is and how long. -/
structure Transmission where
  addr : PhysAddr
  length : UInt16
  deriving DecidableEq, Repr

def TxDesc.transmission (d : TxDesc) : Transmission := ⟨d.addr, d.length⟩

/-- The transmission that sends a packet. -/
def RawBuffer.transmission (b : RawBuffer) : Transmission :=
  ⟨translateAddr b.ptr, UInt16.ofNat b.len⟩

/-- Where `handle_interrupt` stands. -/
inductive Point
  /-- Outside the handler. -/
  | idle
  /-- Before `target_ptr.read_volatile()`. -/
  | rxRead (cause : InterruptCauseRegister)
  /-- The DD bit was set; before the frame is copied and enqueued. -/
  | rxEnqueue (cause : InterruptCauseRegister) (desc : RxDesc)
  /-- Before the descriptor is written back with its status cleared. -/
  | rxClear (cause : InterruptCauseRegister) (desc : RxDesc)
  /-- Before `cur_rx` is advanced. -/
  | rxAdvance (cause : InterruptCauseRegister)
  /-- Before the RX tail is written. -/
  | rxTail (cause : InterruptCauseRegister) (oldRx : Nat)
  /-- Before the TX head is read. -/
  | txHead (cause : InterruptCauseRegister)
  /-- Before the TX tail is read. -/
  | txTail (cause : InterruptCauseRegister) (curTxHead : Nat)
  /-- At the top of the refill loop, with the passes left. -/
  | txRefill (cause : InterruptCauseRegister) (curTxHead left : Nat)
  /-- In `enqueue_packet`, before the descriptor is filled. -/
  | txWrite (cause : InterruptCauseRegister) (curTxHead left : Nat) (packet : RawBuffer)
  /-- In `enqueue_packet`, before the TX tail is written. -/
  | txDoorbell (cause : InterruptCauseRegister) (curTxHead left : Nat) (packet : RawBuffer)
  /-- At the top of the reclaim loop. -/
  | txReclaim (cause : InterruptCauseRegister) (curTxHead txIndex : Nat)
  deriving DecidableEq, Repr

/-- The receive ring: registers, descriptors and buffers, the driver's fields for them,
and what is remembered of the run. -/
structure RxRing where
  /-- `REG_RXDESCHEAD`. -/
  rdh : Nat
  /-- `REG_RXDESCTAIL`. -/
  rdt : Nat
  descs : Nat → RxDesc
  /-- The contents of the buffers. -/
  mem : Ptr → Bytes
  curRx : Nat
  rxBuffers : Nat → Ptr
  /-- The frames the card has stored, in order. -/
  arrived : List Bytes
  /-- The messages on the handler queue, in order. -/
  delivered : List RawPacket
  /-- Which buffers hold a frame that has not been copied. -/
  uncopied : Nat → Bool
  /-- What was in a buffer that was filled again before it was copied. -/
  clobbered : List Bytes

/-- The transmit ring. -/
structure TxRing where
  /-- `REG_TXDESCHEAD`. -/
  tdh : Nat
  /-- `REG_TXDESCTAIL`. -/
  tdt : Nat
  descs : Nat → TxDesc
  curTx : Nat
  lastReclaimedTx : Nat
  txBuffers : Nat → Ptr
  /-- `PacketQueueReceiver`. -/
  packetQueue : List RawBuffer
  /-- The name the box of the next packet gets. -/
  nextPtr : Nat
  /-- The packets taken off the packet queue, in order. -/
  dequeued : List RawBuffer
  transmitted : List Transmission
  /-- The descriptors filled again before the card was done with them. -/
  overwritten : List TxDesc
  /-- The pointers `enqueue_packet` put in `tx_buffers`, in order. -/
  stored : List Ptr
  /-- The pointers it overwrote there before they were reclaimed. -/
  leaked : List Ptr
  /-- The pointers passed to `Buffer::from_raw`, in order. -/
  reclaimed : List Ptr

/-- `E1000Card` with the card it drives. -/
structure Card where
  id : Nat
  rx : RxRing
  tx : TxRing
  point : Point

/-! ### `E1000Card::init` -/

/-- The RX half.  33 buffers are allocated, the last of them for a descriptor the card
does not use. -/
def RxRing.init : RxRing where
  rdh := 0
  rdt := rxDesc - 1
  descs := fun i => ⟨translateAddr (i + 1), 0, 0⟩
  mem := fun _ => List.replicate (2048 + 16) 0
  curRx := 0
  rxBuffers := fun i => i + 1
  arrived := []
  delivered := []
  uncopied := fun _ => false
  clobbered := []

/-- The TX half. -/
def TxRing.init : TxRing where
  tdh := 0
  tdt := 0
  descs := fun _ => ⟨translateAddr 0, 0, 0, tstaDd⟩
  curTx := 0
  lastReclaimedTx := 0
  txBuffers := fun _ => 0
  packetQueue := []
  nextPtr := rxDesc + 2
  dequeued := []
  transmitted := []
  overwritten := []
  stored := []
  leaked := []
  reclaimed := []

def init (id : Nat) : Card := ⟨id, RxRing.init, TxRing.init, .idle⟩

/-! ### The card -/

/-- The card sends the packet at its TX head. -/
def TxRing.transmit (t : TxRing) : TxRing :=
  let desc := t.descs t.tdh
  { t with
    transmitted := t.transmitted ++ [desc.transmission]
    descs := Function.update t.descs t.tdh { desc with status := desc.status ||| tstaDd }
    tdh := (t.tdh + 1) % txDesc }

/-- The card stores a frame in the buffer at its RX head; `bits` are the status bits it
sets besides DD. -/
def RxRing.receive (r : RxRing) (frame : Bytes) (bits : UInt8) : RxRing :=
  let desc := r.descs r.rdh
  let buffer := desc.addr.virt
  { r with
    arrived := r.arrived ++ [frame]
    clobbered := if r.uncopied r.rdh then r.clobbered ++ [r.mem buffer] else r.clobbered
    uncopied := Function.update r.uncopied r.rdh true
    mem := Function.update r.mem buffer (frame ++ (r.mem buffer).drop frame.length)
    descs := Function.update r.descs r.rdh
      { desc with length := UInt16.ofNat frame.length, status := desc.status ||| bits ||| 1 }
    rdh := (r.rdh + 1) % rxDesc }

/-! ### The receive loop of `handle_interrupt` -/

/-- The frame is copied into a buffer of its own, and that is enqueued for the handler. -/
def RxRing.enqueue (r : RxRing) (id : Nat) (desc : RxDesc) : RxRing :=
  let slice := (r.mem (r.rxBuffers r.curRx)).take desc.length.toNat
  { r with
    delivered := r.delivered ++ [⟨id, Buffer.new slice⟩]
    uncopied := Function.update r.uncopied r.curRx false }

/-- The descriptor that was read is written back with `status = 0`. -/
def RxRing.clearStatus (r : RxRing) (desc : RxDesc) : RxRing :=
  { r with descs := Function.update r.descs r.curRx { desc with status := 0 } }

/-! ### The transmit half of `handle_interrupt` -/

/-- `PacketQueueSender::enqueue`, with the box of a new packet. -/
def TxRing.send (t : TxRing) (len : Nat) : TxRing :=
  { t with packetQueue := t.packetQueue ++ [⟨t.nextPtr, len⟩], nextPtr := t.nextPtr + 1 }

/-- The descriptor `enqueue_packet` writes. -/
def filledDesc (packet : RawBuffer) : TxDesc where
  addr := translateAddr packet.ptr
  length := UInt16.ofNat packet.len
  cmd := cmdEop ||| cmdIfcs ||| cmdRs
  status := 0

/-- `enqueue_packet` up to the tail write. -/
def TxRing.fillDesc (t : TxRing) (packet : RawBuffer) : TxRing :=
  let old := t.descs t.curTx
  let slot := t.txBuffers t.curTx
  { t with
    descs := Function.update t.descs t.curTx (filledDesc packet)
    txBuffers := Function.update t.txBuffers t.curTx packet.ptr
    overwritten := if old.status &&& tstaDd = 0 then t.overwritten ++ [old] else t.overwritten
    stored := t.stored ++ [packet.ptr]
    leaked := if slot = 0 then t.leaked else t.leaked ++ [slot] }

/-- `enqueue_packet` from the tail write on. -/
def TxRing.ringDoorbell (t : TxRing) : TxRing :=
  let nextTail := (t.curTx + 1) % 8
  { t with tdt := nextTail, curTx := nextTail }

/-- One pass of the reclaim loop, for a descriptor whose status is 1. -/
def TxRing.reclaim (t : TxRing) (txIndex : Nat) : TxRing :=
  { t with
    reclaimed := t.reclaimed ++ [t.txBuffers txIndex]
    txBuffers := Function.update t.txBuffers txIndex 0
    lastReclaimedTx := (txIndex + 1) % txDesc }

/-- Where the handler goes behind the refill: `if cause.txdw` and the reclaim loop. -/
def reclaimPoint (t : TxRing) (cause : InterruptCauseRegister) (curTxHead : Nat) : Point :=
  if cause.txdw then .txReclaim cause curTxHead t.lastReclaimedTx else .idle

/-- `if cur_tx_head == cur_tx_tail && (cause.txd_low || cause.txdw)`. -/
def refillPoint (t : TxRing) (cause : InterruptCauseRegister) (curTxHead curTxTail : Nat) :
    Point :=
  if curTxHead = curTxTail ∧ (cause.txdLow || cause.txdw) = true then
    .txRefill cause curTxHead txDesc
  else reclaimPoint t cause curTxHead

/-! ### The steps of the system -/

/-- The handler is entered; `get_intterupt_cause` reads `raw`. -/
def Card.interrupt (s : Card) (raw : UInt32) : Option Card :=
  match s.point with
  | .idle =>
      let cause := InterruptCauseRegister.ofRaw raw
      some { s with point := if cause.rxt then .rxRead cause else .txHead cause }
  | _ => none

/-- The next step of `handle_interrupt`. -/
def Card.driver (s : Card) : Option Card :=
  match s.point with
  | .idle => none
  | .rxRead cause =>
      let desc := s.rx.descs s.rx.curRx
      some { s with
        point := if desc.status &&& 0b01 = 0 then .txHead cause else .rxEnqueue cause desc }
  | .rxEnqueue cause desc =>
      some { s with rx := s.rx.enqueue s.id desc, point := .rxClear cause desc }
  | .rxClear cause desc =>
      some { s with rx := s.rx.clearStatus desc, point := .rxAdvance cause }
  | .rxAdvance cause =>
      some { s with
        rx := { s.rx with curRx := (s.rx.curRx + 1) % rxDesc }
        point := .rxTail cause s.rx.curRx }
  | .rxTail cause oldRx =>
      some { s with rx := { s.rx with rdt := oldRx }, point := .rxRead cause }
  | .txHead cause => some { s with point := .txTail cause s.tx.tdh }
  | .txTail cause curTxHead =>
      some { s with point := refillPoint s.tx cause curTxHead s.tx.tdt }
  | .txRefill cause curTxHead left =>
      match left, s.tx.packetQueue with
      | left + 1, packet :: rest =>
          some { s with
            tx := { s.tx with packetQueue := rest, dequeued := s.tx.dequeued ++ [packet] }
            point := .txWrite cause curTxHead left packet }
      | _, _ => some { s with point := reclaimPoint s.tx cause curTxHead }
  | .txWrite cause curTxHead left packet =>
      some { s with
        tx := s.tx.fillDesc packet
        point := .txDoorbell cause curTxHead left packet }
  | .txDoorbell cause curTxHead left _ =>
      some { s with tx := s.tx.ringDoorbell, point := .txRefill cause curTxHead left }
  | .txReclaim cause curTxHead txIndex =>
      if txIndex = curTxHead then some { s with point := .idle }
      else
        some { s with
          tx := if (s.tx.descs txIndex).status ≠ 1 then s.tx else s.tx.reclaim txIndex
          point := .txReclaim cause curTxHead ((txIndex + 1) % 8) }

inductive Action
  | transmit
  | receive (frame : Bytes) (bits : UInt8)
  | send (len : Nat)
  | interrupt (raw : UInt32)
  | driver
  deriving DecidableEq, Repr

def step (s : Card) : Action → Option Card
  | .transmit => if s.tx.tdh = s.tx.tdt then none else some { s with tx := s.tx.transmit }
  | .receive frame bits =>
      if s.rx.rdh = s.rx.rdt ∨ 2048 < frame.length then none
      else some { s with rx := s.rx.receive frame bits }
  | .send len => some { s with tx := s.tx.send len }
  | .interrupt raw => s.interrupt raw
  | .driver => s.driver

end Rucoonos.E1000
