/-
The interrupt line of a card: `enable_interrupts` and the closure of `init` in
`hardware/device/e1000.rs`, and `PacketQueueSender::enqueue` in `hardware/device.rs`.

In `Device/E1000.lean` the handler may be entered at any time and finds any cause.
Here the causes are a register of the card.  Sending a packet whose descriptor asks for
a report raises TXDW, storing a frame raises RXT, and a sender raises TXD_LOW after it
has put its packet on the queue, in a step of its own.  The handler reads the register,
which clears it.  The line is asserted as long as a cause is raised that the mask lets
through.

The handler may also be entered while the line is not asserted, for the interrupts of all
cards arrive on one line and `interrupt::handle_interrupt` calls the handlers of all of
them.  Causes other than these three may be raised at any time.
-/
import Rucoonos.Device.E1000

namespace Rucoonos.E1000

/-- The cause that the card raises when it is done with a descriptor. -/
def icrTxdw : UInt32 := (1 : UInt32) <<< 0

/-- The cause that the card raises when it has stored a frame. -/
def icrRxt : UInt32 := (1 : UInt32) <<< 7

/-- What the closure that `init` returns writes to the register that sets causes. -/
def notifyCause : UInt32 :=
  ((InterruptCauseRegister.default.setTxdLow true).setAsserted false).toRaw

/-- What `enable_interrupts` writes to the mask. -/
def enabledCauses : IMaskRegister :=
  (((((((IMaskRegister.default.setTxdw true).setTxqe false).setLsc true).setRxdmto false).setRxo
    false).setRxto true).setTxdLow true)

/-- A card with its interrupt registers. -/
structure Nic where
  card : Card
  /-- `REG_ICAUSE`. -/
  icr : UInt32
  /-- `REG_IMASK`. -/
  imask : UInt32
  /-- The senders that have enqueued their packet and not called `notify` yet. -/
  notifying : Nat

/-- After `enable_interrupts`, which ends with a read of the cause register. -/
def Nic.init (id : Nat) : Nic := ⟨E1000.init id, 0, enabledCauses.toRaw, 0⟩

/-- The line is asserted. -/
def Nic.asserted (n : Nic) : Bool := n.icr &&& n.imask != 0

/-- What the card raises when it has sent a packet: its report, if the descriptor asks for
one. -/
def TxDesc.report (d : TxDesc) : UInt32 := if d.cmd &&& cmdRs = 0 then 0 else icrTxdw

inductive NicAction
  | transmit
  | receive (frame : Bytes) (bits : UInt8)
  /-- The card raises other causes. -/
  | raise (causes : UInt32)
  /-- `PacketQueueSender::enqueue`, its first line. -/
  | send (len : Nat)
  /-- Its second line. -/
  | notify
  /-- The handler is entered, and reads the causes. -/
  | interrupt
  | driver
  deriving DecidableEq, Repr

def Nic.step (n : Nic) : NicAction → Option Nic
  | .transmit => (E1000.step n.card .transmit).map fun card =>
      { n with card, icr := n.icr ||| (n.card.tx.descs n.card.tx.tdh).report }
  | .receive frame bits => (E1000.step n.card (.receive frame bits)).map fun card =>
      { n with card, icr := n.icr ||| icrRxt }
  | .raise causes => some { n with icr := n.icr ||| causes }
  | .send len => (E1000.step n.card (.send len)).map fun card =>
      { n with card, notifying := n.notifying + 1 }
  | .notify =>
      match n.notifying with
      | 0 => none
      | left + 1 => some { n with icr := n.icr ||| notifyCause, notifying := left }
  | .interrupt => (E1000.step n.card (.interrupt n.icr)).map fun card =>
      { n with card, icr := 0 }
  | .driver => (E1000.step n.card .driver).map fun card => { n with card }

/-- `PacketQueueSender::enqueue` with interrupts off: both lines in one go. -/
def Nic.enqueue (n : Nic) (len : Nat) : Nic :=
  { n with card := { n.card with tx := n.card.tx.send len }, icr := n.icr ||| notifyCause }

/-- Some packets, one after the other. -/
def Nic.enqueueAll (n : Nic) (lens : List Nat) : Nic := lens.foldl Nic.enqueue n

end Rucoonos.E1000
