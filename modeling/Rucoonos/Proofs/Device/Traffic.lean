/-
What goes in and out of a card.

The rings and queues between the wire and the handler hold only parts of the traffic at
any time.  Here the parts are put together: what was ever put on the packet queue is what
was taken off it and what is still there, in boxes numbered one after the other, and what
was put on the handler queue is a copy of frames that the card has stored, each in a
buffer of its own and with the id of the card.
-/
import Rucoonos.Proofs.Device.Receive
import Rucoonos.Proofs.Device.Transmit

namespace Rucoonos.E1000

open Lts Ring

variable {s s' : Card} {a : Action} {lens : List Nat}

/-! ### Packets -/

/-- All packets that were put on the packet queue, in order. -/
def TxRing.enqueued (t : TxRing) : List RawBuffer := t.dequeued ++ t.packetQueue

/-- Packets of the given lengths, each in the box that comes next. -/
def boxed (lens : List Nat) : List RawBuffer := lens.mapIdx fun k len => ⟨rxDesc + 2 + k, len⟩

/-- The packets that were put on the queue are those of the given lengths. -/
structure Given (t : TxRing) (lens : List Nat) : Prop where
  queued : t.enqueued = boxed lens
  next : t.nextPtr = rxDesc + 2 + lens.length

theorem Given.init : Given TxRing.init [] := ⟨rfl, rfl⟩

theorem Given.send {t : TxRing} (h : Given t lens) (len : Nat) :
    Given (t.send len) (lens ++ [len]) where
  queued := by
    show t.dequeued ++ (t.packetQueue ++ [_]) = _
    rw [← List.append_assoc, boxed, List.mapIdx_append, List.mapIdx_singleton, Nat.zero_add]
    show t.enqueued ++ [_] = _
    rw [h.queued, h.next]
    rfl
  next := by
    show t.nextPtr + 1 = _
    rw [h.next, List.length_append]
    rfl

/-- No step but `send` puts anything on the queue. -/
theorem enqueued_step (h : step s a = some s') (hsend : ∀ len, a ≠ .send len) :
    s'.tx.enqueued = s.tx.enqueued ∧ s'.tx.nextPtr = s.tx.nextPtr := by
  cases step_tx h with
  | transmit hne htx hpoint => rw [htx]; exact ⟨rfl, rfl⟩
  | send len htx hpoint => exact absurd rfl (hsend len)
  | receive frame bits htx hpoint => rw [htx]; exact ⟨rfl, rfl⟩
  | before a htx hat hpoint => rw [htx]; exact ⟨rfl, rfl⟩
  | readHead cause hat htx hpoint => rw [htx]; exact ⟨rfl, rfl⟩
  | readTail cause curTxHead hat htx hpoint => rw [htx]; exact ⟨rfl, rfl⟩
  | dequeue cause curTxHead left packet rest hat hqueue htx hpoint =>
      rw [htx]
      refine ⟨?_, rfl⟩
      show s.tx.dequeued ++ [packet] ++ rest = s.tx.dequeued ++ s.tx.packetQueue
      rw [hqueue, List.append_assoc, List.singleton_append]
  | refilled cause curTxHead left hat htx hpoint => rw [htx]; exact ⟨rfl, rfl⟩
  | fill cause curTxHead left packet hat htx hpoint => rw [htx]; exact ⟨rfl, rfl⟩
  | doorbell cause curTxHead left packet hat htx hpoint => rw [htx]; exact ⟨rfl, rfl⟩
  | reclaim cause curTxHead txIndex hat hne hstatus htx hpoint => rw [htx]; exact ⟨rfl, rfl⟩
  | skip cause curTxHead txIndex hat hne hstatus htx hpoint => rw [htx]; exact ⟨rfl, rfl⟩
  | finish cause curTxHead hat htx hpoint => rw [htx]; exact ⟨rfl, rfl⟩

/-- The length of the packet that a step puts on the queue. -/
def Action.sent : Action → List Nat
  | .send len => [len]
  | _ => []

theorem given_step (h : Given s.tx lens) (hstep : step s a = some s') :
    Given s'.tx (lens ++ a.sent) := by
  cases a with
  | send len =>
      simp only [step, Option.some.injEq] at hstep
      subst hstep
      exact h.send len
  | _ =>
      obtain ⟨hqueued, hnext⟩ := enqueued_step hstep (fun len hc => by cases hc)
      show Given s'.tx (lens ++ [])
      rw [List.append_nil]
      exact ⟨hqueued.trans h.queued, hnext.trans h.next⟩

/-! ### Frames -/

/-- The message a frame is put on the handler queue with. -/
def message (id : Nat) (frame : Bytes) : RawPacket := ⟨id, Buffer.new frame⟩

/-- Every message on the handler queue has the card's id and a buffer made for its frame. -/
def Labelled (s : Card) : Prop :=
  s.rx.delivered = (s.rx.delivered.map RawPacket.frame).map (message s.id)

theorem driver_id (h : s.driver = some s') : s'.id = s.id := by
  unfold Card.driver at h
  grind

theorem step_id (h : step s a = some s') : s'.id = s.id := by
  cases a with
  | driver => exact driver_id h
  | _ =>
      simp only [step, Card.interrupt] at h
      grind

/-- A step puts nothing on the handler queue, or the oldest frame that is not there yet. -/
theorem delivered_step (hinv : RxInv s.rx s.point) (h : step s a = some s') :
    s'.rx.delivered = s.rx.delivered ∨
      ∃ frame ∈ s.rx.arrived, s'.rx.delivered = s.rx.delivered ++ [message s.id frame] := by
  rcases step_rx h with ⟨frame, bits, hne, hlen, hrx, hpoint⟩ | ⟨cause, hat, hdd, hrx, hpoint⟩
    | ⟨cause, desc, hat, hrx, hpoint⟩ | ⟨cause, desc, hat, hrx, hpoint⟩ | ⟨cause, hat, hrx, hpoint⟩
    | ⟨cause, oldRx, hat, hrx, hpoint⟩ | ⟨hrx, hpoint⟩ | ⟨hrx, hat, hpoint⟩
  · exact Or.inl (by rw [hrx]; rfl)
  · exact Or.inl (by rw [hrx])
  · rw [hat] at hinv
    refine Or.inr ⟨s.rx.frame s.rx.curRx, ?_, ?_⟩
    · rw [← hinv.head]
      simp
    · rw [hrx, hinv.read cause desc (Or.inl rfl)]
      rfl
  · exact Or.inl (by rw [hrx]; rfl)
  · exact Or.inl (by rw [hrx])
  · exact Or.inl (by rw [hrx])
  · exact Or.inl (by rw [hrx])
  · exact Or.inl (by rw [hrx])

theorem frame_message {id : Nat} {frame : Bytes} (h : frame.length ≤ 2048) :
    (message id frame).frame = frame := Buffer.take_new h

theorem labelled_step (hinv : RxInv s.rx s.point) (h : Labelled s) (hstep : step s a = some s') :
    Labelled s' := by
  unfold Labelled at h ⊢
  rw [step_id hstep]
  rcases delivered_step hinv hstep with heq | ⟨frame, hmem, heq⟩
  · rw [heq]
    exact h
  · rw [heq, List.map_append, List.map_append, ← h, List.map_singleton, List.map_singleton,
      frame_message (hinv.fits frame hmem)]

end Rucoonos.E1000
