/-
The waker of a task: the vtable functions of `kernel/src/task.rs`.

A waker is a raw pointer to a box with the run queue and the id of its task.  The boxes
are the entries of a store, and what the vtable functions do with their pointer is done
to the store.  Where the allocator puts a new box is its own choice, out of the addresses
without one.  A function that is given a pointer without a box has undefined behaviour,
which is `none` here.

The run queues are unbounded and never closed, so the `unwrap` of an enqueue is of no
consequence.
-/
import Rucoonos.Kernel.Executor
import Mathlib.Logic.Function.Basic

namespace Rucoonos.Waker

open Executor (TaskID)

/-- `InternalWaker`, with its run queue given by number. -/
structure InternalWaker where
  queue : Nat
  id : TaskID
  deriving DecidableEq, Repr

structure Store where
  boxes : Nat → Option InternalWaker
  queues : Nat → List TaskID

/-- `Box::into_raw(Box::new(..))`, with the box put at `ptr`. -/
def Store.intoRaw (s : Store) (ptr : Nat) (waker : InternalWaker) : Store :=
  { s with boxes := Function.update s.boxes ptr (some waker) }

/-- `Box::from_raw`, and the drop of the box. -/
def Store.fromRaw (s : Store) (ptr : Nat) : Option Store :=
  match s.boxes ptr with
  | none => none
  | some _ => some { s with boxes := Function.update s.boxes ptr none }

def Store.enqueue (s : Store) (waker : InternalWaker) : Store :=
  { s with queues := Function.update s.queues waker.queue (s.queues waker.queue ++ [waker.id]) }

/-- `InternalWaker::ptr_ref`. -/
def ptrRef (s : Store) (ptr : Nat) : Option InternalWaker := s.boxes ptr

/-- `create_waker`, with the place of the new box. -/
def createWaker (s : Store) (queue : Nat) (id : TaskID) (place : Nat) : Store :=
  s.intoRaw place ⟨queue, id⟩

/-- `clone`, with the place of the new box. -/
def clone (s : Store) (ptr place : Nat) : Option Store :=
  (ptrRef s ptr).map fun waker => s.intoRaw place ⟨waker.queue, waker.id⟩

/-- `wake`. -/
def wake (s : Store) (ptr : Nat) : Option Store := (ptrRef s ptr).map s.enqueue

/-- `wake_by_ref`. -/
def wakeByRef (s : Store) (ptr : Nat) : Option Store := (ptrRef s ptr).map s.enqueue

/-- `drop`. -/
def drop (s : Store) (ptr : Nat) : Option Store := s.fromRaw ptr

end Rucoonos.Waker
