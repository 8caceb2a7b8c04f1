/-
The interrupt descriptor table: `src/interrupts.rs`.

`IDT` holds the table in use, which is the static one at first.  `set_interrupt` makes a
copy of it with one entry changed, puts the copy on the heap in its place, has the
processor load it, lets the line through at the interrupt controllers, and frees the table
that was there before.  The call is cut wherever memory, the processor or the controllers
change.  Interrupts are off in most of it, but an exception may strike between any two
steps, and goes through the table that the processor has loaded.

The heap hands out any address that is free.  A step is not defined where the source
panics, and where it would read or free memory that is not there.
-/
import Mathlib.Logic.Function.Basic

namespace Rucoonos.Idt

/-- The functions that stand in a table. -/
inductive Handler
  | breakpointHandler
  | doubleFaultHandler
  | pageFaultHandler
  | generalProtectionHandler
  | timerInterruptHandler
  | keyboardInterruptHandler
  | networkInterrupt
  | other (n : Nat)
  deriving DecidableEq, Repr

/-- `InterruptDescriptorTable`. -/
def Table : Type := Nat → Option Handler

def pic1Offset : Nat := 0x20

/-- `INITIAL_IDT`. -/
def initialIdt : Table
  | 3 => some .breakpointHandler
  | 8 => some .doubleFaultHandler
  | 13 => some .generalProtectionHandler
  | 14 => some .pageFaultHandler
  | 32 => some .timerInterruptHandler
  | 33 => some .keyboardInterruptHandler
  | _ => none

/-- The entries that `n_idt[line]` gives access to; it panics for the others. -/
def hasEntry (line : Nat) : Bool :=
  line ∈ [0, 1, 2, 3, 4, 5, 6, 7, 9, 16, 19, 20] ∨ (32 ≤ line ∧ line ≤ 255)

inductive IDTStorage
  | initial
  | heaped (idt : Nat)
  deriving DecidableEq, Repr

/-- How far a call of `set_interrupt` has come. -/
inductive Point
  | idle
  /-- `n_idt` is changed. -/
  | changed (line : Nat) (nIdt : Table)
  /-- It is on the heap and in `IDT`. -/
  | replaced (line : Nat) (oldIdt : IDTStorage)
  /-- `writer.load()` has returned. -/
  | loaded (line : Nat) (oldIdt : IDTStorage)
  /-- The masks are written. -/
  | masked (oldIdt : IDTStorage)

structure Machine where
  heap : Nat → Option Table
  /-- `IDT`. -/
  storage : IDTStorage
  /-- The table that the processor has loaded. -/
  idtr : IDTStorage
  /-- The masks of the two controllers. -/
  masks : BitVec 8 × BitVec 8
  point : Point

/-- What is found behind a pointer to a table. -/
def Machine.read (m : Machine) : IDTStorage → Option Table
  | .initial => some initialIdt
  | .heaped idt => m.heap idt

/-- `Drop for IDTStorage`. -/
def Machine.drop (m : Machine) : IDTStorage → Option Machine
  | .initial => some m
  | .heaped idt =>
      match m.heap idt with
      | none => none
      | some _ => some { m with heap := Function.update m.heap idt none }

/-- `mask &= !(1 << i)`. -/
def clearBit (mask : BitVec 8) (i : Nat) : BitVec 8 := mask &&& ~~~(1#8 <<< i)

/-- The masks that `set_interrupt` writes. -/
def unmaskLine (prevMask : BitVec 8 × BitVec 8) (irqLine : Nat) : BitVec 8 × BitVec 8 :=
  if irqLine < 8 then (clearBit prevMask.1 irqLine, prevMask.2)
  else if irqLine < 16 then (prevMask.1, clearBit prevMask.2 (irqLine - 8))
  else prevMask

inductive Action
  | call (line : Nat) (entry : Handler)
  /-- The new table is put at `place`. -/
  | replace (place : Nat)
  | load
  | unmask
  | dropOld
  deriving DecidableEq, Repr

/-- `set_interrupt`, step by step. -/
def Machine.step (m : Machine) : Action → Option Machine
  | .call line entry =>
      match m.point with
      | .idle =>
          match m.read m.storage with
          | none => none
          | some nIdt =>
              if hasEntry line = true then
                some { m with point := .changed line (Function.update nIdt line (some entry)) }
              else none
      | _ => none
  | .replace place =>
      match m.point with
      | .changed line nIdt =>
          match m.heap place with
          | some _ => none
          | none => some { m with
              heap := Function.update m.heap place (some nIdt)
              storage := .heaped place
              point := .replaced line m.storage }
      | _ => none
  | .load =>
      match m.point with
      | .replaced line oldIdt => some { m with idtr := m.storage, point := .loaded line oldIdt }
      | _ => none
  | .unmask =>
      match m.point with
      | .loaded line oldIdt =>
          -- `line - PIC_1_OFFSET` is checked.
          if pic1Offset ≤ line then
            some { m with
              masks := unmaskLine m.masks (line - pic1Offset)
              point := .masked oldIdt }
          else none
      | _ => none
  | .dropOld =>
      match m.point with
      | .masked oldIdt => (m.drop oldIdt).map fun m => { m with point := .idle }
      | _ => none

/-- The machine after `init_idt`. -/
def Machine.start (masks : BitVec 8 × BitVec 8) : Machine :=
  ⟨fun _ => none, .initial, .initial, masks, .idle⟩

end Rucoonos.Idt
