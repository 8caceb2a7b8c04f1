/-
The heap of the kernel: `src/hardware/allocator.rs`.

`init_heap` asks for a frame for each page of the heap in turn and maps the page to it.
On its way down to the page `map_to` may find that tables are missing, and it takes the
frames for them from the same allocator.  How many there are for a page is a matter of
what the bootloader has mapped before, and is a parameter.
-/
import Rucoonos.Lib.Paging
import Rucoonos.Memory.FrameAllocator
import Mathlib.Logic.Function.Basic

namespace Rucoonos.Memory

open Slice

/-- `HEAP_START`. -/
def heapStart : Nat := 0x444444440000

/-- `HEAP_SIZE`. -/
def heapSize : Nat := 1 * 1024 * 1024

/-- `MapToError`. -/
inductive MapToError
  | frameAllocationFailed
  | parentEntryHugePage
  | pageAlreadyMapped (frame : PhysFrame)
  deriving DecidableEq, Repr

/-- `OffsetPageTable`: the frames of the pages that are mapped, and what `map_to` finds for
a page, an error or the number of tables that are missing. -/
structure OffsetPageTable where
  mapped : Nat → Option PhysFrame
  missing : Nat → Except MapToError Nat

/-- The addresses of the frames. -/
def OffsetPageTable.frameOf (t : OffsetPageTable) (page : Nat) : Option Nat :=
  (t.mapped page).map PhysFrame.startAddress

/-- `translate_addr`, for pages of 4 KiB. -/
def OffsetPageTable.translateAddr (t : OffsetPageTable) (virt : Nat) : Option Nat :=
  Paging.translate 4096 t.frameOf virt

/-- The frames for so many new tables; `none` if there are not enough. -/
def createTables : Nat → BootInfoFrameAllocator → Exec (Option BootInfoFrameAllocator)
  | 0, a => return some a
  | n + 1, a => do
      let (frame, a) ← a.allocateFrame
      match frame with
      | none => return none
      | some _ => createTables n a

/-- `map_to`. -/
def OffsetPageTable.mapTo (t : OffsetPageTable) (page : Nat) (frame : PhysFrame)
    (a : BootInfoFrameAllocator) :
    Exec (Except MapToError (OffsetPageTable × BootInfoFrameAllocator)) :=
  match t.missing page with
  | .error e => return .error e
  | .ok tables => do
      match ← createTables tables a with
      | none => return .error .frameAllocationFailed
      | some a => return .ok ({ t with mapped := Function.update t.mapped page (some frame) }, a)

/-- The loop of `init_heap`. -/
def mapPages : List Nat → OffsetPageTable → BootInfoFrameAllocator →
    Exec (Except MapToError (OffsetPageTable × BootInfoFrameAllocator))
  | [], t, a => return .ok (t, a)
  | page :: rest, t, a => do
      let (frame, a) ← a.allocateFrame
      match frame with
      | none => return .error .frameAllocationFailed
      | some frame =>
          match ← t.mapTo page frame a with
          | .error e => return .error e
          | .ok (t, a) => mapPages rest t a

/-- `Page::range_inclusive` of the pages of two addresses. -/
def pageRange (first last : Nat) : List Nat :=
  List.range' (first / 4096) (last / 4096 + 1 - first / 4096)

/-- `init_heap`. -/
def initHeap (t : OffsetPageTable) (a : BootInfoFrameAllocator) :
    Exec (Except MapToError (OffsetPageTable × BootInfoFrameAllocator)) :=
  mapPages (pageRange heapStart (heapStart + heapSize - 1)) t a

end Rucoonos.Memory
