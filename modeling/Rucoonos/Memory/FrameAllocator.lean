/-
The frame allocator: `src/memory.rs`.

The bootloader's memory map is a list of regions with bounds in bytes.  The allocator
walks the usable ones in steps of 4096 from their start, and hands out the frame each of
these addresses is in.  `PhysAddr::new` panics for an address of more than 52 bits, and
`nth` makes a frame out of every address it skips, so the walk cannot get past such an
address.
-/
import Rucoonos.Lib.Slice

namespace Rucoonos.Memory

open Slice

/-- `MemoryRegionKind`. -/
inductive MemoryRegionKind
  | usable
  | bootloader
  | unknownUefi (ty : UInt32)
  | unknownBios (ty : UInt32)
  deriving DecidableEq, Repr

/-- `MemoryRegion`: the bytes from `start` up to `endAddr`, two `u64`s. -/
structure MemoryRegion where
  start : Nat
  endAddr : Nat
  kind : MemoryRegionKind
  ordered : start ≤ endAddr
  bounded : endAddr < 2 ^ 64
  deriving DecidableEq

/-- `PhysFrame`, by its first address. -/
structure PhysFrame where
  startAddress : Nat
  deriving DecidableEq, Repr

/-- `PhysAddr::new`. -/
def PhysAddr.new (addr : Nat) : Exec Nat :=
  if addr < 2 ^ 52 then return addr else .error .assertion

/-- `PhysFrame::containing_address`. -/
def PhysFrame.containingAddress (addr : Nat) : PhysFrame := ⟨addr - addr % 4096⟩

/-- `BootInfoFrameAllocator`. -/
structure BootInfoFrameAllocator where
  memoryMap : List MemoryRegion
  next : Nat

def BootInfoFrameAllocator.init (memoryMap : List MemoryRegion) : BootInfoFrameAllocator :=
  ⟨memoryMap, 0⟩

/-- `(r.start..r.end).step_by(4096)`. -/
def MemoryRegion.stepBy (r : MemoryRegion) : List Nat :=
  (List.range ((r.endAddr - r.start + 4095) / 4096)).map fun k => r.start + 4096 * k

def usableRegions (memoryMap : List MemoryRegion) : List MemoryRegion :=
  memoryMap.filter fun r => r.kind = .usable

/-- The addresses the frames are made from. -/
def frameAddresses (memoryMap : List MemoryRegion) : List Nat :=
  (usableRegions memoryMap).flatMap MemoryRegion.stepBy

/-- `nth` of the frames of these addresses. -/
def nthFrame : List Nat → Nat → Exec (Option PhysFrame)
  | [], _ => return none
  | addr :: _, 0 => do
      let addr ← PhysAddr.new addr
      return some (.containingAddress addr)
  | addr :: rest, n + 1 => do
      let _skipped ← PhysAddr.new addr
      nthFrame rest n

/-- `allocate_frame`. -/
def BootInfoFrameAllocator.allocateFrame (a : BootInfoFrameAllocator) :
    Exec (Option PhysFrame × BootInfoFrameAllocator) := do
  let frame ← nthFrame (frameAddresses a.memoryMap) a.next
  if a.next + 1 < 2 ^ 64 then
    return (frame, { a with next := a.next + 1 })
  else .error .overflow

/-- So many calls of `allocate_frame`, with what they return. -/
def BootInfoFrameAllocator.allocateFrames (a : BootInfoFrameAllocator) :
    Nat → Exec (List (Option PhysFrame) × BootInfoFrameAllocator)
  | 0 => return ([], a)
  | n + 1 => do
      let (frames, a) ← a.allocateFrames n
      let (frame, a) ← a.allocateFrame
      return (frames ++ [frame], a)

end Rucoonos.Memory
