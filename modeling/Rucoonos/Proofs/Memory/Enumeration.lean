/-
Which frames the allocator enumerates.

Each call walks the usable regions from the start and takes one frame further on than
the last one did, so the calls in all are one pass over the regions.  `pageFrames` is
that pass said without the walk: the page frames of the usable regions, region after
region.  It can only be cut short by an address that `PhysAddr::new` refuses, or by the
counter of the calls.
-/
import Rucoonos.Proofs.Memory.Frames

namespace Rucoonos.Memory

open Slice

/-! ### The page frames -/

/-- The page frames of a region, in ascending order. -/
def MemoryRegion.pages (r : MemoryRegion) : List PhysFrame :=
  (List.range' ((r.start + 4095) / 4096) (r.endAddr / 4096 - (r.start + 4095) / 4096)).map
    fun k => ⟨4096 * k⟩

/-- The page frames of the usable regions, in the order of the map. -/
def pageFrames (memoryMap : List MemoryRegion) : List PhysFrame :=
  (usableRegions memoryMap).flatMap MemoryRegion.pages

/-- Both bounds of the region are frame boundaries. -/
def MemoryRegion.OnBoundaries (r : MemoryRegion) : Prop :=
  4096 ∣ r.start ∧ 4096 ∣ r.endAddr

instance instDecidableOnBoundaries (r : MemoryRegion) : Decidable r.OnBoundaries :=
  inferInstanceAs (Decidable (_ ∧ _))

/-- They are the frames of the machine that lie in the region, each once. -/
theorem MemoryRegion.mem_pages {r : MemoryRegion} {frame : PhysFrame} :
    frame ∈ r.pages ↔ frame.startAddress % 4096 = 0 ∧ r.Holds frame := by
  unfold MemoryRegion.pages MemoryRegion.Holds
  simp only [List.mem_map, List.mem_range'_1]
  constructor
  · rintro ⟨k, hk, rfl⟩
    show 4096 * k % 4096 = 0 ∧ r.start ≤ 4096 * k ∧ 4096 * k + 4096 ≤ r.endAddr
    omega
  · rintro ⟨hmod, hstart, hend⟩
    refine ⟨frame.startAddress / 4096, by omega, ?_⟩
    show PhysFrame.mk (4096 * (frame.startAddress / 4096)) = ⟨frame.startAddress⟩
    rw [Nat.mul_div_cancel' (Nat.dvd_of_mod_eq_zero hmod)]

theorem MemoryRegion.nodup_pages (r : MemoryRegion) : r.pages.Nodup := by
  unfold MemoryRegion.pages
  refine List.Nodup.map ?_ List.nodup_range'
  intro i j hij
  have h := congrArg PhysFrame.startAddress hij
  change 4096 * i = 4096 * j at h
  omega

theorem nodup_pageFrames {memoryMap : List MemoryRegion}
    (hapart : memoryMap.Pairwise MemoryRegion.Apart) : (pageFrames memoryMap).Nodup := by
  rw [pageFrames, List.nodup_flatMap]
  refine ⟨fun r _ => r.nodup_pages, ?_⟩
  refine (hapart.filter _).imp fun {r r'} happart frame hframe hframe' => ?_
  have h := (MemoryRegion.mem_pages.mp hframe).2
  have h' := (MemoryRegion.mem_pages.mp hframe').2
  unfold MemoryRegion.Apart at happart
  unfold MemoryRegion.Holds at h h'
  omega

theorem mem_pageFrames {memoryMap : List MemoryRegion} {frame : PhysFrame} :
    frame ∈ pageFrames memoryMap ↔
      ∃ r ∈ memoryMap, r.kind = .usable ∧ frame.startAddress % 4096 = 0 ∧ r.Holds frame := by
  rw [pageFrames, List.mem_flatMap]
  simp only [mem_usableRegions, MemoryRegion.mem_pages, and_assoc]

/-- The walk over an aligned region meets its page frames. -/
theorem MemoryRegion.stepBy_eq {r : MemoryRegion} (h : r.OnBoundaries) :
    r.stepBy = r.pages.map PhysFrame.startAddress := by
  have hord := r.ordered
  obtain ⟨⟨i, hi⟩, ⟨j, hj⟩⟩ := h
  have hcount : (r.endAddr - r.start + 4095) / 4096
      = r.endAddr / 4096 - (r.start + 4095) / 4096 := by omega
  unfold MemoryRegion.stepBy MemoryRegion.pages
  rw [hcount, List.range'_eq_map_range, List.map_map, List.map_map]
  refine List.map_congr_left fun k _ => ?_
  show r.start + 4096 * k = 4096 * ((r.start + 4095) / 4096 + k)
  omega

theorem frameAddresses_eq {memoryMap : List MemoryRegion} (h : ∀ r ∈ memoryMap, r.OnBoundaries) :
    frameAddresses memoryMap = (pageFrames memoryMap).map PhysFrame.startAddress := by
  unfold frameAddresses pageFrames
  rw [List.map_flatMap]
  refine List.flatMap_congr fun r hr => MemoryRegion.stepBy_eq (h r ?_)
  exact (mem_usableRegions.mp hr).1

/-- The frame of an address that starts one. -/
theorem containingAddress_of_mem {memoryMap : List MemoryRegion} {frame : PhysFrame}
    (h : frame ∈ pageFrames memoryMap) : .containingAddress frame.startAddress = frame := by
  obtain ⟨r, -, -, hmod, -⟩ := mem_pageFrames.mp h
  show PhysFrame.mk (frame.startAddress - frame.startAddress % 4096) = ⟨frame.startAddress⟩
  rw [hmod, Nat.sub_zero]

theorem frame_of_address {memoryMap : List MemoryRegion} (h : ∀ r ∈ memoryMap, r.OnBoundaries) (i : Nat) :
    (frameAddresses memoryMap)[i]?.map PhysFrame.containingAddress = (pageFrames memoryMap)[i]? := by
  rw [frameAddresses_eq h, List.getElem?_map, Option.map_map]
  cases hi : (pageFrames memoryMap)[i]? with
  | none => rfl
  | some frame => exact congrArg some (containingAddress_of_mem (List.mem_of_getElem? hi))

/--
**The allocator enumerates usable memory.**  On every map of aligned regions that are
apart, the first `n` calls return the first `n` page frames of the usable regions in the
order of the map, and nothing from then on, exactly when `n` is a `usize` and these
frames are below the 52 bits of a physical address; otherwise one of the calls panics.
The enumeration has every page frame of every usable region once.
-/
theorem frames_enumerated_iff (memoryMap : List MemoryRegion) (n : Nat)
    (haligned : ∀ r ∈ memoryMap, r.OnBoundaries) (hapart : memoryMap.Pairwise MemoryRegion.Apart) :
    ((BootInfoFrameAllocator.init memoryMap).allocateFrames n
          = .ok ((List.range n).map fun i => (pageFrames memoryMap)[i]?, ⟨memoryMap, n⟩) ↔
        n < 2 ^ 64 ∧ ∀ frame ∈ (pageFrames memoryMap).take n, frame.startAddress < 2 ^ 52) ∧
      ((∃ panic, (BootInfoFrameAllocator.init memoryMap).allocateFrames n = .error panic) ↔
        ¬ (n < 2 ^ 64 ∧
          ∀ frame ∈ (pageFrames memoryMap).take n, frame.startAddress < 2 ^ 52)) ∧
      (pageFrames memoryMap).Nodup ∧
      ∀ frame, frame ∈ pageFrames memoryMap ↔
        ∃ r ∈ memoryMap, r.kind = .usable ∧ frame.startAddress % 4096 = 0 ∧ r.Holds frame := by
  have hreturns : ∀ frames a,
      (BootInfoFrameAllocator.init memoryMap).allocateFrames n = .ok (frames, a) ↔
        (n < 2 ^ 64 ∧ ∀ frame ∈ (pageFrames memoryMap).take n, frame.startAddress < 2 ^ 52) ∧
          frames = ((List.range n).map fun i => (pageFrames memoryMap)[i]?) ∧
          a = ⟨memoryMap, n⟩ := by
    intro frames a
    rw [allocateFrames_eq_ok_iff]
    simp only [frame_of_address haligned]
    rw [frameAddresses_eq haligned, ← List.map_take, List.forall_mem_map, and_assoc]
  refine ⟨(hreturns _ _).trans (and_iff_left ⟨rfl, rfl⟩), ⟨?_, fun hnot => ?_⟩,
    nodup_pageFrames hapart, fun frame => mem_pageFrames⟩
  · rintro ⟨panic, hpanic⟩ hreach
    rw [(hreturns _ _).mpr ⟨hreach, rfl, rfl⟩] at hpanic
    cases hpanic
  · cases hrun : (BootInfoFrameAllocator.init memoryMap).allocateFrames n with
    | error panic => exact ⟨panic, rfl⟩
    | ok r => exact absurd ((hreturns r.1 r.2).mp hrun).1 hnot

/-- A frame, an empty region, one that is not usable, and two frames. -/
def scattered : List MemoryRegion :=
  [⟨0x1000, 0x2000, .usable, by decide, by decide⟩, ⟨0x3000, 0x3000, .usable, by decide, by decide⟩,
    ⟨0x5000, 0x7000, .bootloader, by decide, by decide⟩,
    ⟨0x8000, 0xa000, .usable, by decide, by decide⟩]

theorem scattered_enumerated :
    (∀ r ∈ scattered, r.OnBoundaries) ∧
      (BootInfoFrameAllocator.init scattered).allocateFrames 5
        = .ok ([some ⟨0x1000⟩, some ⟨0x8000⟩, some ⟨0x9000⟩, none, none], ⟨scattered, 5⟩) :=
  ⟨by decide, (frames_enumerated_iff scattered 5 (by decide) (by decide)).1.mpr (by decide)⟩

/-- A frame past the 52 bits of a physical address. -/
def pastPhysical : List MemoryRegion :=
  [⟨2 ^ 52, 2 ^ 52 + 0x1000, .usable, by decide, by decide⟩]

theorem pastPhysical_panics :
    (∀ r ∈ pastPhysical, r.OnBoundaries) ∧ pageFrames pastPhysical = [⟨2 ^ 52⟩] ∧
      (BootInfoFrameAllocator.init pastPhysical).allocateFrame = .error .assertion :=
  ⟨by decide, by decide, rfl⟩

end Rucoonos.Memory
