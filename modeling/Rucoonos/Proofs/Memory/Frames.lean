/-
Which frames are safe to hand out.

The frames come from the addresses of the usable regions, up to the first address that
`PhysAddr::new` refuses: `allocateFrames_ok` says which call returns which of them.  What
remains is a matter of the regions alone.  A frame lies in the region of its address as
long as the region starts and ends at a frame boundary, and if one does not, the frame of
its first or its last address sticks out of it (`frames_safe_iff`).
-/
import Rucoonos.Memory.FrameAllocator
import Mathlib.Data.Finset.Card
import Mathlib.Data.List.Nodup
import Mathlib.Data.List.Pairwise
import Mathlib.Data.List.TakeWhile

namespace Rucoonos.Memory

open Slice

/-! ### Regions -/

/-- The two regions have no byte in common. -/
def MemoryRegion.Apart (r r' : MemoryRegion) : Prop :=
  min r.endAddr r'.endAddr ≤ max r.start r'.start

instance (r r' : MemoryRegion) : Decidable (r.Apart r') := by
  unfold MemoryRegion.Apart
  infer_instance

def MemoryRegion.Contains (r : MemoryRegion) (addr : Nat) : Prop :=
  r.start ≤ addr ∧ addr < r.endAddr

/-- The frame lies in the region with all of its bytes. -/
def MemoryRegion.Holds (r : MemoryRegion) (frame : PhysFrame) : Prop :=
  r.start ≤ frame.startAddress ∧ frame.startAddress + 4096 ≤ r.endAddr

/-- However often the allocator is called, every frame it returns lies in one usable region,
and none is returned twice. -/
def FramesSafe (memoryMap : List MemoryRegion) : Prop :=
  ∀ n frames a, (BootInfoFrameAllocator.init memoryMap).allocateFrames n = .ok (frames, a) →
    (∀ frame, some frame ∈ frames →
      ∃ r ∈ memoryMap, r.kind = .usable ∧ r.Holds frame) ∧
    (frames.filterMap id).Nodup

theorem mem_stepBy {r : MemoryRegion} {addr : Nat} :
    addr ∈ r.stepBy ↔ addr < r.endAddr ∧ ∃ k, addr = r.start + 4096 * k := by
  unfold MemoryRegion.stepBy
  simp only [List.mem_map, List.mem_range]
  constructor
  · rintro ⟨k, hk, rfl⟩
    exact ⟨by omega, k, rfl⟩
  · rintro ⟨hlt, k, rfl⟩
    exact ⟨k, by omega, rfl⟩

theorem contains_of_mem_stepBy {r : MemoryRegion} {addr : Nat} (h : addr ∈ r.stepBy) :
    r.Contains addr := by
  obtain ⟨hlt, k, rfl⟩ := mem_stepBy.mp h
  exact ⟨by omega, hlt⟩

theorem stepBy_ascending (r : MemoryRegion) : r.stepBy.Pairwise (· < ·) := by
  unfold MemoryRegion.stepBy
  rw [List.pairwise_map]
  exact List.pairwise_lt_range.imp fun h => by omega

instance : Std.Symm MemoryRegion.Apart where
  symm r r' h := by
    unfold MemoryRegion.Apart at h ⊢
    omega

/-- No address is in two regions. -/
theorem eq_of_contains {memoryMap : List MemoryRegion}
    (hapart : memoryMap.Pairwise MemoryRegion.Apart) {r r' : MemoryRegion} (hr : r ∈ memoryMap)
    (hr' : r' ∈ memoryMap) {addr : Nat} (h : r.Contains addr) (h' : r'.Contains addr) : r = r' := by
  by_contra hne
  have happart := hapart.forall hr hr' hne
  unfold MemoryRegion.Apart at happart
  unfold MemoryRegion.Contains at h h'
  omega

theorem mem_usableRegions {memoryMap : List MemoryRegion} {r : MemoryRegion} :
    r ∈ usableRegions memoryMap ↔ r ∈ memoryMap ∧ r.kind = .usable := by
  simp [usableRegions]

theorem nodup_frameAddresses {memoryMap : List MemoryRegion}
    (hapart : memoryMap.Pairwise MemoryRegion.Apart) : (frameAddresses memoryMap).Nodup := by
  rw [frameAddresses, List.nodup_flatMap]
  refine ⟨fun r _ => (stepBy_ascending r).imp Nat.ne_of_lt, ?_⟩
  refine (hapart.filter _).imp fun {r r'} happart addr haddr haddr' => ?_
  have h := contains_of_mem_stepBy haddr
  have h' := contains_of_mem_stepBy haddr'
  unfold MemoryRegion.Apart at happart
  unfold MemoryRegion.Contains at h h'
  omega

/-! ### What the allocator hands out -/

/-- `nth` returns when it gets past no address of more than 52 bits. -/
theorem nthFrame_eq_ok_iff {addrs : List Nat} {n : Nat} {frame : Option PhysFrame} :
    nthFrame addrs n = .ok frame ↔
      (∀ addr ∈ addrs.take (n + 1), addr < 2 ^ 52) ∧
        frame = addrs[n]?.map PhysFrame.containingAddress := by
  induction addrs generalizing n with
  | nil =>
      rw [nthFrame, pure_eq_ok, Except.ok.injEq]
      simp [eq_comm]
  | cons addr rest ih =>
      rw [List.take_succ_cons, List.forall_mem_cons]
      by_cases haddr : addr < 2 ^ 52
      · have hnew : PhysAddr.new addr = .ok addr := if_pos haddr
        cases n with
        | zero =>
            rw [nthFrame, hnew, ok_bind, pure_eq_ok, Except.ok.injEq]
            exact ⟨fun h => ⟨⟨haddr, by simp⟩, h.symm⟩, fun h => h.2.symm⟩
        | succ n =>
            rw [nthFrame, hnew, ok_bind, ih, List.getElem?_cons_succ]
            simp only [haddr, true_and]
      · have hnew : PhysAddr.new addr = .error .assertion := if_neg haddr
        refine iff_of_false ?_ (fun h => haddr h.1.1)
        cases n with
        | zero =>
            rw [nthFrame, hnew, error_bind]
            exact fun h => by cases h
        | succ n =>
            rw [nthFrame, hnew, error_bind]
            exact fun h => by cases h

/-- The addresses that the walk gets to. -/
def handedOut (memoryMap : List MemoryRegion) : List Nat :=
  (frameAddresses memoryMap).takeWhile fun addr => addr < 2 ^ 52

section Calls

variable {memoryMap : List MemoryRegion}

/-- Where no address is refused, the walk gets to all of them. -/
theorem handedOut_getElem? {n i : Nat}
    (h : ∀ addr ∈ (frameAddresses memoryMap).take n, addr < 2 ^ 52) (hi : i < n) :
    (handedOut memoryMap)[i]? = (frameAddresses memoryMap)[i]? := by
  have htake : (handedOut memoryMap).take n = (frameAddresses memoryMap).take n := by
    rw [handedOut, List.take_takeWhile, List.takeWhile_eq_self_iff]
    exact fun addr haddr => decide_eq_true (h addr haddr)
  rw [← List.getElem?_take_of_lt hi, htake, List.getElem?_take_of_lt hi]

/-- No address that the walk gets to is refused. -/
theorem below_of_le {n : Nat} (h : n ≤ (handedOut memoryMap).length) :
    ∀ addr ∈ (frameAddresses memoryMap).take n, addr < 2 ^ 52 := by
  obtain ⟨rest, hrest⟩ : handedOut memoryMap <+: frameAddresses memoryMap := List.takeWhile_prefix _
  rw [← hrest, List.take_append_of_le_length h]
  intro addr haddr
  simpa using List.mem_takeWhile_imp (List.mem_of_mem_take haddr)

/-- What a call returns, and when it does. -/
theorem allocateFrame_eq_ok_iff {n : Nat} {frame : Option PhysFrame} {a : BootInfoFrameAllocator} :
    (⟨memoryMap, n⟩ : BootInfoFrameAllocator).allocateFrame = .ok (frame, a) ↔
      n + 1 < 2 ^ 64 ∧ (∀ addr ∈ (frameAddresses memoryMap).take (n + 1), addr < 2 ^ 52) ∧
        frame = (frameAddresses memoryMap)[n]?.map PhysFrame.containingAddress ∧
        a = ⟨memoryMap, n + 1⟩ := by
  simp only [BootInfoFrameAllocator.allocateFrame, bind_eq_ok, nthFrame_eq_ok_iff]
  constructor
  · rintro ⟨frame', ⟨hlow, rfl⟩, h⟩
    split at h
    · rename_i hn
      cases h
      exact ⟨hn, hlow, rfl, rfl⟩
    · cases h
  · rintro ⟨hn, hlow, rfl, rfl⟩
    exact ⟨_, ⟨hlow, rfl⟩, if_pos hn⟩

theorem allocateFrame_ok {n : Nat} {frame : Option PhysFrame} {a : BootInfoFrameAllocator}
    (h : (⟨memoryMap, n⟩ : BootInfoFrameAllocator).allocateFrame = .ok (frame, a)) :
    a = ⟨memoryMap, n + 1⟩ ∧ frame = (handedOut memoryMap)[n]?.map .containingAddress := by
  obtain ⟨-, hlow, rfl, rfl⟩ := allocateFrame_eq_ok_iff.mp h
  exact ⟨rfl, by rw [handedOut_getElem? hlow (Nat.lt_succ_self n)]⟩

theorem allocateFrame_of_lt {n : Nat} (h : n < (handedOut memoryMap).length) (hn : n + 1 < 2 ^ 64) :
    (⟨memoryMap, n⟩ : BootInfoFrameAllocator).allocateFrame
      = .ok (some (.containingAddress (handedOut memoryMap)[n]), ⟨memoryMap, n + 1⟩) := by
  have hlow := below_of_le h
  refine allocateFrame_eq_ok_iff.mpr ⟨hn, hlow, ?_, rfl⟩
  rw [← handedOut_getElem? hlow (Nat.lt_succ_self n), List.getElem?_eq_getElem h]
  rfl

/-- What so many calls return, and when they do. -/
theorem allocateFrames_eq_ok_iff {n : Nat} {frames : List (Option PhysFrame)}
    {a : BootInfoFrameAllocator} :
    (BootInfoFrameAllocator.init memoryMap).allocateFrames n = .ok (frames, a) ↔
      n < 2 ^ 64 ∧ (∀ addr ∈ (frameAddresses memoryMap).take n, addr < 2 ^ 52) ∧
        frames = ((List.range n).map fun i =>
          (frameAddresses memoryMap)[i]?.map PhysFrame.containingAddress) ∧
        a = ⟨memoryMap, n⟩ := by
  induction n generalizing frames a with
  | zero =>
      rw [BootInfoFrameAllocator.allocateFrames, pure_eq_ok, Except.ok.injEq, Prod.mk.injEq]
      simp [eq_comm, BootInfoFrameAllocator.init]
  | succ n ih =>
      simp only [BootInfoFrameAllocator.allocateFrames, bind_eq_ok, Prod.exists, ih]
      constructor
      · rintro ⟨before, a₁, ⟨hn, hlow, rfl, rfl⟩, frame, a₂, hlast, h⟩
        obtain ⟨hn', hlow', rfl, rfl⟩ := allocateFrame_eq_ok_iff.mp hlast
        cases h
        refine ⟨hn', hlow', ?_, rfl⟩
        rw [List.range_succ, List.map_append]
        rfl
      · rintro ⟨hn, hlow, rfl, rfl⟩
        refine ⟨_, _, ⟨by omega, fun addr haddr => hlow addr ?_, rfl, rfl⟩, _, _,
          allocateFrame_eq_ok_iff.mpr ⟨hn, hlow, rfl, rfl⟩, ?_⟩
        · exact List.take_subset_take_left _ (Nat.le_succ n) haddr
        · rw [List.range_succ, List.map_append]
          rfl

/-- The call numbered `i` returns the frame of the `i`-th address. -/
theorem allocateFrames_ok {n : Nat} {frames : List (Option PhysFrame)} {a : BootInfoFrameAllocator}
    (h : (BootInfoFrameAllocator.init memoryMap).allocateFrames n = .ok (frames, a)) :
    a = ⟨memoryMap, n⟩ ∧
      frames = (List.range n).map fun i => (handedOut memoryMap)[i]?.map .containingAddress := by
  obtain ⟨-, hlow, rfl, rfl⟩ := allocateFrames_eq_ok_iff.mp h
  refine ⟨rfl, List.map_congr_left fun i hi => ?_⟩
  rw [handedOut_getElem? hlow (List.mem_range.mp hi)]

/-- The calls return as long as there are addresses. -/
theorem allocateFrames_of_le {n : Nat} (h : n ≤ (handedOut memoryMap).length) (hn : n < 2 ^ 64) :
    ∃ frames a, (BootInfoFrameAllocator.init memoryMap).allocateFrames n = .ok (frames, a) :=
  ⟨_, _, allocateFrames_eq_ok_iff.mpr ⟨hn, below_of_le h, rfl, rfl⟩⟩

theorem lt_of_mem_handedOut {addr : Nat} (h : addr ∈ handedOut memoryMap) : addr < 2 ^ 52 := by
  simpa using List.mem_takeWhile_imp h

/-- A single region gives all of its addresses. -/
theorem handedOut_single {r : MemoryRegion} (hkind : r.kind = .usable) (hend : r.endAddr ≤ 2 ^ 52) :
    handedOut [r] = r.stepBy := by
  have hregions : frameAddresses [r] = r.stepBy := by
    simp [frameAddresses, usableRegions, hkind]
  rw [handedOut, hregions, List.takeWhile_eq_self_iff]
  intro addr haddr
  have hlt := (mem_stepBy.mp haddr).1
  rw [decide_eq_true_iff]
  omega

theorem nodup_handedOut (hapart : memoryMap.Pairwise MemoryRegion.Apart) :
    (handedOut memoryMap).Nodup :=
  (nodup_frameAddresses hapart).sublist (List.takeWhile_sublist _)

/-- There are fewer addresses than `next` can count. -/
theorem length_handedOut (hapart : memoryMap.Pairwise MemoryRegion.Apart) :
    (handedOut memoryMap).length < 2 ^ 64 := by
  have hsub : (handedOut memoryMap).toFinset ⊆ Finset.range (2 ^ 52) := by
    intro addr haddr
    exact Finset.mem_range.mpr (lt_of_mem_handedOut (List.mem_toFinset.mp haddr))
  have hcard := Finset.card_le_card hsub
  rw [List.toFinset_card_of_nodup (nodup_handedOut hapart), Finset.card_range] at hcard
  omega

theorem filterMap_range_getElem? {A : Type} (l : List A) (n : Nat) :
    (List.range n).filterMap (fun i => l[i]?) = l.take n := by
  induction n with
  | zero => rfl
  | succ n ih =>
      rw [List.range_succ, List.filterMap_append, ih, List.take_add_one]
      cases h : l[n]? with
      | none => simp [h]
      | some a => simp [h]

/-- What is returned in all is the frames of the addresses. -/
theorem framesSafe_iff_handedOut (hapart : memoryMap.Pairwise MemoryRegion.Apart) :
    FramesSafe memoryMap ↔
      (∀ addr ∈ handedOut memoryMap,
        ∃ r ∈ memoryMap, r.kind = .usable ∧ r.Holds (.containingAddress addr)) ∧
      ((handedOut memoryMap).map PhysFrame.containingAddress).Nodup := by
  have hreturned : ∀ n, ((List.range n).map fun i =>
      (handedOut memoryMap)[i]?.map PhysFrame.containingAddress).filterMap id
        = ((handedOut memoryMap).take n).map .containingAddress := by
    intro n
    rw [List.filterMap_map, ← filterMap_range_getElem?, List.map_filterMap]
    rfl
  constructor
  · intro hsafe
    obtain ⟨frames, a, hrun⟩ := allocateFrames_of_le (Nat.le_refl _) (length_handedOut hapart)
    obtain ⟨hheld, hnodup⟩ := hsafe _ frames a hrun
    obtain ⟨-, rfl⟩ := allocateFrames_ok hrun
    rw [hreturned, List.take_length] at hnodup
    refine ⟨fun addr haddr => ?_, hnodup⟩
    obtain ⟨i, hi⟩ := List.getElem?_of_mem haddr
    refine hheld _ (List.mem_map.mpr ⟨i, ?_, ?_⟩)
    · exact List.mem_range.mpr (List.getElem?_eq_some_iff.mp hi).1
    · rw [hi]
      rfl
  · rintro ⟨hheld, hnodup⟩ n frames a hrun
    obtain ⟨-, rfl⟩ := allocateFrames_ok hrun
    refine ⟨fun frame hframe => ?_, ?_⟩
    · obtain ⟨i, -, hi⟩ := List.mem_map.mp hframe
      obtain ⟨addr, haddr, rfl⟩ := Option.map_eq_some_iff.mp hi
      exact hheld addr (List.mem_of_getElem? haddr)
    · rw [hreturned]
      exact hnodup.sublist ((List.take_sublist _ _).map _)

end Calls

/-! ### The regions the walk gets to -/

/-- The regions up to the first with an address that is refused. -/
def reached : List MemoryRegion → List MemoryRegion
  | [] => []
  | r :: rest => if r.stepBy.all (fun addr => addr < 2 ^ 52) then r :: reached rest else [r]

theorem mem_of_mem_reached {r : MemoryRegion} :
    ∀ {regions : List MemoryRegion}, r ∈ reached regions → r ∈ regions := by
  intro regions
  induction regions with
  | nil =>
      intro h
      exact h
  | cons first rest ih =>
      intro h
      rw [reached] at h
      split at h
      · exact (List.mem_cons.mp h).elim (fun h => h ▸ List.mem_cons_self)
          fun h => List.mem_cons_of_mem _ (ih h)
      · rw [List.mem_singleton.mp h]
        exact List.mem_cons_self

/-- In ascending order the addresses below a bound come first. -/
theorem mem_takeWhile_lt {b addr : Nat} : ∀ {l : List Nat}, l.Pairwise (· < ·) →
    (addr ∈ l.takeWhile (fun a => a < b) ↔ addr ∈ l ∧ addr < b) := by
  intro l
  induction l with
  | nil =>
      intro _
      simp
  | cons a rest ih =>
      intro h
      obtain ⟨hfirst, hrest⟩ := List.pairwise_cons.mp h
      by_cases ha : a < b
      · rw [List.takeWhile_cons_of_pos (by simpa using ha), List.mem_cons, ih hrest, List.mem_cons]
        constructor
        · rintro (rfl | ⟨hmem, hlt⟩)
          · exact ⟨.inl rfl, ha⟩
          · exact ⟨.inr hmem, hlt⟩
        · rintro ⟨rfl | hmem, hlt⟩
          · exact .inl rfl
          · exact .inr ⟨hmem, hlt⟩
      · rw [List.takeWhile_cons_of_neg (by simpa using ha)]
        simp only [List.not_mem_nil, false_iff, List.mem_cons, not_and]
        rintro (rfl | hmem)
        · exact ha
        · have hlt := hfirst addr hmem
          omega

theorem mem_takeWhile_flatMap {addr : Nat} : ∀ {regions : List MemoryRegion},
    addr ∈ (regions.flatMap MemoryRegion.stepBy).takeWhile (fun addr => addr < 2 ^ 52) ↔
      ∃ r ∈ reached regions, addr ∈ r.stepBy ∧ addr < 2 ^ 52 := by
  intro regions
  induction regions with
  | nil => simp [reached]
  | cons r rest ih =>
      rw [List.flatMap_cons, reached]
      by_cases hall : r.stepBy.all (fun addr => addr < 2 ^ 52) = true
      · rw [if_pos hall, List.takeWhile_append_of_pos (List.all_eq_true.mp hall), List.mem_append, ih]
        have hlt : addr ∈ r.stepBy → addr < 2 ^ 52 := fun h => by
          simpa using List.all_eq_true.mp hall addr h
        simp only [List.mem_cons, exists_eq_or_imp]
        tauto
      · have hcut : ¬ (r.stepBy.takeWhile fun addr => addr < 2 ^ 52).length = r.stepBy.length := by
          intro hlength
          have hself := (List.takeWhile_prefix (l := r.stepBy) _).eq_of_length hlength
          exact hall (List.all_eq_true.mpr (List.takeWhile_eq_self_iff.mp hself))
        rw [if_neg hall, List.takeWhile_append, if_neg hcut, mem_takeWhile_lt (stepBy_ascending r)]
        simp only [List.mem_singleton, exists_eq_left]

theorem mem_handedOut {memoryMap : List MemoryRegion} {addr : Nat} :
    addr ∈ handedOut memoryMap ↔
      ∃ r ∈ reached (usableRegions memoryMap), addr ∈ r.stepBy ∧ addr < 2 ^ 52 :=
  mem_takeWhile_flatMap

/-- The region starts at a frame boundary, and ends at one or past the physical address
space. -/
def MemoryRegion.Aligned (r : MemoryRegion) : Prop :=
  4096 ∣ r.start ∧ (4096 ∣ r.endAddr ∨ 2 ^ 52 ≤ r.endAddr)

instance (r : MemoryRegion) : Decidable r.Aligned := by
  unfold MemoryRegion.Aligned
  infer_instance

/-- In an aligned region the addresses are those of frames that lie in it. -/
theorem holds_of_aligned {r : MemoryRegion} (hr : r.Aligned) {addr : Nat} (h : addr ∈ r.stepBy)
    (hlt : addr < 2 ^ 52) :
    PhysFrame.containingAddress addr = ⟨addr⟩ ∧ r.Holds (.containingAddress addr) := by
  obtain ⟨hend, k, hk⟩ := mem_stepBy.mp h
  obtain ⟨⟨j, hj⟩, hr⟩ := hr
  have haligned : addr % 4096 = 0 := by omega
  have hframe : PhysFrame.containingAddress addr = ⟨addr⟩ := by
    rw [PhysFrame.containingAddress, haligned, Nat.sub_zero]
  refine ⟨hframe, ?_⟩
  rw [hframe]
  unfold MemoryRegion.Holds
  refine ⟨by show r.start ≤ addr; omega, ?_⟩
  show addr + 4096 ≤ r.endAddr
  rcases hr with ⟨i, hi⟩ | hr
  · omega
  · omega

/-- A region whose first and last addresses have their frames in it is aligned. -/
theorem aligned_of_holds {r : MemoryRegion} (hne : r.start < r.endAddr) (hstart : r.start < 2 ^ 52)
    (h : ∀ addr ∈ r.stepBy, addr < 2 ^ 52 → r.Holds (.containingAddress addr)) : r.Aligned := by
  have hfirst := h r.start (mem_stepBy.mpr ⟨hne, 0, rfl⟩) hstart
  have hdvd : r.start % 4096 = 0 := by
    have hle : r.start ≤ r.start - r.start % 4096 := hfirst.1
    omega
  refine ⟨Nat.dvd_of_mod_eq_zero hdvd, ?_⟩
  by_cases hend : 2 ^ 52 ≤ r.endAddr
  · exact .inr hend
  · -- The last address, if the region has a part of a frame left at its end.
    by_cases hlast : r.endAddr % 4096 = 0
    · exact .inl (Nat.dvd_of_mod_eq_zero hlast)
    · have hmem : r.endAddr - r.endAddr % 4096 ∈ r.stepBy :=
        mem_stepBy.mpr ⟨by omega, (r.endAddr - r.endAddr % 4096 - r.start) / 4096, by omega⟩
      have hheld := (h _ hmem (by omega)).2
      have hheld : r.endAddr - r.endAddr % 4096 - (r.endAddr - r.endAddr % 4096) % 4096 + 4096
          ≤ r.endAddr := hheld
      omega

/--
**When the frames are safe.**  For every memory map of regions that do not overlap, the
frames that any number of calls return lie in usable regions and are all different,
exactly if every usable region that the allocator gets to, and that is not empty, starts
and ends at a multiple of 4096.  (A region past the 52 bits of a physical address is cut
off there.)
-/
theorem frames_safe_iff (memoryMap : List MemoryRegion)
    (hapart : memoryMap.Pairwise MemoryRegion.Apart) :
    FramesSafe memoryMap ↔
      ∀ r ∈ reached (usableRegions memoryMap), r.start < r.endAddr → r.start < 2 ^ 52 →
        r.Aligned := by
  rw [framesSafe_iff_handedOut hapart]
  constructor
  · rintro ⟨hheld, -⟩ r hr hne hstart
    have husable := mem_usableRegions.mp (mem_of_mem_reached hr)
    refine aligned_of_holds hne hstart fun addr haddr hlt => ?_
    -- The region the frame lies in has the address in it, so it is `r` itself.
    obtain ⟨r', hr', -, hframe⟩ := hheld addr (mem_handedOut.mpr ⟨r, hr, haddr, hlt⟩)
    have hcontains : r'.Contains addr := by
      obtain ⟨hle, hend⟩ := hframe
      have hle : r'.start ≤ addr - addr % 4096 := hle
      have hend : addr - addr % 4096 + 4096 ≤ r'.endAddr := hend
      exact ⟨by omega, by omega⟩
    rw [eq_of_contains hapart husable.1 hr' (contains_of_mem_stepBy haddr) hcontains]
    exact hframe
  · intro haligned
    have hin : ∀ addr ∈ handedOut memoryMap, PhysFrame.containingAddress addr = ⟨addr⟩ ∧
        ∃ r ∈ memoryMap, r.kind = .usable ∧ r.Holds (.containingAddress addr) := by
      intro addr haddr
      obtain ⟨r, hr, hmem, hlt⟩ := mem_handedOut.mp haddr
      have hcontains := contains_of_mem_stepBy hmem
      have hr' := haligned r hr (Nat.lt_of_le_of_lt hcontains.1 hcontains.2)
        (Nat.lt_of_le_of_lt hcontains.1 hlt)
      obtain ⟨hmap, hkind⟩ := mem_usableRegions.mp (mem_of_mem_reached hr)
      obtain ⟨hframe, hholds⟩ := holds_of_aligned hr' hmem hlt
      exact ⟨hframe, r, hmap, hkind, hholds⟩
    refine ⟨fun addr haddr => (hin addr haddr).2, ?_⟩
    refine (nodup_handedOut hapart).map_on fun addr haddr addr' haddr' heq => ?_
    rw [(hin addr haddr).1, (hin addr' haddr').1] at heq
    exact PhysFrame.mk.inj heq

/-- A memory map as a BIOS reports it: low memory up to the extended BIOS data area, that
area, and some memory above the first megabyte. -/
def biosMap (lowEnd : Nat) (h : lowEnd ≤ 0xa0000) : List MemoryRegion :=
  [⟨0, lowEnd, .usable, by omega, by omega⟩,
    ⟨lowEnd, 0xa0000, .unknownBios 2, h, by omega⟩,
    ⟨0x100000, 0x110000, .usable, by omega, by omega⟩]

theorem frames_safe_iff_bios :
    (biosMap 0x9f000 (by decide)).Pairwise MemoryRegion.Apart ∧
      FramesSafe (biosMap 0x9f000 (by decide)) :=
  ⟨by decide, (frames_safe_iff _ (by decide)).mpr (by decide +kernel)⟩

/-- The low memory of a PC ends at 639 KiB.  The 160th frame has its last kilobyte in the
extended BIOS data area. -/
theorem bios_area_handed_out :
    (biosMap 0x9fc00 (by decide)).Pairwise MemoryRegion.Apart ∧
      ((BootInfoFrameAllocator.init (biosMap 0x9fc00 (by decide))).allocateFrames 160).map
          (fun (frames, _) => frames[159]?) = .ok (some (some ⟨0x9f000⟩)) ∧
      (∀ r ∈ biosMap 0x9fc00 (by decide), ¬ r.Holds ⟨0x9f000⟩) ∧
      ¬ FramesSafe (biosMap 0x9fc00 (by decide)) := by
  have hout : ∀ r ∈ biosMap 0x9fc00 (by decide), ¬ r.Holds ⟨0x9f000⟩ := by
    unfold MemoryRegion.Holds
    decide
  have hrun : ((BootInfoFrameAllocator.init (biosMap 0x9fc00 (by decide))).allocateFrames 160).map
      (fun (frames, _) => frames[159]?) = .ok (some (some ⟨0x9f000⟩)) := by
    decide +kernel
  refine ⟨by decide, hrun, hout, fun hsafe => ?_⟩
  cases hcalls : (BootInfoFrameAllocator.init (biosMap 0x9fc00 (by decide))).allocateFrames 160 with
  | error e =>
      rw [hcalls] at hrun
      cases hrun
  | ok returned =>
      rw [hcalls] at hrun
      have hlast := Except.ok.inj hrun
      obtain ⟨r, hr, -, hholds⟩ := (hsafe _ _ _ hcalls).1 _ (List.mem_of_getElem? hlast)
      exact hout r hr hholds

end Rucoonos.Memory
