/-
Which frame each page of the heap gets.

The frames for the pages and those for the tables come from one sequence.  The frame of
a page is therefore the one behind all those taken for the pages before it
(`initHeap_frameOf`), and two pages that follow one another have adjacent frames only if
nothing was taken in between and the sequence has no gap there.
-/
import Rucoonos.Memory.Heap
import Rucoonos.Proofs.Memory.Frames

namespace Rucoonos.Memory

open Slice

/-- The number of tables `map_to` creates for the page. -/
def OffsetPageTable.tables (t : OffsetPageTable) (page : Nat) : Nat :=
  match t.missing page with
  | .ok tables => tables
  | .error _ => 0

/-- The frames that are taken for the pages, with those for their tables. -/
def OffsetPageTable.framesFor (t : OffsetPageTable) (pages : List Nat) : Nat :=
  (pages.map fun page => 1 + t.tables page).sum

/-- The address of the frame for a page of the heap, from the memory map and the tables
that are missing. -/
def heapFrame (memoryMap : List MemoryRegion) (t : OffsetPageTable) (page : Nat) : Option Nat :=
  (handedOut memoryMap)[t.framesFor (List.range' (heapStart / 4096) (page - heapStart / 4096))]?.map
    fun addr => (PhysFrame.containingAddress addr).startAddress

theorem framesFor_cons (t : OffsetPageTable) (page : Nat) (rest : List Nat) :
    t.framesFor (page :: rest) = 1 + t.tables page + t.framesFor rest := rfl

/-- What is mapped does not matter for it. -/
theorem framesFor_update (t : OffsetPageTable) (mapped : Nat → Option PhysFrame)
    (pages : List Nat) : ({ t with mapped := mapped }).framesFor pages = t.framesFor pages := rfl

/-- Where no tables are missing it is one frame for each page. -/
theorem framesFor_eq_length {t : OffsetPageTable} : ∀ {pages : List Nat},
    (∀ page ∈ pages, t.tables page = 0) → t.framesFor pages = pages.length := by
  intro pages
  induction pages with
  | nil =>
      intro _
      rfl
  | cons page rest ih =>
      intro h
      rw [framesFor_cons, h page List.mem_cons_self,
        ih fun page hmem => h page (List.mem_cons_of_mem _ hmem), List.length_cons]
      omega

theorem createTables_ok {memoryMap : List MemoryRegion} {a : BootInfoFrameAllocator} :
    ∀ {n k : Nat}, createTables n ⟨memoryMap, k⟩ = .ok (some a) → a = ⟨memoryMap, k + n⟩ := by
  intro n
  induction n with
  | zero =>
      intro k h
      cases h
      rfl
  | succ n ih =>
      intro k h
      obtain ⟨⟨frame, a'⟩, hframe, h⟩ := bind_eq_ok.mp h
      obtain ⟨rfl, -⟩ := allocateFrame_ok hframe
      cases frame with
      | none => cases h
      | some frame =>
          rw [ih h, Nat.add_assoc, Nat.add_comm 1 n]

theorem mapTo_ok {t t' : OffsetPageTable} {page k : Nat} {frame : PhysFrame}
    {memoryMap : List MemoryRegion} {a : BootInfoFrameAllocator}
    (h : t.mapTo page frame ⟨memoryMap, k⟩ = .ok (.ok (t', a))) :
    t' = { t with mapped := Function.update t.mapped page (some frame) } ∧
      a = ⟨memoryMap, k + t.tables page⟩ := by
  unfold OffsetPageTable.mapTo at h
  unfold OffsetPageTable.tables
  cases hmissing : t.missing page with
  | error e =>
      rw [hmissing] at h
      cases h
  | ok tables =>
      rw [hmissing] at h
      obtain ⟨created, hcreated, h⟩ := bind_eq_ok.mp h
      cases created with
      | none => cases h
      | some a' =>
          cases h
          exact ⟨rfl, createTables_ok hcreated⟩

/-- One page after the other gets the next frame that is left; pages outside the range
keep theirs. -/
theorem mapPages_ok {memoryMap : List MemoryRegion} {t' : OffsetPageTable}
    {a : BootInfoFrameAllocator} : ∀ {n first k : Nat} {t : OffsetPageTable},
    mapPages (List.range' first n) t ⟨memoryMap, k⟩ = .ok (.ok (t', a)) →
      (∀ page, page < first → t'.mapped page = t.mapped page) ∧
      ∀ i, i < n → ∃ addr,
        (handedOut memoryMap)[k + t.framesFor (List.range' first i)]? = some addr ∧
        t'.mapped (first + i) = some (.containingAddress addr) := by
  intro n
  induction n with
  | zero =>
      intro first k t h
      cases h
      exact ⟨fun _ _ => rfl, fun i hi => absurd hi (Nat.not_lt_zero i)⟩
  | succ n ih =>
      intro first k t h
      rw [List.range'_succ] at h
      obtain ⟨⟨frame, a₁⟩, hframe, h⟩ := bind_eq_ok.mp h
      obtain ⟨rfl, hnext⟩ := allocateFrame_ok hframe
      cases frame with
      | none => cases h
      | some frame =>
          obtain ⟨result, hmap, h⟩ := bind_eq_ok.mp h
          cases result with
          | error e => cases h
          | ok result =>
              obtain ⟨t₁, a₁⟩ := result
              obtain ⟨rfl, rfl⟩ := mapTo_ok hmap
              obtain ⟨hkept, hmapped⟩ := ih h
              obtain ⟨addr, haddr, hcontaining⟩ := Option.map_eq_some_iff.mp hnext.symm
              refine ⟨fun page hpage => ?_, fun i hi => ?_⟩
              · rw [hkept page (by omega)]
                exact Function.update_of_ne (by omega) _ _
              · cases i with
                | zero =>
                    refine ⟨addr, haddr, ?_⟩
                    rw [hcontaining, Nat.add_zero, hkept first (by omega)]
                    exact Function.update_self _ _ _
                | succ i =>
                    obtain ⟨addr', haddr', hmapped'⟩ := hmapped i (by omega)
                    refine ⟨addr', ?_, ?_⟩
                    · rw [← haddr', List.range'_succ, framesFor_cons,
                        framesFor_update t (Function.update t.mapped first (some frame))]
                      congr 1
                      omega
                    · rw [← hmapped', Nat.add_assoc, Nat.add_comm 1 i]

/-- The pages of the heap are the 256 from its start. -/
theorem pageRange_heap :
    pageRange heapStart (heapStart + heapSize - 1) = List.range' (heapStart / 4096) 256 := by
  have hcount : (heapStart + heapSize - 1) / 4096 + 1 - heapStart / 4096 = 256 := by decide
  rw [pageRange, hcount]

theorem initHeap_frameOf {memoryMap : List MemoryRegion} {t t' : OffsetPageTable}
    {a : BootInfoFrameAllocator} (h : initHeap t (.init memoryMap) = .ok (.ok (t', a))) {page : Nat}
    (hfirst : heapStart / 4096 ≤ page) (hlast : page < heapStart / 4096 + 256) :
    t'.frameOf page = heapFrame memoryMap t page ∧ ∃ f, t'.frameOf page = some f ∧
      f % 4096 = 0 ∧ f < 2 ^ 52 := by
  rw [initHeap, pageRange_heap] at h
  obtain ⟨addr, haddr, hmapped⟩ := (mapPages_ok h).2 (page - heapStart / 4096) (by omega)
  rw [Nat.zero_add] at haddr
  rw [Nat.add_sub_cancel' hfirst] at hmapped
  have hframe : t'.frameOf page = some (addr - addr % 4096) := by
    rw [OffsetPageTable.frameOf, hmapped]
    rfl
  refine ⟨?_, addr - addr % 4096, hframe, by omega, ?_⟩
  · rw [hframe, heapFrame, haddr]
    rfl
  · have hlt := lt_of_mem_handedOut (List.mem_of_getElem? haddr)
    omega

/-! ### When `init_heap` succeeds -/

section Enough

variable {memoryMap : List MemoryRegion} (hcount : (handedOut memoryMap).length < 2 ^ 64)

include hcount

theorem createTables_of_le : ∀ {n k : Nat}, k + n ≤ (handedOut memoryMap).length →
    createTables n ⟨memoryMap, k⟩ = .ok (some ⟨memoryMap, k + n⟩) := by
  intro n
  induction n with
  | zero =>
      intro k _
      rfl
  | succ n ih =>
      intro k h
      rw [createTables, allocateFrame_of_lt (by omega) (by omega), ok_bind]
      show createTables n ⟨memoryMap, k + 1⟩ = _
      rw [ih (by omega), Nat.add_assoc, Nat.add_comm 1 n]

theorem mapPages_of_le : ∀ {pages : List Nat} {t : OffsetPageTable} {k : Nat},
    (∀ page ∈ pages, ∃ tables, t.missing page = .ok tables) →
    k + t.framesFor pages ≤ (handedOut memoryMap).length →
    ∃ t' a, mapPages pages t ⟨memoryMap, k⟩ = .ok (.ok (t', a)) := by
  intro pages
  induction pages with
  | nil =>
      intro t k _ _
      exact ⟨_, _, rfl⟩
  | cons page rest ih =>
      intro t k hmissing hle
      rw [framesFor_cons] at hle
      obtain ⟨tables, htables⟩ := hmissing page List.mem_cons_self
      have hneeded : t.tables page = tables := by rw [OffsetPageTable.tables, htables]
      rw [mapPages, allocateFrame_of_lt (by omega) (by omega), ok_bind]
      dsimp only
      rw [OffsetPageTable.mapTo, htables]
      dsimp only
      rw [createTables_of_le hcount (by omega)]
      exact ih (fun page hmem => hmissing page (List.mem_cons_of_mem _ hmem))
        (by rw [framesFor_update]; omega)

/-- There have to be enough frames for the pages and the tables, and no page may be refused. -/
theorem initHeap_of_le {t : OffsetPageTable} (hmissing : ∀ page, ∃ tables, t.missing page = .ok tables)
    (hle : t.framesFor (List.range' (heapStart / 4096) 256) ≤ (handedOut memoryMap).length) :
    ∃ t' a, initHeap t (.init memoryMap) = .ok (.ok (t', a)) := by
  rw [initHeap, pageRange_heap]
  exact mapPages_of_le hcount (fun page _ => hmissing page) (by rwa [Nat.zero_add])

end Enough

/-! ### A machine with one usable region -/

/-- Two megabytes from `start` on. -/
def oneRegion (start : Nat) (h : start + 0x200000 ≤ 2 ^ 52) : List MemoryRegion :=
  [⟨start, start + 0x200000, .usable, by omega, by omega⟩]

/-- Nothing of the heap is mapped yet, and for its first page so many tables are missing.
They serve for the rest of it. -/
def freshTables (n : Nat) : OffsetPageTable where
  mapped := fun _ => none
  missing := fun page => .ok (if page = heapStart / 4096 then n else 0)

section OneRegion

variable (start : Nat) (h : start + 0x200000 ≤ 2 ^ 52)

theorem handedOut_oneRegion :
    handedOut (oneRegion start h) = (List.range 512).map fun k => start + 4096 * k := by
  have hcount : (start + 0x200000 - start + 4095) / 4096 = 512 := by omega
  rw [oneRegion, handedOut_single rfl h]
  unfold MemoryRegion.stepBy
  dsimp only
  rw [hcount]

theorem framesFor_freshTables (n k : Nat) :
    (freshTables n).framesFor (List.range' (heapStart / 4096) k) = if k = 0 then 0 else k + n := by
  cases k with
  | zero => rfl
  | succ k =>
      have hrest : ∀ page ∈ List.range' (heapStart / 4096 + 1) k,
          (freshTables n).tables page = 0 := by
        intro page hpage
        have hne : page ≠ heapStart / 4096 := by
          have := (List.mem_range'_1.mp hpage).1
          omega
        simp only [OffsetPageTable.tables, freshTables, if_neg hne]
      rw [List.range'_succ, framesFor_cons, framesFor_eq_length hrest, List.length_range', if_neg (by omega)]
      have hfirst : (freshTables n).tables (heapStart / 4096) = n := by
        simp only [OffsetPageTable.tables, freshTables, if_true]
      omega

theorem initHeap_oneRegion {n : Nat} (hn : n ≤ 3) :
    ∃ t' a, initHeap (freshTables n) (.init (oneRegion start h)) = .ok (.ok (t', a)) := by
  have hlength : (handedOut (oneRegion start h)).length = 512 := by
    rw [handedOut_oneRegion, List.length_map, List.length_range]
  refine initHeap_of_le (by omega) (fun page => ⟨_, rfl⟩) ?_
  rw [framesFor_freshTables, if_neg (by decide)]
  omega

/-- Behind the first page there is a gap of as many frames as there were tables missing. -/
theorem heapFrame_oneRegion (hstart : start % 4096 = 0) {n k : Nat} (hlt : k + n < 512) :
    heapFrame (oneRegion start h) (freshTables n) (heapStart / 4096 + k)
      = some (start + 4096 * if k = 0 then 0 else k + n) := by
  have hlt' : (if k = 0 then 0 else k + n) < 512 := by
    split
    · omega
    · exact hlt
  rw [heapFrame, Nat.add_sub_cancel_left, framesFor_freshTables, handedOut_oneRegion,
    List.getElem?_map, List.getElem?_range hlt']
  simp only [Option.map_some, PhysFrame.containingAddress, Option.some.injEq]
  omega

end OneRegion

end Rucoonos.Memory
