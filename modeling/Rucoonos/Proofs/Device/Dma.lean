/-
When the card and the driver see the same memory.

Two things can go wrong.  The upper half of the address of the RX table is never
written, so the table has to lie below 4 GiB.  And the card goes on from the first byte
of a block, while the driver goes through the page table: where a block crosses into
another page, the frames of the two pages have to be adjacent.  `same_memory_along` says
that nothing else can, whatever packets are enqueued later.
-/
import Rucoonos.Device.Dma
import Rucoonos.Lib.Run
import Rucoonos.Proofs.Memory.Heap

namespace Rucoonos.Dma

open Slice Memory
open Pci (BaseAddressRegister)
open E1000 (rxDesc txDesc)

/-! ### What is to hold -/

/-- The card finds at `addr`, byte for byte, what the driver has at `virt`. -/
def Gives (t : OffsetPageTable) (addr virt size : Nat) : Prop :=
  ∀ i, i < size → t.translateAddr (virt + i) = some (addr + i)

/-- The registers hold the addresses of the tables, and the card finds the tables there. -/
structure SameTables (t : OffsetPageTable) (coms : Coms) (rxPtr txPtr : Nat) : Prop where
  rxBase : t.translateAddr rxPtr = some (coms.base regRxdeschi regRxdesclo)
  txBase : t.translateAddr txPtr = some (coms.base regTxdeschi regTxdesclo)
  rxTable : Gives t (coms.base regRxdeschi regRxdesclo) rxPtr ((rxDesc + 1) * 16)
  txTable : Gives t (coms.base regTxdeschi regTxdesclo) txPtr ((txDesc + 1) * 16)

/-- The card and the driver see the same tables and the same buffers. -/
structure SameMemory (t : OffsetPageTable) (p : Placement) (s : Card) : Prop where
  tables : SameTables t s.coms s.rxPtr s.txPtr
  rxBuffers : ∀ (i : Nat) buffer, p.rxBuffers[i]? = some buffer →
    ∃ desc : RxDesc, s.rxDescs[i]? = some desc ∧ Gives t desc.addr buffer.virt (2048 + 16)
  txBuffers : ∀ i, s.txBuffers i ≠ 0 → Gives t (s.txDescs i).addr (s.txBuffers i) 2048

/-! ### The condition -/

section Condition

variable (memoryMap : List MemoryRegion) (t : OffsetPageTable)

/-- At every page boundary inside the block the frames of the two pages are adjacent. -/
def Unbroken {size : Nat} (block : Block size) : Prop :=
  ∀ page, block.virt / 4096 ≤ page → page < (block.virt + size - 1) / 4096 →
    Paging.Adjacent 4096 (heapFrame memoryMap t) page

/-- The RX table lies below 4 GiB, and every block of `init` is unbroken. -/
structure WellPlaced (p : Placement) : Prop where
  low : ∀ f, heapFrame memoryMap t (p.rxTable.virt / 4096) = some f → f < 2 ^ 32
  rxTable : Unbroken memoryMap t p.rxTable.toBlock
  txTable : Unbroken memoryMap t p.txTable.toBlock
  rxBuffers : ∀ buffer ∈ p.rxBuffers, Unbroken memoryMap t buffer

/-- The packet is unbroken. -/
def PacketUnbroken (_ : Card) : Action → Prop
  | .enqueuePacket data _ => Unbroken memoryMap t data
  | .receivePacket _ => True
  | .reclaim _ => True

end Condition

/-! ### Blocks and their translations -/

section Blocks

variable {memoryMap : List MemoryRegion} {t t' : OffsetPageTable} {a : BootInfoFrameAllocator}
  {size : Nat}

theorem heapStart_pages : heapStart = 4096 * (heapStart / 4096) := by decide

/-- The pages of a block are pages of the heap. -/
theorem page_in_heap (block : Block size) (hsize : 0 < size) {page : Nat}
    (hfirst : block.virt / 4096 ≤ page) (hlast : page ≤ (block.virt + size - 1) / 4096) :
    heapStart / 4096 ≤ page ∧ page < heapStart / 4096 + 256 := by
  have hstart := heapStart_pages
  have hheap : heapSize = 4096 * 256 := by decide
  have hle := block.le_virt
  have hend := block.virt_le
  omega

/-- Every byte of the heap has a physical address, and the offset in the page is kept. -/
theorem translateAddr_block (hheap : initHeap t (.init memoryMap) = .ok (.ok (t', a)))
    (block : Block size) (hsize : 0 < size) :
    ∃ f, heapFrame memoryMap t (block.virt / 4096) = some f ∧ f % 4096 = 0 ∧ f < 2 ^ 52 ∧
      t'.translateAddr block.virt = some (f + block.virt % 4096) := by
  obtain ⟨hfirst, hlast⟩ := page_in_heap block hsize (Nat.le_refl _) (Nat.div_le_div_right (by omega))
  obtain ⟨hframe, f, hf, haligned, hlt⟩ := initHeap_frameOf hheap hfirst hlast
  exact ⟨f, hframe.symm.trans hf, haligned, hlt, Paging.translate_of_mapped hf⟩

/-- Where all frames of the heap are adjacent no block is broken. -/
theorem unbroken_of_adjacent
    (h : ∀ k, k < 255 → Paging.Adjacent 4096 (heapFrame memoryMap t) (heapStart / 4096 + k))
    (block : Block size) (hsize : 0 < size) : Unbroken memoryMap t block := by
  intro page hfirst hlast
  have hlo := (page_in_heap block hsize hfirst (Nat.le_of_lt hlast)).1
  have hhi := (page_in_heap block hsize (Nat.le_succ_of_le hfirst) hlast).2
  obtain ⟨k, rfl⟩ := Nat.exists_eq_add_of_le hlo
  exact h k (by omega)

/-- A block is given to the card in one piece exactly if it is unbroken. -/
theorem gives_iff_unbroken (hheap : initHeap t (.init memoryMap) = .ok (.ok (t', a)))
    {block : Block size} (hsize : 0 < size) {addr : Nat}
    (haddr : t'.translateAddr block.virt = some addr) :
    Gives t' addr block.virt size ↔ Unbroken memoryMap t block := by
  have hheapPage : ∀ page, block.virt / 4096 ≤ page → page ≤ (block.virt + size - 1) / 4096 →
      t'.frameOf page = heapFrame memoryMap t page ∧ ∃ f, t'.frameOf page = some f := by
    intro page hfirst hlast
    obtain ⟨hlo, hhi⟩ := page_in_heap block hsize hfirst hlast
    obtain ⟨hframe, f, hf, -⟩ := initHeap_frameOf hheap hlo hhi
    exact ⟨hframe, f, hf⟩
  have hlinear : Gives t' addr block.virt size ↔
      Paging.Linear 4096 t'.frameOf block.virt size := by
    constructor
    · intro h
      exact ⟨addr, haddr, h⟩
    · rintro ⟨addr', haddr', h⟩
      obtain rfl : addr' = addr := Option.some.inj (haddr'.symm.trans haddr)
      exact h
  rw [hlinear, Paging.linear_iff_adjacent (by decide) hsize
    (fun page hfirst hlast => (hheapPage page hfirst hlast).2)]
  refine forall_congr' fun page => forall_congr' fun hfirst => forall_congr' fun hlast => ?_
  rw [Paging.Adjacent, Paging.Adjacent, (hheapPage page hfirst (Nat.le_of_lt hlast)).1,
    (hheapPage (page + 1) (Nat.le_succ_of_le hfirst) hlast).1]

end Blocks

/-! ### The registers -/

section Registers

variable {address : UInt32} {prefetchable : Bool} {ty : UInt8}

theorem writeCommand_memory (regs : UInt16 → UInt32) (reg : UInt16) (value : UInt32) :
    Coms.writeCommand ⟨.memorySpace address prefetchable ty, regs⟩ reg value
      = .ok ⟨.memorySpace address prefetchable ty, Function.update regs reg value⟩ := rfl

/-- The registers after one write and the other. -/
def written (regs : UInt16 → UInt32) (commands : List (UInt16 × UInt32)) : UInt16 → UInt32 :=
  commands.foldl (fun regs (reg, value) => Function.update regs reg value) regs

theorem writeCommands_memory (commands : List (UInt16 × UInt32)) : ∀ regs : UInt16 → UInt32,
    Coms.writeCommands ⟨.memorySpace address prefetchable ty, regs⟩ commands
      = .ok ⟨.memorySpace address prefetchable ty, written regs commands⟩ := by
  induction commands with
  | nil =>
      intro regs
      rfl
  | cons command rest ih =>
      intro regs
      rw [Coms.writeCommands, writeCommand_memory, ok_bind]
      exact ih _

variable {bar : BaseAddressRegister} {regs : UInt16 → UInt32} {rx tx : Nat}

/-- The RX base is left with its lower half. -/
theorem rxBase_written :
    Coms.base ⟨bar, written (written regs (rxCommands rx)) (txCommands tx)⟩ regRxdeschi regRxdesclo
      = rx % 2 ^ 32 := by
  have hhi : written (written regs (rxCommands rx)) (txCommands tx) regRxdeschi = 0 := rfl
  have hlo : written (written regs (rxCommands rx)) (txCommands tx) regRxdesclo = .ofNat rx := rfl
  unfold Coms.base
  dsimp only
  rw [hhi, hlo, UInt32.toNat_ofNat']
  exact Nat.zero_add _

/-- The TX base has both, as they are written once more behind the RX base. -/
theorem txBase_written (htx : tx < 2 ^ 64) :
    Coms.base ⟨bar, written (written regs (rxCommands rx)) (txCommands tx)⟩ regTxdeschi regTxdesclo
      = tx := by
  have hhi : written (written regs (rxCommands rx)) (txCommands tx) regTxdeschi
      = .ofNat (tx >>> 32) := rfl
  have hlo : written (written regs (rxCommands rx)) (txCommands tx) regTxdesclo = .ofNat tx := rfl
  unfold Coms.base
  dsimp only
  rw [hhi, hlo, UInt32.toNat_ofNat', UInt32.toNat_ofNat', Nat.shiftRight_eq_div_pow]
  omega

end Registers

/-! ### `init` -/

theorem rxDescriptors_ok {t : OffsetPageTable} : ∀ {buffers : List (Block (2048 + 16))},
    (∀ buffer ∈ buffers, ∃ a, t.translateAddr buffer.virt = some a) →
    ∃ descs, rxDescriptors t buffers = .ok descs ∧
      ∀ (i : Nat) buffer, buffers[i]? = some buffer →
        ∃ desc : RxDesc, descs[i]? = some desc ∧ t.translateAddr buffer.virt = some desc.addr := by
  intro buffers
  induction buffers with
  | nil =>
      intro _
      exact ⟨[], rfl, fun i buffer hi => by cases hi⟩
  | cons first rest ih =>
      intro h
      obtain ⟨a, ha⟩ := h first List.mem_cons_self
      obtain ⟨descs, hdescs, hrest⟩ := ih fun buffer hmem => h buffer (List.mem_cons_of_mem _ hmem)
      refine ⟨⟨a, 0, 0⟩ :: descs, ?_, fun i buffer hi => ?_⟩
      · rw [rxDescriptors, ha, hdescs]
        rfl
      · cases i with
        | zero =>
            cases hi
            exact ⟨⟨a, 0, 0⟩, rfl, ha⟩
        | succ i => exact hrest i buffer hi

/-- What `init` leaves behind. -/
structure Initialised (t : OffsetPageTable) (p : Placement) (bar : BaseAddressRegister)
    (rx tx : Nat) (s : Card) : Prop where
  bar : s.coms.bar = bar
  rxPtr : s.rxPtr = p.rxTable.virt
  txPtr : s.txPtr = p.txTable.virt
  rxBase : s.coms.base regRxdeschi regRxdesclo = rx % 2 ^ 32
  txBase : s.coms.base regTxdeschi regTxdesclo = tx
  rxDescs : ∀ (i : Nat) buffer, p.rxBuffers[i]? = some buffer →
    ∃ desc : RxDesc, s.rxDescs[i]? = some desc ∧ t.translateAddr buffer.virt = some desc.addr
  txBuffers : ∀ i, s.txBuffers i = 0

theorem init_ok {t : OffsetPageTable} {p : Placement} {rx tx : Nat} {address : UInt32}
    {prefetchable : Bool} {ty : UInt8} {regs : UInt16 → UInt32}
    (hbuffers : ∀ buffer ∈ p.rxBuffers, ∃ a, t.translateAddr buffer.virt = some a)
    (hrx : t.translateAddr p.rxTable.virt = some rx)
    (htx : t.translateAddr p.txTable.virt = some tx) (hlt : tx < 2 ^ 64) :
    ∃ s, Card.init t ⟨.memorySpace address prefetchable ty, regs⟩ p = .ok s ∧
      Initialised t p (.memorySpace address prefetchable ty) rx tx s := by
  obtain ⟨descs, hdescs, hrxDescs⟩ := rxDescriptors_ok hbuffers
  have hinit : Card.init t ⟨.memorySpace address prefetchable ty, regs⟩ p = .ok
      { coms := ⟨.memorySpace address prefetchable ty,
          written (written (Function.update regs 0x0014 0x1) (rxCommands rx)) (txCommands tx)⟩
        rxPtr := p.rxTable.virt
        txPtr := p.txTable.virt
        rxDescs := descs
        txDescs := fun _ => ⟨0, 0, 0, E1000.tstaDd⟩
        curTx := 0
        curRx := 0
        rxBuffers := (p.rxBuffers.take rxDesc).map fun buffer => buffer.virt
        txBuffers := fun _ => 0 } := by
    rw [Card.init, writeCommand_memory, ok_bind, hdescs, ok_bind, hrx, htx]
    simp only [unwrap, ok_bind, writeCommands_memory]
    rfl
  exact ⟨_, hinit, rfl, rfl, rfl, rxBase_written, txBase_written hlt,
    hrxDescs, fun _ => rfl⟩

/-- With the heap mapped `init` returns. -/
theorem init_ends {memoryMap : List MemoryRegion} {t t' : OffsetPageTable}
    {a : BootInfoFrameAllocator} (hheap : initHeap t (.init memoryMap) = .ok (.ok (t', a)))
    (p : Placement) (address : UInt32) (prefetchable : Bool) (ty : UInt8) (regs : UInt16 → UInt32) :
    ∃ card rx tx, Card.init t' ⟨.memorySpace address prefetchable ty, regs⟩ p = .ok card ∧
      Initialised t' p (.memorySpace address prefetchable ty) rx tx card ∧
      t'.translateAddr p.rxTable.virt = some rx ∧ t'.translateAddr p.txTable.virt = some tx := by
  obtain ⟨rx, -, -, -, hrx⟩ := translateAddr_block hheap p.rxTable.toBlock (by decide)
  obtain ⟨tx, -, -, hlt, htx⟩ := translateAddr_block hheap p.txTable.toBlock (by decide)
  have hbuffers : ∀ buffer ∈ p.rxBuffers, ∃ a, t'.translateAddr buffer.virt = some a := by
    intro buffer _
    obtain ⟨f, -, -, -, haddr⟩ := translateAddr_block hheap buffer (by decide)
    exact ⟨_, haddr⟩
  obtain ⟨card, hcard, hinit⟩ := init_ok hbuffers hrx htx (by omega)
  exact ⟨card, _, _, hcard, hinit, hrx, htx⟩

/-- After `init` the memory is the same exactly if the blocks are well placed. -/
theorem sameMemory_init {memoryMap : List MemoryRegion} {t t' : OffsetPageTable}
    {a : BootInfoFrameAllocator} {p : Placement} {bar : BaseAddressRegister} {rx tx : Nat} {s : Card}
    (hheap : initHeap t (.init memoryMap) = .ok (.ok (t', a)))
    (hinit : Initialised t' p bar rx tx s) (hrx : t'.translateAddr p.rxTable.virt = some rx)
    (htx : t'.translateAddr p.txTable.virt = some tx) :
    SameMemory t' p s ↔ WellPlaced memoryMap t p := by
  obtain ⟨f, hf, haligned, -, hrxf⟩ := translateAddr_block hheap p.rxTable.toBlock (by decide)
  obtain rfl : rx = f + p.rxTable.virt % 4096 := Option.some.inj (hrx.symm.trans hrxf)
  constructor
  · intro h
    have hbase := h.tables.rxBase
    rw [hinit.rxPtr, hrx, hinit.rxBase, Option.some.injEq] at hbase
    have hrxTable := h.tables.rxTable
    rw [hinit.rxPtr, hinit.rxBase, ← hbase, gives_iff_unbroken hheap (by decide) hrx] at hrxTable
    have htxTable := h.tables.txTable
    rw [hinit.txPtr, hinit.txBase, gives_iff_unbroken hheap (by decide) htx] at htxTable
    refine ⟨fun f' hf' => ?_, hrxTable, htxTable, fun buffer hmem => ?_⟩
    · obtain rfl : f' = f := Option.some.inj (hf'.symm.trans hf)
      omega
    · obtain ⟨i, hi⟩ := List.getElem?_of_mem hmem
      obtain ⟨desc, hdesc, hgives⟩ := h.rxBuffers i buffer hi
      obtain ⟨desc', hdesc', haddr⟩ := hinit.rxDescs i buffer hi
      obtain rfl : desc' = desc := Option.some.inj (hdesc'.symm.trans hdesc)
      exact (gives_iff_unbroken hheap (by decide) haddr).mp hgives
  · intro h
    have hlow := h.low f hf
    have hbase : (f + p.rxTable.virt % 4096) % 2 ^ 32 = f + p.rxTable.virt % 4096 :=
      Nat.mod_eq_of_lt (by omega)
    have hrxBase := hinit.rxBase
    rw [hbase] at hrxBase
    refine ⟨⟨?_, ?_, ?_, ?_⟩, fun i buffer hi => ?_, fun i hi => absurd (hinit.txBuffers i) hi⟩
    · rw [hinit.rxPtr, hrxBase, hrx]
    · rw [hinit.txPtr, hinit.txBase, htx]
    · rw [hinit.rxPtr, hrxBase]
      exact (gives_iff_unbroken hheap (by decide) hrx).mpr h.rxTable
    · rw [hinit.txPtr, hinit.txBase]
      exact (gives_iff_unbroken hheap (by decide) htx).mpr h.txTable
    · obtain ⟨desc, hdesc, haddr⟩ := hinit.rxDescs i buffer hi
      exact ⟨desc, hdesc,
        (gives_iff_unbroken hheap (by decide) haddr).mpr (h.rxBuffers buffer (List.mem_of_getElem? hi))⟩

/-! ### The packets -/

theorem writeCommand_ok {c c' : Coms} {reg : UInt16} {value : UInt32}
    (h : c.writeCommand reg value = .ok c') :
    c'.bar = c.bar ∧ c'.regs = Function.update c.regs reg value := by
  unfold Coms.writeCommand at h
  split at h
  · cases h
    exact ⟨rfl, rfl⟩
  · cases h

/-- A write to any other register leaves the tables where they are. -/
theorem SameTables.writeCommand {t : OffsetPageTable} {coms coms' : Coms} {rxPtr txPtr : Nat}
    {reg : UInt16} {value : UInt32} (h : SameTables t coms rxPtr txPtr)
    (hwrite : coms.writeCommand reg value = .ok coms')
    (hreg : reg ∉ [regRxdeschi, regRxdesclo, regTxdeschi, regTxdesclo]) :
    SameTables t coms' rxPtr txPtr := by
  have hbase : ∀ hi ∈ [regRxdeschi, regRxdesclo, regTxdeschi, regTxdesclo],
      ∀ lo ∈ [regRxdeschi, regRxdesclo, regTxdeschi, regTxdesclo],
        coms'.base hi lo = coms.base hi lo := by
    intro hi hhi lo hlo
    have hhi : hi ≠ reg := fun heq => hreg (heq ▸ hhi)
    have hlo : lo ≠ reg := fun heq => hreg (heq ▸ hlo)
    unfold Coms.base
    rw [(writeCommand_ok hwrite).2, Function.update_of_ne hhi, Function.update_of_ne hlo]
  have hrx := hbase regRxdeschi (by decide) regRxdesclo (by decide)
  have htx := hbase regTxdeschi (by decide) regTxdesclo (by decide)
  constructor
  · rw [hrx]
    exact h.rxBase
  · rw [htx]
    exact h.txBase
  · rw [hrx]
    exact h.rxTable
  · rw [htx]
    exact h.txTable

/-- What `enqueue_packet` does. -/
theorem step_enqueuePacket {t : OffsetPageTable} {s s' : Card} {data : Block 2048} {len : Nat}
    (h : step t s (.enqueuePacket data len) = some s') :
    ∃ addr coms cmd, t.translateAddr data.virt = some addr ∧
      s.coms.writeCommand regTxdesctail (.ofNat ((s.curTx + 1) % 8)) = .ok coms ∧
      s' = { s with
        coms := coms
        txDescs := Function.update s.txDescs s.curTx ⟨addr, .ofNat len, cmd, 0⟩
        txBuffers := Function.update s.txBuffers s.curTx data.virt
        curTx := (s.curTx + 1) % 8 } := by
  have h := eq_ok_of_toOption h
  obtain ⟨addr, haddr, h⟩ := bind_eq_ok.mp h
  obtain ⟨coms, hcoms, h⟩ := bind_eq_ok.mp h
  cases h
  exact ⟨addr, coms, _, eq_of_unwrap haddr, hcoms, rfl⟩

/-- What a pass of the receive loop does. -/
theorem step_receivePacket {t : OffsetPageTable} {s s' : Card} {len : UInt16}
    (h : step t s (.receivePacket len) = some s') :
    ∃ coms, s.coms.writeCommand regRxdesctail (.ofNat s.curRx) = .ok coms ∧
      s' = { s with
        coms := coms
        rxDescs := s.rxDescs.modify s.curRx fun desc => { desc with length := len, status := 0 }
        curRx := (s.curRx + 1) % rxDesc } := by
  have h := eq_ok_of_toOption h
  obtain ⟨coms, hcoms, h⟩ := bind_eq_ok.mp h
  cases h
  exact ⟨coms, hcoms, rfl⟩

section Steps

variable {memoryMap : List MemoryRegion} {t t' : OffsetPageTable} {a : BootInfoFrameAllocator}
  {p : Placement} {s s' : Card}

theorem sameMemory_step (hheap : initHeap t (.init memoryMap) = .ok (.ok (t', a)))
    {action : Action} (h : SameMemory t' p s) (hmeets : PacketUnbroken memoryMap t s action)
    (hstep : step t' s action = some s') : SameMemory t' p s' := by
  cases action with
  | enqueuePacket data len =>
      obtain ⟨addr, coms, cmd, haddr, hcoms, rfl⟩ := step_enqueuePacket hstep
      refine ⟨h.tables.writeCommand hcoms (by decide), h.rxBuffers, fun i hi => ?_⟩
      dsimp only at hi ⊢
      by_cases hcur : i = s.curTx
      · subst hcur
        rw [Function.update_self, Function.update_self]
        exact (gives_iff_unbroken hheap (by decide) haddr).mpr hmeets
      · rw [Function.update_of_ne hcur] at hi ⊢
        rw [Function.update_of_ne hcur]
        exact h.txBuffers i hi
  | receivePacket len =>
      obtain ⟨coms, hcoms, rfl⟩ := step_receivePacket hstep
      refine ⟨h.tables.writeCommand hcoms (by decide), fun i buffer hi => ?_, h.txBuffers⟩
      obtain ⟨desc, hdesc, hgives⟩ := h.rxBuffers i buffer hi
      dsimp only
      rw [List.getElem?_modify, hdesc]
      refine ⟨_, rfl, ?_⟩
      -- Whether it is this descriptor or another, the address is kept.
      split
      · exact hgives
      · exact hgives
  | reclaim txIndex =>
      cases hstep
      refine ⟨h.tables, h.rxBuffers, fun i hi => ?_⟩
      dsimp only [Card.reclaim] at hi ⊢
      by_cases hcur : i = txIndex
      · rw [hcur, Function.update_self] at hi
        exact absurd rfl hi
      · rw [Function.update_of_ne hcur] at hi ⊢
        exact h.txBuffers i hi

/-- A broken packet is one the card does not find. -/
theorem not_sameMemory_step (hheap : initHeap t (.init memoryMap) = .ok (.ok (t', a)))
    {action : Action} (hmisses : ¬ PacketUnbroken memoryMap t s action)
    (hstep : step t' s action = some s') : ¬ SameMemory t' p s' := by
  cases action with
  | enqueuePacket data len =>
      obtain ⟨addr, coms, cmd, haddr, -, rfl⟩ := step_enqueuePacket hstep
      intro h
      have hgives := h.txBuffers s.curTx
      dsimp only at hgives
      rw [Function.update_self, Function.update_self] at hgives
      have hheapStart : 0 < heapStart := by decide
      have hvirt := data.le_virt
      exact hmisses ((gives_iff_unbroken hheap (by decide) haddr).mp (hgives (by omega)))
  | receivePacket len => exact absurd trivial hmisses
  | reclaim txIndex => exact absurd trivial hmisses

/-- No step panics as long as the registers are in memory. -/
theorem run_ends (hheap : initHeap t (.init memoryMap) = .ok (.ok (t', a))) {address : UInt32}
    {prefetchable : Bool} {ty : UInt8} : ∀ {actions : List Action} {s : Card},
    s.coms.bar = .memorySpace address prefetchable ty →
    ∃ s', Lts.run (step t') s actions = some s' := by
  intro actions
  induction actions with
  | nil =>
      intro s _
      exact ⟨s, rfl⟩
  | cons action rest ih =>
      intro s hbar
      have hstep : ∃ mid, step t' s action = some mid ∧
          mid.coms.bar = .memorySpace address prefetchable ty := by
        obtain ⟨⟨bar, regs⟩, rxPtr, txPtr, rxDescs, txDescs, curTx, curRx, rxBuffers, txBuffers⟩ := s
        cases hbar
        cases action with
        | enqueuePacket data len =>
            obtain ⟨f, -, -, -, haddr⟩ := translateAddr_block hheap data (by decide)
            rw [step, Card.enqueuePacket, haddr]
            exact ⟨_, rfl, rfl⟩
        | receivePacket len => exact ⟨_, rfl, rfl⟩
        | reclaim txIndex => exact ⟨_, rfl, rfl⟩
      obtain ⟨mid, hmid, hbar'⟩ := hstep
      obtain ⟨s', hs'⟩ := ih hbar'
      refine ⟨s', ?_⟩
      rw [Lts.run_cons, hmid]
      exact hs'

end Steps

/--
**When the card and the driver see the same memory.**  For every memory map, every page
table the bootloader leaves and every placement of the blocks: once the heap is mapped,
`init` and the steps behind it return, and the memory is the same in every state exactly
if the RX table lies below 4 GiB and no block that is given to the card crosses into a
page whose frame is not the next one.
-/
theorem same_memory_along (memoryMap : List MemoryRegion) (t t' : OffsetPageTable)
    (a : BootInfoFrameAllocator) (hheap : initHeap t (.init memoryMap) = .ok (.ok (t', a)))
    (p : Placement) (address : UInt32) (prefetchable : Bool) (ty : UInt8)
    (regs : UInt16 → UInt32) (actions : List Action) :
    ∃ card, Card.init t' ⟨.memorySpace address prefetchable ty, regs⟩ p = .ok card ∧
      (∃ s, Lts.run (step t') card actions = some s) ∧
      (Lts.Along (step t') (SameMemory t' p) card actions ↔
        WellPlaced memoryMap t p ∧
          Lts.StepsMeet (step t') (PacketUnbroken memoryMap t) card actions) := by
  obtain ⟨card, rx, tx, hcard, hinit, hrx, htx⟩ := init_ends hheap p address prefetchable ty regs
  have hstart := sameMemory_init hheap hinit hrx htx
  refine ⟨card, hcard, run_ends hheap hinit.bar, ?_⟩
  by_cases hplaced : WellPlaced memoryMap t p
  · rw [Lts.along_iff_stepsMeet (fun _ _ _ => sameMemory_step hheap) (fun _ h => h)
      (fun _ _ _ _ => not_sameMemory_step hheap) (hstart.mpr hplaced)]
    exact (and_iff_right hplaced).symm
  · constructor
    · intro halong
      exact absurd (hstart.mp (halong [] List.nil_prefix card rfl)) hplaced
    · rintro ⟨h, -⟩
      exact absurd h hplaced

/-- One block behind the other from the start of the heap. -/
def packed : Placement where
  rxBuffers := (List.finRange 33).map fun i =>
    ⟨heapStart + 2064 * i.val, Nat.le_add_right _ _, by unfold heapSize; omega⟩
  length_rxBuffers := rfl
  rxTable := ⟨⟨heapStart + 68112, by decide, by decide⟩, by decide⟩
  txTable := ⟨⟨heapStart + 68640, by decide, by decide⟩, by decide⟩

/-- A packet in the next free block. -/
def nextPacket : Block 2048 := ⟨heapStart + 68784, by decide, by decide⟩

def memoryBar : Coms := ⟨.memorySpace 0xfebc0000 false 0, fun _ => 0⟩

theorem wellPlaced_packed : WellPlaced (oneRegion 0x100000 (by decide)) (freshTables 0) packed ∧
    Unbroken (oneRegion 0x100000 (by decide)) (freshTables 0) nextPacket := by
  have hadjacent : ∀ k, k < 255 → Paging.Adjacent 4096
      (heapFrame (oneRegion 0x100000 (by decide)) (freshTables 0)) (heapStart / 4096 + k) := by
    intro k hk
    rw [Paging.Adjacent, Nat.add_assoc, heapFrame_oneRegion _ _ rfl (by omega),
      heapFrame_oneRegion _ _ rfl (by omega), Option.map_some, Option.some.injEq, if_neg (by omega)]
    split
    · omega
    · omega
  refine ⟨⟨fun f hf => ?_, ?_, ?_, fun buffer _ => ?_⟩, ?_⟩
  · have hframe := heapFrame_oneRegion 0x100000 (by decide) rfl (n := 0) (k := 16)
      (by decide)
    obtain rfl := Option.some.inj (hf.symm.trans hframe)
    decide
  all_goals exact unbroken_of_adjacent hadjacent _ (by decide)

theorem same_memory_along_contiguous :
    ∃ t' a card,
      initHeap (freshTables 0) (.init (oneRegion 0x100000 (by decide))) = .ok (.ok (t', a)) ∧
      Card.init t' memoryBar packed = .ok card ∧
      Lts.Along (step t') (SameMemory t' packed) card
        [.enqueuePacket nextPacket 60, .receivePacket 60, .reclaim 0] := by
  obtain ⟨t', a, hheap⟩ := initHeap_oneRegion 0x100000 (by decide) (n := 0) (by decide)
  obtain ⟨hplaced, hpacket⟩ := wellPlaced_packed
  obtain ⟨card, hcard, -, halong⟩ := same_memory_along _ _ t' a hheap packed 0xfebc0000 false 0
    (fun _ => 0) [.enqueuePacket nextPacket 60, .receivePacket 60, .reclaim 0]
  refine ⟨t', a, card, hheap, hcard, halong.mpr ⟨hplaced, ?_⟩⟩
  intro pre action hpre _ _ _ _
  have hmem := hpre.subset (List.mem_append_right pre List.mem_cons_self)
  simp only [List.mem_cons, List.not_mem_nil, or_false] at hmem
  rcases hmem with rfl | rfl | rfl
  · exact hpacket
  · trivial
  · trivial

theorem translateAddr_oneRegion {start : Nat} {h : start + 0x200000 ≤ 2 ^ 52}
    (hstart : start % 4096 = 0) {n : Nat} (k off : Nat) (hn : n ≤ 3) (hk : k < 256) (hoff : off < 4096)
    {t' : OffsetPageTable} {a : BootInfoFrameAllocator}
    (hheap : initHeap (freshTables n) (.init (oneRegion start h)) = .ok (.ok (t', a))) :
    t'.translateAddr (heapStart + (4096 * k + off))
      = some (start + (4096 * if k = 0 then 0 else k + n) + off) := by
  have hpages := heapStart_pages
  have hpage : (heapStart + (4096 * k + off)) / 4096 = heapStart / 4096 + k := by omega
  have hoffset : (heapStart + (4096 * k + off)) % 4096 = off := by omega
  obtain ⟨hframe, -⟩ := initHeap_frameOf hheap (Nat.le_add_right (heapStart / 4096) k) (by omega)
  rw [heapFrame_oneRegion _ _ hstart (by omega)] at hframe
  rw [OffsetPageTable.translateAddr, Paging.translate, hpage, hframe, hoffset, Option.map_some]

/-- On a machine where three tables are missing for the first page of the heap, as they
are if nothing was mapped there before, the second receive buffer is broken: its bytes
from the second page on are at 0x104000, and the card writes to 0x101000, which is a page
table.  On one with its memory above 4 GiB, the card looks for the RX table 4 GiB too low. -/
theorem second_buffer_broken :
    (∃ t' a card,
      initHeap (freshTables 3) (.init (oneRegion 0x100000 (by decide))) = .ok (.ok (t', a)) ∧
      Card.init t' memoryBar packed = .ok card ∧
      card.rxDescs[1]?.map (fun desc : RxDesc => desc.addr + 2032) = some 0x101000 ∧
      packed.rxBuffers[1]?.bind (fun buffer : Block (2048 + 16) => t'.translateAddr (buffer.virt + 2032))
        = some 0x104000 ∧
      ¬ SameMemory t' packed card) ∧
    ∃ t' a card,
      initHeap (freshTables 0) (.init (oneRegion 0x100000000 (by decide))) = .ok (.ok (t', a)) ∧
      Card.init t' memoryBar packed = .ok card ∧
      card.coms.base regRxdeschi regRxdesclo = 68112 ∧
      t'.translateAddr card.rxPtr = some (0x100000000 + 68112) ∧
      ¬ SameMemory t' packed card := by
  constructor
  · obtain ⟨t', a, hheap⟩ := initHeap_oneRegion 0x100000 (by decide) (n := 3) (by decide)
    obtain ⟨card, rx, tx, hcard, hinit, -⟩ := init_ends hheap packed 0xfebc0000 false 0 fun _ => 0
    have hstart := translateAddr_oneRegion rfl 0 2064 (by decide) (by decide) (by decide) hheap
    have hbehind := translateAddr_oneRegion rfl 1 0 (by decide) (by decide) (by decide) hheap
    obtain ⟨desc, hdesc, haddr⟩ := hinit.rxDescs 1 _ rfl
    have haddr : desc.addr = 0x100810 := Option.some.inj (haddr.symm.trans hstart)
    refine ⟨t', a, card, hheap, hcard, ?_, hbehind, fun hsame => ?_⟩
    · rw [hdesc, Option.map_some, haddr]
    · obtain ⟨desc', hdesc', hgives⟩ := hsame.rxBuffers 1 _ rfl
      obtain rfl : desc' = desc := Option.some.inj (hdesc'.symm.trans hdesc)
      have hbyte := hgives 2032 (by decide)
      rw [haddr] at hbyte
      exact absurd (hbyte.symm.trans hbehind) (by decide)
  · obtain ⟨t', a, hheap⟩ := initHeap_oneRegion 0x100000000 (by decide) (n := 0) (by decide)
    obtain ⟨card, rx, tx, hcard, hinit, hrx, -⟩ :=
      init_ends hheap packed 0xfebc0000 false 0 fun _ => 0
    have hphys := translateAddr_oneRegion rfl 16 2576 (by decide) (by decide) (by decide) hheap
    have hrx : rx = 0x100000000 + 68112 := Option.some.inj (hrx.symm.trans hphys)
    have hbase : card.coms.base regRxdeschi regRxdesclo = 68112 := by
      rw [hinit.rxBase, hrx]
      decide
    have hptr : t'.translateAddr card.rxPtr = some (0x100000000 + 68112) := by
      rw [hinit.rxPtr]
      exact hphys
    refine ⟨t', a, card, hheap, hcard, hbase, hptr, fun hsame => ?_⟩
    have hsame := hsame.tables.rxBase
    rw [hptr, hbase] at hsame
    exact absurd hsame (by decide)

end Rucoonos.Dma
