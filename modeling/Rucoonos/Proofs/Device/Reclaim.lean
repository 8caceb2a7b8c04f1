/-
Who owns a transmit buffer.

`enqueue_packet` leaks the box of a packet into `tx_buffers` and the reclaim loop
makes a buffer of it again once the descriptor's status is 1.  The refill comes first
in the handler and does not look at `tx_buffers`, so a burst can put packets into
slots that were sent and not yet reclaimed.  The pointer that was there is gone, and
the reclaim loop, which walks up to the head it read before the burst, then frees the
new packet in its place, or later finds null.

The three indices of the ring are counters taken modulo 8: how many pointers were
reclaimed, how many packets were sent and how many handed over.  `Owned` relates the
slots to the lists of the run through these counters, and holds as long as there is a
reclaimed slot for every packet taken.  `owns_buffers_iff` says that this is also needed.
-/
import Rucoonos.Proofs.Device.Transmit
import Mathlib.Data.List.GetD
import Mathlib.Data.List.Nodup

namespace Rucoonos.E1000

open Lts

variable {s s' : Card} {t t' : TxRing} {p q : Point} {n : Nat}

/-! ### No two packets share a box -/

/-- The box of the packet that was dequeued and not stored yet. -/
def Point.hand : Point → List Ptr
  | .txWrite _ _ _ packet => [packet.ptr]
  | _ => []

/-- All boxes the driver was ever given: stored, in hand or still queued. -/
def TxRing.boxes (t : TxRing) (p : Point) : List Ptr :=
  t.stored ++ p.hand ++ t.packetQueue.map RawBuffer.ptr

structure Fresh (t : TxRing) (p : Point) : Prop where
  nodup : (t.boxes p).Nodup
  made : ∀ b ∈ t.boxes p, b ≠ 0 ∧ b < t.nextPtr
  next_pos : 0 < t.nextPtr

theorem Fresh.init : Fresh TxRing.init .idle where
  nodup := List.nodup_nil
  made := by intro b hb; cases hb
  next_pos := by decide

/-- A step that passes boxes on makes none. -/
theorem Fresh.pass (h : Fresh t p) (hboxes : t'.boxes q = t.boxes p)
    (hnext : t'.nextPtr = t.nextPtr) : Fresh t' q := by
  refine ⟨?_, ?_, ?_⟩
  · rw [hboxes]
    exact h.nodup
  · rw [hboxes, hnext]
    exact h.made
  · rw [hnext]
    exact h.next_pos

theorem Fresh.send (h : Fresh t p) (len : Nat) : Fresh (t.send len) p := by
  have hboxes : (t.send len).boxes p = t.boxes p ++ [t.nextPtr] := by
    simp [TxRing.boxes, TxRing.send]
  refine ⟨?_, ?_, Nat.succ_pos _⟩
  · rw [hboxes, List.nodup_append]
    refine ⟨h.nodup, List.nodup_singleton _, ?_⟩
    intro b hb c hc hbc
    rw [List.mem_singleton] at hc
    rw [hbc, hc] at hb
    exact Nat.lt_irrefl _ (h.made _ hb).2
  · rw [hboxes]
    intro b hb
    show b ≠ 0 ∧ b < t.nextPtr + 1
    rcases List.mem_append.mp hb with hb | hb
    · exact ⟨(h.made b hb).1, Nat.lt_succ_of_lt (h.made b hb).2⟩
    · rw [List.mem_singleton.mp hb]
      exact ⟨Nat.ne_of_gt h.next_pos, Nat.lt_succ_self _⟩

theorem Point.beforeTx_hand (h : p.beforeTx = true) : p.hand = [] := by
  cases p <;> first | rfl | cases h

theorem reclaimPoint_hand (t : TxRing) (cause : InterruptCauseRegister) (curTxHead : Nat) :
    (reclaimPoint t cause curTxHead).hand = [] := by
  unfold reclaimPoint
  split <;> rfl

theorem refillPoint_hand (t : TxRing) (cause : InterruptCauseRegister)
    (curTxHead curTxTail : Nat) : (refillPoint t cause curTxHead curTxTail).hand = [] := by
  unfold refillPoint
  split
  · rfl
  · exact reclaimPoint_hand t cause curTxHead

theorem fresh_step {a : Action} (h : Fresh s.tx s.point) (hstep : step s a = some s') :
    Fresh s'.tx s'.point := by
  cases step_tx hstep with
  | transmit hne htx hpoint =>
      rw [htx, hpoint]
      exact h.pass rfl rfl
  | send len htx hpoint =>
      rw [htx, hpoint]
      exact h.send len
  | receive frame bits htx hpoint =>
      rw [htx, hpoint]
      exact h
  | before a htx hat hpoint =>
      rw [htx]
      refine h.pass ?_ rfl
      unfold TxRing.boxes
      rw [Point.beforeTx_hand hat, Point.beforeTx_hand hpoint]
  | readHead cause hat htx hpoint =>
      rw [htx, hpoint]
      rw [hat] at h
      exact h.pass rfl rfl
  | readTail cause curTxHead hat htx hpoint =>
      rw [htx, hpoint]
      rw [hat] at h
      refine h.pass ?_ rfl
      unfold TxRing.boxes
      rw [refillPoint_hand]
      rfl
  | dequeue cause curTxHead left packet rest hat hqueue htx hpoint =>
      rw [htx, hpoint]
      rw [hat] at h
      refine h.pass ?_ rfl
      simp [TxRing.boxes, Point.hand, hqueue]
  | refilled cause curTxHead left hat htx hpoint =>
      rw [htx, hpoint]
      rw [hat] at h
      refine h.pass ?_ rfl
      unfold TxRing.boxes
      rw [reclaimPoint_hand]
      rfl
  | fill cause curTxHead left packet hat htx hpoint =>
      rw [htx, hpoint]
      rw [hat] at h
      refine h.pass ?_ rfl
      simp [TxRing.boxes, TxRing.fillDesc, Point.hand]
  | doorbell cause curTxHead left packet hat htx hpoint =>
      rw [htx, hpoint]
      rw [hat] at h
      exact h.pass rfl rfl
  | reclaim cause curTxHead txIndex hat hne hstatus htx hpoint =>
      rw [htx, hpoint]
      rw [hat] at h
      exact h.pass rfl rfl
  | skip cause curTxHead txIndex hat hne hstatus htx hpoint =>
      rw [htx, hpoint]
      rw [hat] at h
      exact h.pass rfl rfl
  | finish cause curTxHead hat htx hpoint =>
      rw [htx, hpoint]
      rw [hat] at h
      exact h.pass rfl rfl

theorem Fresh.stored_nodup (h : Fresh t p) : t.stored.Nodup :=
  (List.nodup_append.mp (List.nodup_append.mp h.nodup).1).1

theorem Fresh.stored_ne (h : Fresh t p) : ∀ b ∈ t.stored, b ≠ 0 := by
  intro b hb
  refine (h.made b ?_).1
  unfold TxRing.boxes
  rw [List.append_assoc]
  exact List.mem_append_left _ hb

/-! ### The slots and the counters -/

/-- Descriptors filled and not yet handed over. -/
def Point.ahead (p : Point) : Nat := if p.written then 1 else 0

/-- The head a point carries. -/
def Point.head? : Point → Option Nat
  | .txTail _ curTxHead | .txRefill _ curTxHead _ | .txWrite _ curTxHead _ _
  | .txDoorbell _ curTxHead _ _ | .txReclaim _ curTxHead _ => some curTxHead
  | _ => none

/-- What holds of the slots, with `n` packets handed over, as long as every packet was put
in a slot that had been reclaimed. -/
structure Owned (t : TxRing) (p : Point) (n : Nat) : Prop where
  length : t.stored.length = n + p.ahead
  reclaimed_le : t.reclaimed.length ≤ t.transmitted.length
  transmitted_le : t.transmitted.length ≤ n
  room : t.stored.length ≤ t.reclaimed.length + 8
  last : t.lastReclaimedTx = t.reclaimed.length % 8
  head : t.tdh = t.transmitted.length % 8
  tail : t.tdt = n % 8
  cur : t.curTx = n % 8
  /-- The slots hold what was stored and not reclaimed; the others are null. -/
  slots : ∀ i, t.reclaimed.length ≤ i → i < t.reclaimed.length + 8 →
    t.txBuffers (i % 8) = t.stored.getD i 0
  sent : ∀ i, t.reclaimed.length ≤ i → i < t.transmitted.length → (t.descs (i % 8)).status = 1
  pending : ∀ i, t.transmitted.length ≤ i → i < t.stored.length →
    (t.descs (i % 8)).status = 0 ∧ (t.descs (i % 8)).addr = translateAddr (t.stored.getD i 0)
  order : t.transmitted.map Transmission.addr
    = (t.stored.take t.transmitted.length).map translateAddr
  reclaims : t.reclaimed = t.stored.take t.reclaimed.length
  kept : t.leaked = []
  /-- The head a handler carries was the card's head some time since the last reclaim. -/
  stale : ∀ c, p.head? = some c →
    ∃ h, t.reclaimed.length ≤ h ∧ h ≤ t.transmitted.length ∧ c = h % 8
  index : ∀ cause c i, p = .txReclaim cause c i → i = t.lastReclaimedTx

theorem Owned.init : Owned TxRing.init .idle 0 where
  length := rfl
  reclaimed_le := Nat.le_refl _
  transmitted_le := Nat.le_refl _
  room := Nat.zero_le _
  last := rfl
  head := rfl
  tail := rfl
  cur := rfl
  slots := fun _ _ _ => rfl
  sent := fun i _ hi => absurd hi (Nat.not_lt_zero i)
  pending := fun i _ hi => absurd hi (Nat.not_lt_zero i)
  order := rfl
  reclaims := rfl
  kept := rfl
  stale := by intro _ hc; cases hc
  index := by intro _ _ _ hc; cases hc

/-- A step that only moves the handler. -/
theorem Owned.move (h : Owned t p n) (hahead : q.ahead = p.ahead)
    (hstale : ∀ c, q.head? = some c →
      ∃ h, t.reclaimed.length ≤ h ∧ h ≤ t.transmitted.length ∧ c = h % 8)
    (hindex : ∀ cause c i, q = .txReclaim cause c i → i = t.lastReclaimedTx) : Owned t q n where
  length := by rw [hahead]; exact h.length
  reclaimed_le := h.reclaimed_le
  transmitted_le := h.transmitted_le
  room := h.room
  last := h.last
  head := h.head
  tail := h.tail
  cur := h.cur
  slots := h.slots
  sent := h.sent
  pending := h.pending
  order := h.order
  reclaims := h.reclaims
  kept := h.kept
  stale := hstale
  index := hindex

/-- A step that only touches the packet queue. -/
theorem Owned.queue (h : Owned t p n) (queue dequeued : List RawBuffer) (nextPtr : Nat) :
    Owned { t with packetQueue := queue, dequeued := dequeued, nextPtr := nextPtr } p n where
  length := h.length
  reclaimed_le := h.reclaimed_le
  transmitted_le := h.transmitted_le
  room := h.room
  last := h.last
  head := h.head
  tail := h.tail
  cur := h.cur
  slots := h.slots
  sent := h.sent
  pending := h.pending
  order := h.order
  reclaims := h.reclaims
  kept := h.kept
  stale := h.stale
  index := h.index

/-- Two numbers within eight of each other fall into different slots. -/
theorem slot_ne {i j : Nat} (hij : i < j) (hji : j < i + 8) : i % 8 ≠ j % 8 := by
  omega

theorem take_succ_getD (l : List Ptr) {i : Nat} (b : Ptr) (hi : i < l.length) :
    l.take (i + 1) = l.take i ++ [l.getD i b] := by
  rw [List.take_add_one, List.getElem?_eq_getElem hi, List.getD_eq_getElem _ _ hi]
  rfl

/-- Between head and tail there is a packet that was not sent yet. -/
theorem Owned.transmitted_lt (h : Owned t p n) (hne : t.tdh ≠ t.tdt) :
    t.transmitted.length < n := by
  have hle := h.transmitted_le
  rw [h.head, h.tail] at hne
  rcases Nat.lt_or_ge t.transmitted.length n with hlt | hge
  · exact hlt
  · exact absurd (by rw [Nat.le_antisymm hle hge]) hne

/-- Sending one packet leaves the descriptors of all others in the ring alone. -/
theorem Owned.descs_transmit (h : Owned t p n) (hlt : t.transmitted.length < n) {i : Nat}
    (hi : i ≠ t.transmitted.length) (hlo : t.reclaimed.length ≤ i) (hhi : i < t.stored.length) :
    t.transmit.descs (i % 8) = t.descs (i % 8) := by
  have hroom := h.room
  have hreclaimed := h.reclaimed_le
  have hlength := h.length
  show Function.update t.descs t.tdh _ (i % 8) = _
  rw [Function.update_of_ne]
  rw [h.head]
  rcases Nat.lt_or_gt_of_ne hi with hi | hi
  · exact slot_ne hi (by omega)
  · exact (slot_ne hi (by omega)).symm

theorem Owned.transmit (h : Owned t p n) (hne : t.tdh ≠ t.tdt) : Owned t.transmit p n := by
  have hlt := h.transmitted_lt hne
  have hstored : t.transmitted.length < t.stored.length := by
    rw [h.length]
    omega
  have hreclaimed := h.reclaimed_le
  have hlen : t.transmit.transmitted.length = t.transmitted.length + 1 := List.length_append
  obtain ⟨hstatus, haddr⟩ := h.pending _ (Nat.le_refl _) hstored
  exact {
    length := h.length
    reclaimed_le := by rw [hlen]; exact Nat.le_succ_of_le hreclaimed
    transmitted_le := by rw [hlen]; exact hlt
    room := h.room
    last := h.last
    head := by
      rw [hlen]
      show (t.tdh + 1) % 8 = _
      rw [h.head]
      omega
    tail := h.tail
    cur := h.cur
    slots := h.slots
    sent := by
      intro i hlo hhi
      rw [hlen] at hhi
      by_cases hi : i = t.transmitted.length
      · subst hi
        show (Function.update t.descs t.tdh _ _).status = 1
        rw [← h.head] at hstatus ⊢
        rw [Function.update_self]
        show (t.descs t.tdh).status ||| tstaDd = 1
        rw [hstatus]
        rfl
      · rw [h.descs_transmit hlt hi hlo (by omega)]
        exact h.sent i hlo (by omega)
    pending := by
      intro i hlo hhi
      rw [hlen] at hlo
      rw [h.descs_transmit hlt (by omega) (by omega) hhi]
      exact h.pending i (by omega) hhi
    order := by
      rw [hlen]
      show (t.transmitted ++ [(t.descs t.tdh).transmission]).map Transmission.addr
        = (t.stored.take (t.transmitted.length + 1)).map translateAddr
      rw [take_succ_getD _ 0 hstored, List.map_append, List.map_append, h.order, h.head]
      congr 1
      exact congrArg (fun a => [a]) haddr
    reclaims := h.reclaims
    kept := h.kept
    stale := by
      intro c hc
      obtain ⟨m, hlo, hhi, hm⟩ := h.stale c hc
      exact ⟨m, hlo, by rw [hlen]; omega, hm⟩
    index := h.index }

/-- With a null slot left, the slot at `cur_tx` is null. -/
theorem Owned.free_slot {cause : InterruptCauseRegister} {curTxHead left : Nat}
    {packet : RawBuffer} (h : Owned t (.txWrite cause curTxHead left packet) n)
    (hfresh : ∀ b ∈ t.stored, b ≠ 0) {i : Nat} (hi : i < 8) (hnull : t.txBuffers i = 0) :
    n < t.reclaimed.length + 8 := by
  have hlength : t.stored.length = n := h.length
  have hroom := h.room
  rcases Nat.lt_or_ge n (t.reclaimed.length + 8) with hlt | hge
  · exact hlt
  -- All eight slots would hold a stored box; `j` is the packet in slot `i`.
  · obtain ⟨j, hlo, hhi, hj⟩ : ∃ j, t.reclaimed.length ≤ j ∧ j < t.reclaimed.length + 8 ∧
        j % 8 = i :=
      ⟨t.reclaimed.length + (i + 8 - t.reclaimed.length % 8) % 8, by omega, by omega, by omega⟩
    have hslot := h.slots j hlo hhi
    rw [hj, hnull, List.getD_eq_getElem _ _ (by omega)] at hslot
    exact absurd hslot.symm (hfresh _ (List.getElem_mem _))

/-- Filling a descriptor leaves those of all packets in the ring alone. -/
theorem Owned.descs_fill {cause : InterruptCauseRegister} {curTxHead left : Nat}
    {packet : RawBuffer} (h : Owned t (.txWrite cause curTxHead left packet) n)
    (hfree : n < t.reclaimed.length + 8) {i : Nat} (hi : i < n) (hlo : t.reclaimed.length ≤ i) :
    (t.fillDesc packet).descs (i % 8) = t.descs (i % 8) := by
  show Function.update t.descs t.curTx _ (i % 8) = _
  rw [h.cur, Function.update_of_ne (slot_ne hi (by omega))]

theorem getD_fill_of_lt (packet : RawBuffer) {i : Nat} (hi : i < t.stored.length) :
    (t.fillDesc packet).stored.getD i 0 = t.stored.getD i 0 :=
  List.getD_append _ _ _ _ hi

theorem getD_fill_self (packet : RawBuffer) :
    (t.fillDesc packet).stored.getD t.stored.length 0 = packet.ptr := by
  show (t.stored ++ [packet.ptr]).getD t.stored.length 0 = _
  rw [List.getD_append_right _ _ _ _ (Nat.le_refl _), Nat.sub_self]
  rfl

/-- The slot that is filled is the one of the new packet. -/
theorem Owned.slots_fill {cause : InterruptCauseRegister} {curTxHead left : Nat}
    {packet : RawBuffer} (h : Owned t (.txWrite cause curTxHead left packet) n)
    (hfree : n < t.reclaimed.length + 8) {i : Nat} (hlo : t.reclaimed.length ≤ i)
    (hhi : i < t.reclaimed.length + 8) :
    (t.fillDesc packet).txBuffers (i % 8) = (t.fillDesc packet).stored.getD i 0 := by
  have hlength : t.stored.length = n := h.length
  have hreclaimed := h.reclaimed_le
  have htransmitted := h.transmitted_le
  have hlen : (t.fillDesc packet).stored.length = t.stored.length + 1 := List.length_append
  show Function.update t.txBuffers t.curTx packet.ptr (i % 8) = _
  rw [h.cur, ← hlength]
  by_cases hi : i = t.stored.length
  · rw [hi, Function.update_self, getD_fill_self]
  · rw [Function.update_of_ne (by omega), h.slots i hlo hhi]
    rcases Nat.lt_or_gt_of_ne hi with hi | hi
    · exact (getD_fill_of_lt packet hi).symm
    · rw [List.getD_eq_default _ _ (by omega), List.getD_eq_default _ _ (by omega)]

theorem Owned.fill {cause : InterruptCauseRegister} {curTxHead left : Nat} {packet : RawBuffer}
    (h : Owned t (.txWrite cause curTxHead left packet) n) (hfree : n < t.reclaimed.length + 8) :
    Owned (t.fillDesc packet) (.txDoorbell cause curTxHead left packet) n := by
  have hlength : t.stored.length = n := h.length
  have hreclaimed := h.reclaimed_le
  have htransmitted := h.transmitted_le
  have hlen : (t.fillDesc packet).stored.length = n + 1 := by
    rw [← hlength]
    exact List.length_append
  exact {
    length := hlen
    reclaimed_le := hreclaimed
    transmitted_le := htransmitted
    room := by rw [hlen]; exact hfree
    last := h.last
    head := h.head
    tail := h.tail
    cur := h.cur
    slots := fun i hlo hhi => h.slots_fill hfree hlo hhi
    sent := by
      intro i hlo hhi
      change i < t.transmitted.length at hhi
      rw [h.descs_fill hfree (by omega) hlo]
      exact h.sent i hlo hhi
    pending := by
      intro i hlo hhi
      change t.transmitted.length ≤ i at hlo
      rw [hlen] at hhi
      by_cases hi : i = t.stored.length
      · rw [hi, getD_fill_self]
        show (Function.update t.descs t.curTx (filledDesc packet) _).status = 0 ∧
          (Function.update t.descs t.curTx (filledDesc packet) _).addr = _
        rw [h.cur, hlength, Function.update_self]
        exact ⟨rfl, rfl⟩
      · rw [h.descs_fill hfree (by omega) (by omega), getD_fill_of_lt packet (by omega)]
        exact h.pending i hlo (by omega)
    order := by
      show t.transmitted.map Transmission.addr
        = ((t.stored ++ [packet.ptr]).take t.transmitted.length).map translateAddr
      rw [List.take_append_of_le_length (by omega)]
      exact h.order
    reclaims := by
      show t.reclaimed = (t.stored ++ [packet.ptr]).take t.reclaimed.length
      rw [List.take_append_of_le_length (by omega)]
      exact h.reclaims
    kept := by
      have hnull : t.txBuffers t.curTx = 0 := by
        rw [h.cur, h.slots n (by omega) hfree, List.getD_eq_default _ _ (by omega)]
      show (if t.txBuffers t.curTx = 0 then t.leaked else _) = []
      rw [if_pos hnull]
      exact h.kept
    stale := h.stale
    index := by intro _ _ _ hc; cases hc }

theorem Owned.doorbell {cause : InterruptCauseRegister} {curTxHead left : Nat}
    {packet : RawBuffer} (h : Owned t (.txDoorbell cause curTxHead left packet) n) :
    Owned t.ringDoorbell (.txRefill cause curTxHead left) (n + 1) := by
  have hnext : (t.curTx + 1) % 8 = (n + 1) % 8 := by
    rw [h.cur]
    omega
  exact {
    length := h.length
    reclaimed_le := h.reclaimed_le
    transmitted_le := Nat.le_succ_of_le h.transmitted_le
    room := h.room
    last := h.last
    head := h.head
    tail := hnext
    cur := hnext
    slots := h.slots
    sent := h.sent
    pending := h.pending
    order := h.order
    reclaims := h.reclaims
    kept := h.kept
    stale := h.stale
    index := by intro _ _ _ hc; cases hc }

/-- Short of the head it carries, the reclaim loop stands at a packet that was sent. -/
theorem Owned.reclaimable {cause : InterruptCauseRegister} {curTxHead txIndex : Nat}
    (h : Owned t (.txReclaim cause curTxHead txIndex) n) (hne : txIndex ≠ curTxHead) :
    ∃ m, t.reclaimed.length < m ∧ m ≤ t.transmitted.length ∧ curTxHead = m % 8 := by
  obtain ⟨m, hlo, hhi, hm⟩ := h.stale curTxHead rfl
  have hindex := h.index cause curTxHead txIndex rfl
  rw [h.last] at hindex
  refine ⟨m, ?_, hhi, hm⟩
  rcases Nat.lt_or_ge t.reclaimed.length m with hlt | hge
  · exact hlt
  · rw [Nat.le_antisymm hge hlo] at hm
    exact absurd (hindex.trans hm.symm) hne

theorem Owned.status {cause : InterruptCauseRegister} {curTxHead txIndex : Nat}
    (h : Owned t (.txReclaim cause curTxHead txIndex) n) (hne : txIndex ≠ curTxHead) :
    (t.descs txIndex).status = 1 := by
  obtain ⟨m, hlo, hhi, -⟩ := h.reclaimable hne
  rw [h.index cause curTxHead txIndex rfl, h.last]
  exact h.sent _ (Nat.le_refl _) (by omega)

theorem Owned.reclaim {cause : InterruptCauseRegister} {curTxHead txIndex : Nat}
    (h : Owned t (.txReclaim cause curTxHead txIndex) n) (hne : txIndex ≠ curTxHead) :
    Owned (t.reclaim txIndex) (.txReclaim cause curTxHead ((txIndex + 1) % 8)) n := by
  obtain ⟨m, hlo, hhi, hm⟩ := h.reclaimable hne
  have hindex : txIndex = t.reclaimed.length % 8 := by
    rw [h.index cause curTxHead txIndex rfl, h.last]
  have hroom := h.room
  have htransmitted := h.transmitted_le
  have hlength : t.stored.length = n := h.length
  have hlen : (t.reclaim txIndex).reclaimed.length = t.reclaimed.length + 1 := List.length_append
  have hlast : (txIndex + 1) % 8 = (t.reclaimed.length + 1) % 8 := by omega
  exact {
    length := h.length
    reclaimed_le := by rw [hlen]; exact Nat.lt_of_lt_of_le hlo hhi
    transmitted_le := h.transmitted_le
    room := by rw [hlen]; exact Nat.le_succ_of_le hroom
    last := by rw [hlen]; exact hlast
    head := h.head
    tail := h.tail
    cur := h.cur
    slots := by
      intro i hi hi'
      rw [hlen] at hi hi'
      show Function.update t.txBuffers txIndex 0 (i % 8) = t.stored.getD i 0
      rw [hindex]
      -- The slot just emptied is the one of the packet eight further on.
      by_cases hwrap : i = t.reclaimed.length + 8
      · rw [hwrap, Nat.add_mod_right, Function.update_self, List.getD_eq_default _ _ (by omega)]
      · rw [Function.update_of_ne (slot_ne (by omega) (by omega)).symm]
        exact h.slots i (by omega) (by omega)
    sent := by
      intro i hi hi'
      rw [hlen] at hi
      exact h.sent i (by omega) hi'
    pending := h.pending
    order := h.order
    reclaims := by
      rw [hlen]
      show t.reclaimed ++ [t.txBuffers txIndex] = t.stored.take (t.reclaimed.length + 1)
      rw [hindex, h.slots _ (Nat.le_refl _) (by omega), take_succ_getD _ _ (by omega),
        ← h.reclaims]
    kept := h.kept
    stale := by
      intro c hc
      refine ⟨m, by rw [hlen]; exact hlo, hhi, ?_⟩
      rw [← hm]
      exact (Option.some.inj hc).symm
    index := by
      intro _ _ _ hc
      cases hc
      rfl }

/-! ### Every run -/

/-- What the reclaim loop passes to `Buffer::from_raw` is a box that was stored and sent,
and never the same one twice; and no stored box is overwritten before that. -/
structure OwnsBuffers (s : Card) : Prop where
  reclaimed : ∀ b ∈ s.tx.reclaimed,
    b ≠ 0 ∧ b ∈ s.tx.stored ∧ translateAddr b ∈ s.tx.transmitted.map Transmission.addr
  once : s.tx.reclaimed.Nodup
  kept : s.tx.leaked = []

/-- When `enqueue_packet` stores a packet, some slot of `tx_buffers` is null. -/
def slotFree (s : Card) : Action → Bool
  | .driver =>
      match s.point with
      | .txWrite .. => (List.range 8).any fun i => s.tx.txBuffers i == 0
      | _ => true
  | _ => true

/-- The invariant along runs. -/
def Owning (s : Card) : Prop := Fresh s.tx s.point ∧ ∃ n, Owned s.tx s.point n

theorem Owning.ownsBuffers (h : Owning s) : OwnsBuffers s := by
  obtain ⟨hfresh, n, h⟩ := h
  have hsub : s.tx.reclaimed.Sublist s.tx.stored := by
    rw [h.reclaims]
    exact List.take_sublist _ _
  refine ⟨?_, hfresh.stored_nodup.sublist hsub, h.kept⟩
  intro b hb
  refine ⟨hfresh.stored_ne b (hsub.subset hb), hsub.subset hb, ?_⟩
  rw [h.order]
  refine List.mem_map_of_mem ?_
  rw [h.reclaims] at hb
  exact (List.take_sublist_take_left h.reclaimed_le).subset hb

theorem reclaimPoint_ahead (t : TxRing) (cause : InterruptCauseRegister) (curTxHead : Nat) :
    (reclaimPoint t cause curTxHead).ahead = 0 := by
  unfold reclaimPoint
  split <;> rfl

/-- The handler enters the reclaim loop at `last_reclaimed_tx`, with the head it carried. -/
theorem Owned.toReclaim {cause : InterruptCauseRegister} {curTxHead : Nat} (h : Owned t p n)
    (hp : p.head? = some curTxHead) (hahead : p.ahead = 0) :
    Owned t (reclaimPoint t cause curTxHead) n := by
  refine h.move (by rw [reclaimPoint_ahead, hahead]) ?_ ?_
  · intro c hc
    unfold reclaimPoint at hc
    split at hc
    · cases hc
      exact h.stale _ hp
    · cases hc
  · intro cause' c i hc
    unfold reclaimPoint at hc
    split at hc
    · cases hc
      rfl
    · cases hc

theorem Point.beforeTx_head (h : p.beforeTx = true) : p.ahead = 0 ∧ p.head? = none := by
  cases p <;> first | exact ⟨rfl, rfl⟩ | cases h

theorem owned_step {a : Action} (hfresh : Fresh s.tx s.point) (h : Owned s.tx s.point n)
    (hfree : slotFree s a = true) (hstep : step s a = some s') :
    ∃ m, Owned s'.tx s'.point m := by
  cases step_tx hstep with
  | transmit hne htx hpoint =>
      rw [htx, hpoint]
      exact ⟨n, h.transmit hne⟩
  | send len htx hpoint =>
      rw [htx, hpoint]
      exact ⟨n, h.queue _ _ _⟩
  | receive frame bits htx hpoint =>
      rw [htx, hpoint]
      exact ⟨n, h⟩
  | before a htx hat hpoint =>
      have hp := Point.beforeTx_head hat
      have hq := Point.beforeTx_head hpoint
      rw [htx]
      refine ⟨n, h.move (by rw [hp.1, hq.1]) ?_ ?_⟩
      · intro c hc
        rw [hq.2] at hc
        cases hc
      · intro _ _ _ hc
        rw [hc] at hpoint
        cases hpoint
  | readHead cause hat htx hpoint =>
      rw [htx, hpoint]
      rw [hat] at h
      refine ⟨n, h.move rfl ?_ (by intro _ _ _ hc; cases hc)⟩
      intro c hc
      cases hc
      exact ⟨s.tx.transmitted.length, h.reclaimed_le, Nat.le_refl _, h.head⟩
  | readTail cause curTxHead hat htx hpoint =>
      rw [htx, hpoint]
      rw [hat] at h
      unfold refillPoint
      split
      · exact ⟨n, h.move rfl h.stale (by intro _ _ _ hc; cases hc)⟩
      · exact ⟨n, h.toReclaim rfl rfl⟩
  | dequeue cause curTxHead left packet rest hat hqueue htx hpoint =>
      rw [htx, hpoint]
      rw [hat] at h
      exact ⟨n, (h.queue _ _ _).move rfl h.stale (by intro _ _ _ hc; cases hc)⟩
  | refilled cause curTxHead left hat htx hpoint =>
      rw [htx, hpoint]
      rw [hat] at h
      exact ⟨n, h.toReclaim rfl rfl⟩
  | fill cause curTxHead left packet hat htx hpoint =>
      rw [htx, hpoint]
      rw [hat] at h
      obtain ⟨i, hi, hnull⟩ : ∃ i, i < 8 ∧ s.tx.txBuffers i = 0 := by
        simpa [slotFree, hat] using hfree
      exact ⟨n, h.fill (h.free_slot hfresh.stored_ne hi hnull)⟩
  | doorbell cause curTxHead left packet hat htx hpoint =>
      rw [htx, hpoint]
      rw [hat] at h
      exact ⟨n + 1, h.doorbell⟩
  | reclaim cause curTxHead txIndex hat hne hstatus htx hpoint =>
      rw [htx, hpoint]
      rw [hat] at h
      exact ⟨n, h.reclaim hne⟩
  | skip cause curTxHead txIndex hat hne hstatus htx hpoint =>
      rw [hat] at h
      exact absurd (h.status hne) hstatus
  | finish cause curTxHead hat htx hpoint =>
      rw [htx, hpoint]
      rw [hat] at h
      exact ⟨n, h.move rfl (by intro _ hc; cases hc) (by intro _ _ _ hc; cases hc)⟩

/-- A packet stored when no slot is null takes the place of another. -/
theorem not_ownsBuffers_of_full {a : Action} (h : Owned s.tx s.point n)
    (hfree : ¬ slotFree s a = true) (hstep : step s a = some s') : ¬ OwnsBuffers s' := by
  unfold slotFree at hfree
  split at hfree
  · split at hfree
    · rename_i cause curTxHead left packet hat
      have hfull : s.tx.txBuffers s.tx.curTx ≠ 0 := by
        intro hc
        refine hfree (List.any_eq_true.mpr ⟨s.tx.curTx, ?_, by simpa using hc⟩)
        rw [List.mem_range, h.cur]
        omega
      simp only [step, Card.driver, hat, Option.some.injEq] at hstep
      subst hstep
      intro howns
      have hkept := howns.kept
      simp [TxRing.fillDesc, hfull] at hkept
    · exact absurd rfl hfree
  · exact absurd rfl hfree

/--
**Buffers stay owned exactly when no packet is stored while all slots are taken.**
-/
theorem owns_buffers_iff (id : Nat) (as : List Action) :
    Along step OwnsBuffers (init id) as ↔
      StepsMeet step (fun s a => slotFree s a = true) (init id) as := by
  have hinit : Owning (init id) := ⟨Fresh.init, 0, Owned.init⟩
  refine along_iff_stepsMeet ?_ (fun _ => Owning.ownsBuffers) ?_ hinit
  · rintro s a s' ⟨hfresh, n, h⟩ hfree hstep
    exact ⟨fresh_step hfresh hstep, owned_step hfresh h hfree hstep⟩
  · rintro s a s' ⟨-, n, h⟩ hfree hstep
    exact not_ownsBuffers_of_full h hfree hstep

/-- Three packets are sent and not reclaimed.  Then six more come, the card sends each as
soon as it is handed over, and one more interrupt follows. -/
def refillFirst : List Action :=
  [List.replicate 3 (.send 60), .interrupt ((1 : UInt32) <<< 15) :: List.replicate 12 .driver,
    List.replicate 3 .transmit, List.replicate 6 (.send 60), [.interrupt 1, .driver, .driver],
    (List.replicate 6 [.driver, .driver, .driver, .transmit]).flatten, List.replicate 5 .driver,
    .interrupt 1 :: List.replicate 9 .driver].flatten

/-- The ninth packet takes the slot of the first, which is never reclaimed, and in the end
the loop passes null to `Buffer::from_raw`. -/
theorem refillFirst_leaks : ∃ s, run step (init 0) refillFirst = some s ∧
    s.tx.leaked = [34] ∧ 34 ∈ s.tx.stored ∧ 34 ∉ s.tx.reclaimed ∧ 0 ∈ s.tx.reclaimed ∧
    ¬ OwnsBuffers s := by
  have hend : (run step (init 0) refillFirst).map
      (fun s => (s.tx.leaked, s.tx.stored, s.tx.reclaimed))
      = some ([34], [34, 35, 36, 37, 38, 39, 40, 41, 42], [42, 35, 36, 37, 38, 39, 40, 41, 0]) :=
    rfl
  obtain ⟨s, hrun, hlists⟩ := Option.map_eq_some_iff.mp hend
  simp only [Prod.mk.injEq] at hlists
  obtain ⟨hleaked, hstored, hreclaimed⟩ := hlists
  refine ⟨s, hrun, hleaked, by simp [hstored], by simp [hreclaimed], by simp [hreclaimed], ?_⟩
  intro howns
  have hkept := howns.kept
  rw [hleaked] at hkept
  cases hkept

end Rucoonos.E1000
