/-
The table is always there.

Seen from outside, `set_interrupt` changes one entry of a table in place, at the moment
the processor loads the copy, and opens one line.  `Vectors` is that view.  `idt_refines`
says that the machine with its copies on the heap is never distinguished from it, by an
exception at any time: the table that the processor has loaded is always in memory and
has the entries of the view.  It says too that the heap holds the table in use and, within
a call, the one before it, and nothing else, and that no call is stuck.
-/
import Rucoonos.Interrupts.Idt
import Rucoonos.Lib.Run

namespace Rucoonos.Idt

open Lts

/-! ### The view from outside -/

structure Vectors where
  table : Table
  /-- The call under way. -/
  pending : Option (Nat × Handler)
  /-- The lines that the controllers let through. -/
  isOpen : Nat → Bool

def Vectors.step (v : Vectors) : Action → Vectors
  | .call line entry => { v with pending := some (line, entry) }
  | .replace _ => v
  | .load =>
      match v.pending with
      | none => v
      | some (line, entry) => { v with table := Function.update v.table line (some entry) }
  | .unmask =>
      match v.pending with
      | none => v
      | some (line, _) => { v with isOpen := Function.update v.isOpen line true }
  | .dropOld => { v with pending := none }

/-- Whether the masks let a line of the controllers through. -/
def lets (masks : BitVec 8 × BitVec 8) (irqLine : Nat) : Bool :=
  if irqLine < 8 then !masks.1.getLsbD irqLine else !masks.2.getLsbD (irqLine - 8)

def Vectors.start (masks : BitVec 8 × BitVec 8) : Vectors :=
  ⟨initialIdt, none, fun line => lets masks (line - pic1Offset)⟩

/-! ### The masks -/

theorem getLsbD_clearBit (mask : BitVec 8) (i : Nat) {j : Nat} (hj : j < 8) :
    (clearBit mask i).getLsbD j = (mask.getLsbD j && decide (j ≠ i)) := by
  rw [clearBit, ← BitVec.twoPow_eq]
  by_cases hij : i = j
  · simp [hij, hj]
  · simp [hj, Ne.symm hij]

/-- One line is let through, and the others as before. -/
theorem lets_unmaskLine (masks : BitVec 8 × BitVec 8) (i : Nat) {j : Nat} (hj : j < 16) :
    lets (unmaskLine masks i) j = (lets masks j || decide (j = i)) := by
  unfold lets unmaskLine
  by_cases hj8 : j < 8
  · simp only [if_pos hj8]
    split
    · rw [getLsbD_clearBit _ _ hj8]
      by_cases hij : j = i
      · simp [hij]
      · simp [hij]
    · have hij : j ≠ i := by omega
      split
      · simp [hij]
      · simp [hij]
  · simp only [if_neg hj8]
    split
    · have hij : j ≠ i := by omega
      simp [hij]
    · split
      · rw [getLsbD_clearBit _ _ (by omega)]
        by_cases hij : j = i
        · simp [hij]
        · have hij' : j - 8 ≠ i - 8 := by omega
          simp [hij, hij']
      · have hij : j ≠ i := by omega
        simp [hij]

/-! ### What the machine and the view have in common -/

/-- The table that is to be freed. -/
def Point.oldIdt : Point → Option IDTStorage
  | .idle => none
  | .changed _ _ => none
  | .replaced _ oldIdt => some oldIdt
  | .loaded _ oldIdt => some oldIdt
  | .masked oldIdt => some oldIdt

/-- A call works on the entry that it was made for, and frees another table than the one in
use. -/
def Machine.Stands (m : Machine) (v : Vectors) : Prop :=
  match m.point with
  | .idle => m.idtr = m.storage
  | .changed line nIdt => m.idtr = m.storage ∧
      ∃ entry, v.pending = some (line, entry) ∧ nIdt = Function.update v.table line (some entry)
  | .replaced line oldIdt => m.idtr = oldIdt ∧ oldIdt ≠ m.storage ∧
      ∃ entry, v.pending = some (line, entry) ∧
        m.read m.storage = some (Function.update v.table line (some entry))
  | .loaded line oldIdt => m.idtr = m.storage ∧ oldIdt ≠ m.storage ∧
      ∃ entry, v.pending = some (line, entry)
  | .masked oldIdt => m.idtr = m.storage ∧ oldIdt ≠ m.storage

structure Refines (m : Machine) (v : Vectors) : Prop where
  loaded : m.read m.idtr = some v.table
  lines : ∀ i, i < 16 → lets m.masks i = v.isOpen (pic1Offset + i)
  boxes : ∀ place, (m.heap place).isSome = true ↔
    m.storage = .heaped place ∨ m.point.oldIdt = some (.heaped place)
  stands : m.Stands v

section Step

variable {m m' : Machine} {v : Vectors} {a : Action}

/-- A table that is put where nothing was is found there, and the others where they were. -/
theorem read_update {place : Nat} (hfree : m.heap place = none) (table : Table) {idt : IDTStorage}
    {t : Table} (hidt : m.read idt = some t) {storage idtr : IDTStorage}
    {masks : BitVec 8 × BitVec 8} {point : Point} :
    Machine.read ⟨Function.update m.heap place (some table), storage, idtr, masks, point⟩ idt
      = some t := by
  cases idt with
  | initial => exact hidt
  | heaped ptr =>
      have hne : ptr ≠ place := by
        rintro rfl
        rw [show m.read (.heaped ptr) = m.heap ptr from rfl, hfree] at hidt
        cases hidt
      show Function.update m.heap place (some table) ptr = some t
      rw [Function.update_of_ne hne]
      exact hidt

theorem Refines.call {line : Nat} {entry : Handler} (h : Refines m v)
    (hstep : m.step (.call line entry) = some m') : Refines m' (v.step (.call line entry)) := by
  obtain ⟨hloaded, hlines, hboxes, hstands⟩ := h
  rw [Machine.step] at hstep
  unfold Machine.Stands at hstands
  cases hpoint : m.point with
  | idle =>
      rw [hpoint] at hstep hboxes hstands
      have hidtr : m.idtr = m.storage := hstands
      rw [hidtr] at hloaded
      simp only [hloaded] at hstep
      split at hstep
      · cases hstep
        refine ⟨?_, hlines, hboxes, hidtr, entry, rfl, rfl⟩
        show m.read m.idtr = some v.table
        rw [hidtr]
        exact hloaded
      · cases hstep
  | _ =>
      rw [hpoint] at hstep
      cases hstep

theorem Refines.replace {place : Nat} (h : Refines m v)
    (hstep : m.step (.replace place) = some m') : Refines m' (v.step (.replace place)) := by
  obtain ⟨hloaded, hlines, hboxes, hstands⟩ := h
  rw [Machine.step] at hstep
  unfold Machine.Stands at hstands
  cases hpoint : m.point with
  | changed line nIdt =>
      rw [hpoint] at hstep hboxes hstands
      obtain ⟨hidtr, entry, hpending, hnIdt⟩ := hstands
      cases hfree : m.heap place with
      | some table =>
          simp only [hfree] at hstep
          cases hstep
      | none =>
          simp only [hfree] at hstep
          cases hstep
          refine ⟨read_update hfree nIdt hloaded, hlines, ?_, hidtr, ?_, entry, hpending, ?_⟩
          · intro ptr
            show (Function.update m.heap place (some nIdt) ptr).isSome = true ↔
              IDTStorage.heaped place = .heaped ptr ∨ some m.storage = some (.heaped ptr)
            by_cases hptr : ptr = place
            · subst hptr
              rw [Function.update_self]
              exact iff_of_true rfl (.inl rfl)
            · rw [Function.update_of_ne hptr, hboxes ptr]
              simp [Ne.symm hptr, Point.oldIdt]
          · show m.storage ≠ .heaped place
            intro hsame
            have hsome := (hboxes place).mpr (.inl hsame)
            rw [hfree] at hsome
            cases hsome
          · show Function.update m.heap place (some nIdt) place = _
            rw [Function.update_self, hnIdt]
            rfl
  | _ =>
      rw [hpoint] at hstep
      cases hstep

theorem Refines.load (h : Refines m v) (hstep : m.step .load = some m') :
    Refines m' (v.step .load) := by
  obtain ⟨hloaded, hlines, hboxes, hstands⟩ := h
  rw [Machine.step] at hstep
  unfold Machine.Stands at hstands
  cases hpoint : m.point with
  | replaced line oldIdt =>
      rw [hpoint] at hstep hboxes hstands
      obtain ⟨-, hold, entry, hpending, hstorage⟩ := hstands
      cases hstep
      rw [Vectors.step, hpending]
      exact ⟨hstorage, hlines, hboxes, rfl, hold, entry, rfl⟩
  | _ =>
      rw [hpoint] at hstep
      cases hstep

theorem Refines.unmask (h : Refines m v) (hstep : m.step .unmask = some m') :
    Refines m' (v.step .unmask) := by
  obtain ⟨hloaded, hlines, hboxes, hstands⟩ := h
  rw [Machine.step] at hstep
  unfold Machine.Stands at hstands
  cases hpoint : m.point with
  | loaded line oldIdt =>
      rw [hpoint] at hstep hboxes hstands
      obtain ⟨hidtr, hold, entry, hpending⟩ := hstands
      dsimp only at hstep
      split at hstep
      · rename_i hline
        cases hstep
        rw [Vectors.step, hpending]
        refine ⟨hloaded, fun i hi => ?_, hboxes, hidtr, hold⟩
        show lets (unmaskLine m.masks (line - pic1Offset)) i
          = Function.update v.isOpen line true (pic1Offset + i)
        rw [lets_unmaskLine _ _ hi, hlines i hi]
        by_cases hij : pic1Offset + i = line
        · have hij' : i = line - pic1Offset := by omega
          rw [hij, Function.update_self, decide_eq_true hij', Bool.or_true]
        · have hij' : ¬ i = line - pic1Offset := by omega
          rw [Function.update_of_ne hij, decide_eq_false hij', Bool.or_false]
      · cases hstep
  | _ =>
      rw [hpoint] at hstep
      cases hstep

theorem Refines.dropOld (h : Refines m v) (hstep : m.step .dropOld = some m') :
    Refines m' (v.step .dropOld) := by
  obtain ⟨hloaded, hlines, hboxes, hstands⟩ := h
  rw [Machine.step] at hstep
  unfold Machine.Stands at hstands
  cases hpoint : m.point with
  | masked oldIdt =>
      rw [hpoint] at hstep hboxes hstands
      obtain ⟨hidtr, hold⟩ := hstands
      obtain ⟨m'', hdrop, rfl⟩ := Option.map_eq_some_iff.mp hstep
      cases oldIdt with
      | initial =>
          cases hdrop
          refine ⟨hloaded, hlines, fun place => ?_, hidtr⟩
          rw [hboxes place]
          simp [Point.oldIdt]
      | heaped ptr =>
          rw [Machine.drop] at hdrop
          split at hdrop
          · cases hdrop
          · cases hdrop
            refine ⟨?_, hlines, fun place => ?_, hidtr⟩
            · -- The table in use is another one.
              show Machine.read _ m.idtr = some v.table
              cases hstorage : m.idtr with
              | initial =>
                  rw [hstorage] at hloaded
                  exact hloaded
              | heaped place =>
                  rw [hstorage] at hloaded
                  have hne : place ≠ ptr := by
                    rintro rfl
                    exact hold (hstorage.symm.trans hidtr)
                  show Function.update m.heap ptr none place = some v.table
                  rw [Function.update_of_ne hne]
                  exact hloaded
            · show (Function.update m.heap ptr none place).isSome = true ↔
                m.storage = .heaped place ∨ none = some (IDTStorage.heaped place)
              by_cases hplace : place = ptr
              · subst hplace
                rw [Function.update_self]
                refine iff_of_false Bool.false_ne_true ?_
                rintro (hsame | hsame)
                · exact hold hsame.symm
                · cases hsame
              · rw [Function.update_of_ne hplace, hboxes place]
                simp [Point.oldIdt, Ne.symm hplace]
  | _ =>
      rw [hpoint] at hstep
      cases hstep

theorem Refines.step (h : Refines m v) (hstep : m.step a = some m') : Refines m' (v.step a) := by
  cases a with
  | call line entry => exact h.call hstep
  | replace place => exact h.replace hstep
  | load => exact h.load hstep
  | unmask => exact h.unmask hstep
  | dropOld => exact h.dropOld hstep

end Step

theorem Refines.start (masks : BitVec 8 × BitVec 8) :
    Refines (Machine.start masks) (Vectors.start masks) where
  loaded := rfl
  lines := fun i hi => by
    show lets masks i = lets masks (pic1Offset + i - pic1Offset)
    rw [Nat.add_sub_cancel_left]
  boxes := fun place => by simp [Machine.start, Point.oldIdt]
  stands := rfl

theorem refines_run {masks : BitVec 8 × BitVec 8} {acts : List Action} {m : Machine}
    (hrun : run Machine.step (Machine.start masks) acts = some m) :
    Refines m (acts.foldl Vectors.step (Vectors.start masks)) := by
  induction acts using List.reverseRecOn generalizing m with
  | nil =>
      cases hrun
      exact .start masks
  | append_singleton pre a ih =>
      obtain ⟨mid, hmid, hstep⟩ := run_snoc.mp hrun
      rw [List.foldl_append]
      exact (ih hmid).step hstep

/-! ### No call is stuck -/

/-- The step that a call takes next, with `place` for the new table. -/
def Point.next (place : Nat) : Point → Option Action
  | .idle => none
  | .changed _ _ => some (.replace place)
  | .replaced _ _ => some .load
  | .loaded _ _ => some .unmask
  | .masked _ => some .dropOld

/-- The line of the call under way, until its mask is written. -/
def Point.line : Point → Option Nat
  | .idle => none
  | .changed line _ => some line
  | .replaced line _ => some line
  | .loaded line _ => some line
  | .masked _ => none

theorem Refines.next {m : Machine} {v : Vectors} (h : Refines m v) {place : Nat} {a : Action}
    (hfree : m.heap place = none) (hline : ∀ line, m.point.line = some line → pic1Offset ≤ line)
    (ha : m.point.next place = some a) : (m.step a).isSome = true := by
  obtain ⟨-, -, hboxes, -⟩ := h
  cases hpoint : m.point with
  | idle =>
      rw [hpoint] at ha
      cases ha
  | changed line nIdt =>
      rw [hpoint] at ha
      cases ha
      simp only [Machine.step, hpoint, hfree, Option.isSome_some]
  | replaced line oldIdt =>
      rw [hpoint] at ha
      cases ha
      simp only [Machine.step, hpoint, Option.isSome_some]
  | loaded line oldIdt =>
      rw [hpoint] at ha hline
      cases ha
      simp only [Machine.step, hpoint, if_pos (hline line rfl), Option.isSome_some]
  | masked oldIdt =>
      rw [hpoint] at ha hboxes
      cases ha
      simp only [Machine.step, hpoint, Option.isSome_map]
      cases oldIdt with
      | initial => rfl
      | heaped ptr =>
          obtain ⟨table, htable⟩ := Option.isSome_iff_exists.mp ((hboxes ptr).mpr (.inr rfl))
          simp only [Machine.drop, htable, Option.isSome_some]

theorem Refines.called {m : Machine} {v : Vectors} (h : Refines m v) (hidle : m.point = .idle)
    {line : Nat} {entry : Handler} (hentry : hasEntry line = true) :
    (m.step (.call line entry)).isSome = true := by
  obtain ⟨hloaded, -, -, hstands⟩ := h
  rw [Machine.Stands, hidle] at hstands
  rw [show m.idtr = m.storage from hstands] at hloaded
  simp only [Machine.step, hidle, hloaded, hentry, if_true, Option.isSome_some]

/--
**The table is always there.**  For every run of calls of `set_interrupt`, whatever lines
and handlers, and wherever the heap puts the tables: at any time, also within a call, the
table that the processor has loaded is in memory and is the initial one with the entries
changed for which the copies were loaded; the controllers let through what they let through
at first and the lines of the calls; the heap holds the table in use and the one that is
still to be freed, and no other; and a call for a line of the controllers can be made and
goes on to its end.
-/
theorem idt_refines (masks : BitVec 8 × BitVec 8) (acts : List Action) (m : Machine)
    (hrun : run Machine.step (Machine.start masks) acts = some m) :
    m.read m.idtr = some (acts.foldl Vectors.step (Vectors.start masks)).table ∧
      (∀ i, i < 16 → lets m.masks i
        = (acts.foldl Vectors.step (Vectors.start masks)).isOpen (pic1Offset + i)) ∧
      (∀ place, (m.heap place).isSome = true ↔
        m.storage = .heaped place ∨ m.point.oldIdt = some (.heaped place)) ∧
      (∀ place a, m.heap place = none → (∀ line, m.point.line = some line → pic1Offset ≤ line) →
        m.point.next place = some a → (m.step a).isSome = true) ∧
      (m.point = .idle → ∀ line entry, hasEntry line = true →
        (m.step (.call line entry)).isSome = true) := by
  have h := refines_run hrun
  exact ⟨h.loaded, h.lines, h.boxes, fun _ _ => h.next, fun hidle _ _ => h.called hidle⟩

/-- The line of the network card gets its handler, and another one later; the second table is
put where nothing is, the third where the first was. -/
def twice : List Action :=
  [.call 0x2b .networkInterrupt, .replace 7, .load, .unmask, .dropOld,
    .call 0x2b (.other 1), .replace 8, .load, .unmask, .dropOld,
    .call 0x24 (.other 2), .replace 7, .load]

theorem idt_refines_twice :
    ∃ m, run Machine.step (Machine.start (0xf8#8, 0xff#8)) twice = some m ∧
      (m.read m.idtr).map (fun t => (t 8, t 0x20, t 0x2b, t 0x24))
        = some (some .doubleFaultHandler, some .timerInterruptHandler, some (.other 1),
          some (.other 2)) ∧
      m.read m.idtr
        = some (twice.foldl Vectors.step (Vectors.start (0xf8#8, 0xff#8))).table := by
  refine ⟨_, rfl, rfl, (idt_refines (0xf8#8, 0xff#8) twice _ rfl).1⟩

end Rucoonos.Idt
