/-
Text that is broken into lines of limited width.

`layout n sep text` splits a text at every `sep`, and each of the lines into pieces of
`n` elements and what is left.  A line has at least one piece, which may be empty, and a
line that fills its last piece has no other one behind it.

The layout of a text is known from the layout of what comes before its last element: a
separator starts an empty piece (`layout_snoc_sep`), and anything else goes to the end of
the last piece, or starts a new one if that is full (`Grows`, `layout_snoc`).
-/
import Mathlib.Data.List.Basic

namespace Wrap

variable {α : Type} {n : Nat} {a : α}

/-- The pieces of a line: all but the last have `n` elements. -/
def pieces (n : Nat) (line : List α) : List (List α) :=
  if 0 < n ∧ n < line.length then line.take n :: pieces n (line.drop n) else [line]
termination_by line.length
decreasing_by
  rw [List.length_drop]
  omega

theorem pieces_of_le {line : List α} (h : line.length ≤ n) : pieces n line = [line] := by
  rw [pieces, if_neg (by omega)]

theorem pieces_of_lt {line : List α} (hn : 0 < n) (h : n < line.length) :
    pieces n line = line.take n :: pieces n (line.drop n) := by
  rw [pieces, if_pos ⟨hn, h⟩]

/-- `a` is put behind the last piece, or into a piece of its own if that one is full. -/
inductive Grows (n : Nat) (a : α) : List (List α) → List (List α) → Prop
  | room (front : List (List α)) {last : List α} (h : last.length < n) :
      Grows n a (front ++ [last]) (front ++ [last ++ [a]])
  | full (front : List (List α)) {last : List α} (h : last.length = n) :
      Grows n a (front ++ [last]) (front ++ [last] ++ [[a]])

theorem Grows.append_left {ps qs : List (List α)} (h : Grows n a ps qs) (before : List (List α)) :
    Grows n a (before ++ ps) (before ++ qs) := by
  cases h with
  | room front h =>
      rw [← List.append_assoc, ← List.append_assoc]
      exact .room _ h
  | full front h =>
      rw [← List.append_assoc, ← List.append_assoc, ← List.append_assoc]
      exact .full _ h

/-- What has grown ends with a piece that is not too long. -/
theorem Grows.eq_snoc {ps qs : List (List α)} (hn : 0 < n) (h : Grows n a ps qs) :
    ∃ front last, qs = front ++ [last] ∧ last.length ≤ n := by
  cases h with
  | room front h => exact ⟨front, _, rfl, by rw [List.length_append]; exact h⟩
  | full front h => exact ⟨_, [a], rfl, hn⟩

theorem pieces_snoc (hn : 0 < n) (line : List α) (a : α) :
    Grows n a (pieces n line) (pieces n (line ++ [a])) := by
  -- Along the recursion: the first piece is cut off as long as it is not the last one.
  induction line using pieces.induct n with
  | case1 line h ih =>
      have hlonger : n < (line ++ [a]).length := by
        rw [List.length_append]
        omega
      rw [pieces_of_lt hn h.2, pieces_of_lt hn hlonger,
        List.take_append_of_le_length (by omega), List.drop_append_of_le_length (by omega)]
      exact ih.append_left [line.take n]
  | case2 line h =>
      rcases Nat.lt_or_ge line.length n with hlt | hge
      · rw [pieces_of_le (by omega), pieces_of_le (by rw [List.length_append]; exact hlt)]
        exact .room [] hlt
      · have heq : line.length = n := by omega
        rw [pieces_of_le (by omega), pieces_of_lt hn (by simp [heq]), ← heq, List.take_left,
          List.drop_left, heq, pieces_of_le (show [a].length ≤ n from hn)]
        exact .full [] heq

section Layout

variable [BEq α] {sep : α}

/-- The pieces of all lines of a text. -/
def layout (n : Nat) (sep : α) (text : List α) : List (List α) :=
  (text.splitOn sep).flatMap (pieces n)

@[simp] theorem layout_nil : layout n sep [] = [[]] := by
  rw [layout, List.splitOn_nil, List.flatMap_singleton, pieces_of_le (Nat.zero_le n)]

variable [LawfulBEq α]

theorem layout_snoc_sep (text : List α) :
    layout n sep (text ++ [sep]) = layout n sep text ++ [[]] := by
  rw [layout, List.splitOn_append_cons_self, List.flatMap_append]
  exact congrArg _ layout_nil

theorem splitOn_snoc (ha : a ≠ sep) (text : List α) :
    ∃ front last, text.splitOn sep = front ++ [last] ∧
      (text ++ [a]).splitOn sep = front ++ [last ++ [a]] := by
  induction text with
  | nil => exact ⟨[], [], List.splitOn_nil sep, List.splitOn_eq_singleton (by simpa using ha.symm)⟩
  | cons b rest ih =>
      obtain ⟨front, last, hrest, hsnoc⟩ := ih
      rw [List.cons_append, List.splitOn_cons_eq_if_modifyHead, List.splitOn_cons_eq_if_modifyHead,
        hrest, hsnoc]
      by_cases hb : (b == sep) = true
      · rw [if_pos hb, if_pos hb]
        exact ⟨[] :: front, last, rfl, rfl⟩
      · rw [if_neg hb, if_neg hb]
        cases front with
        | nil => exact ⟨[], b :: last, rfl, rfl⟩
        | cons line front => exact ⟨(b :: line) :: front, last, rfl, rfl⟩

theorem layout_snoc (hn : 0 < n) (ha : a ≠ sep) (text : List α) :
    Grows n a (layout n sep text) (layout n sep (text ++ [a])) := by
  obtain ⟨front, last, htext, hsnoc⟩ := splitOn_snoc ha text
  rw [layout, layout, htext, hsnoc, List.flatMap_append, List.flatMap_append,
    List.flatMap_singleton, List.flatMap_singleton]
  exact (pieces_snoc hn last a).append_left _

theorem layout_eq_snoc (hn : 0 < n) (text : List α) :
    ∃ front last, layout n sep text = front ++ [last] ∧ last.length ≤ n := by
  rcases List.eq_nil_or_concat text with rfl | ⟨text, a, rfl⟩
  · exact ⟨[], [], layout_nil, Nat.zero_le n⟩
  · rw [List.concat_eq_append]
    by_cases ha : a = sep
    · rw [ha, layout_snoc_sep]
      exact ⟨_, [], rfl, Nat.zero_le n⟩
    · exact (layout_snoc hn ha text).eq_snoc hn

/-- A full line has no empty piece behind it, an empty line has one. -/
example : layout 2 0 [1, 2, 0, 3, 0] = [[1, 2], [3], []] := by
  simp [layout, List.splitOn_cons_eq_if_modifyHead, pieces]

end Layout

end Wrap
