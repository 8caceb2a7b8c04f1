/-
What is on the VGA screen after any writes.

The text on the screen is thought of as a strip of paper: the rows of the screen as it
was, and blank rows behind them.  The text starts on the last row of the old screen and
has one row for each of its pieces (`Wrap.layout`), and the screen is the part of the strip
that ends with the last piece (`rendering`).

The loops come first: a new line is `Buffer.scroll`.  Then a byte is followed on the
strip.  A scroll is an empty piece behind the others (`rendering_scroll`) and a cell that
is written is a byte behind the last piece (`rendering_write`).  So the induction is on
the text from its end, and its invariant is that the screen is the rendering of the text
so far and the column the length of its last piece (`writeString_eq`).
-/
import Rucoonos.Display.Vga
import Rucoonos.Lib.Wrap
import Mathlib.Data.List.GetD

namespace Rucoonos.Vga

open Slice Wrap

/-! ### The loops -/

section Loops

variable {b : Buffer} {row col : Nat} {c : ScreenChar}

theorem read_ok (hrow : row < bufferHeight) (hcol : col < bufferWidth) :
    b.read row col = .ok b.chars[row][col] :=
  dif_pos ⟨hrow, hcol⟩

theorem write_ok (hrow : row < bufferHeight) (hcol : col < bufferWidth) :
    b.write row col c = .ok ⟨b.chars.set row (b.chars[row].set col c)⟩ :=
  dif_pos ⟨hrow, hcol⟩

/-- The first `k` cells of a row are these, and no other row has changed. -/
structure Filled (b : Buffer) (row : Nat) (hrow : row < bufferHeight) (cells : Row) (k : Nat)
    (b' : Buffer) : Prop where
  others : ∀ r (hr : r < bufferHeight), r ≠ row → b'.chars[r] = b.chars[r]
  filled : ∀ j (hj : j < bufferWidth), j < k → b'.chars[row][j] = cells[j]

theorem Filled.write {b' : Buffer} {cells : Row} {hrow : row < bufferHeight}
    (h : Filled b row hrow cells col b') (hcol : col < bufferWidth) :
    Filled b row hrow cells (col + 1)
      ⟨b'.chars.set row (b'.chars[row].set col cells[col])⟩ := by
  refine ⟨fun r hr hne => ?_, fun j hj hlt => ?_⟩
  · rw [Vector.getElem_set_ne hrow hr (Ne.symm hne)]
    exact h.others r hr hne
  · rw [Vector.getElem_set_self]
    by_cases hj' : j = col
    · subst hj'
      rw [Vector.getElem_set_self]
    · rw [Vector.getElem_set_ne hcol hj (Ne.symm hj')]
      exact h.filled j hj (by omega)

/-- A row that is written from the left to the right, while the other rows stay. -/
theorem fillRow (hrow : row < bufferHeight) (cells : Row) {body : Buffer → Nat → Exec Buffer}
    (hbody : ∀ k b', (hk : k < bufferWidth) → Filled b row hrow cells k b' →
      body b' k = b'.write row k cells[k]) :
    forRange 0 bufferWidth body b = .ok ⟨b.chars.set row cells⟩ := by
  have hstart : Filled b row hrow cells 0 b :=
    ⟨fun r hr _ => rfl, fun j _ hlt => absurd hlt (Nat.not_lt_zero j)⟩
  obtain ⟨b', hloop, hall⟩ := forRange_ok (Filled b row hrow cells) (Nat.zero_le bufferWidth) hstart
    fun k b' _ hk h => ⟨_, (hbody k b' hk h).trans (write_ok hrow hk), h.write hk⟩
  have hset : b'.chars = b.chars.set row cells := by
    refine Vector.ext fun r hr => ?_
    by_cases hr' : r = row
    · subst hr'
      rw [Vector.getElem_set_self]
      exact Vector.ext fun j hj => hall.filled j hj hj
    · rw [Vector.getElem_set_ne hrow hr (Ne.symm hr')]
      exact hall.others r hr hr'
  rw [hloop, ← hset]

def blankRow (color : ColorCode) : Row := Vector.replicate bufferWidth ⟨32, color⟩

theorem clearRow_ok {w : Writer} (hrow : row < bufferHeight) :
    w.clearRow row = .ok { w with buffer := ⟨w.buffer.chars.set row (blankRow w.colorCode)⟩ } := by
  have hloop : forRange 0 bufferWidth
      (fun buffer col => buffer.write row col ⟨32, w.colorCode⟩) w.buffer = _ :=
    fillRow hrow (blankRow w.colorCode) fun k b' hk _ => by
      rw [blankRow, Vector.getElem_replicate]
  rw [Writer.clearRow, hloop]
  rfl

theorem copyUp_ok (hrow : row + 1 < bufferHeight) :
    b.copyUp (row + 1) = .ok ⟨b.chars.set row b.chars[row + 1]⟩ := by
  refine fillRow (Nat.lt_of_succ_lt hrow) b.chars[row + 1] fun k b' hk h => ?_
  rw [read_ok hrow hk, h.others (row + 1) hrow (Nat.succ_ne_self row)]
  rfl

/-- All rows one up, and a blank row at the end. -/
def Buffer.scroll (b : Buffer) (color : ColorCode) : Buffer :=
  ⟨Vector.ofFn fun r => (b.chars[r.val + 1]?).getD (blankRow color)⟩

/-- The rows in front of the `k`-th are what was one below, and the others are unchanged. -/
structure Moved (b : Buffer) (k : Nat) (b' : Buffer) : Prop where
  moved : ∀ r (hr : r + 1 < bufferHeight), r + 1 < k → b'.chars[r] = b.chars[r + 1]
  rest : ∀ r (hr : r < bufferHeight), k ≤ r + 1 → b'.chars[r] = b.chars[r]

theorem Moved.copyUp {k : Nat} {b' : Buffer} (h : Moved b (k + 1) b') (hk : k + 1 < bufferHeight) :
    Moved b (k + 2) ⟨b'.chars.set k b'.chars[k + 1]⟩ := by
  refine ⟨fun r hr hlt => ?_, fun r hr hge => ?_⟩
  · by_cases hr' : r = k
    · subst hr'
      rw [Vector.getElem_set_self]
      exact h.rest (r + 1) hr (by omega)
    · rw [Vector.getElem_set_ne _ _ (Ne.symm hr')]
      exact h.moved r hr (by omega)
  · rw [Vector.getElem_set_ne _ _ (by omega)]
    exact h.rest r hr (by omega)

/-- The rows are read before they are written over. -/
theorem newLine_ok (w : Writer) :
    w.newLine = .ok ⟨0, w.colorCode, w.buffer.scroll w.colorCode⟩ := by
  have hstart : Moved w.buffer 1 w.buffer := ⟨fun r _ hlt => by omega, fun r hr _ => rfl⟩
  obtain ⟨b', hloop, hmoved⟩ := forRange_ok (Moved w.buffer) (by decide : 1 ≤ bufferHeight) hstart
    fun k b' hlo hk h => by
      obtain ⟨k, rfl⟩ := Nat.exists_eq_add_of_le' hlo
      exact ⟨_, copyUp_ok hk, h.copyUp hk⟩
  have hscroll : b'.chars.set (bufferHeight - 1) (blankRow w.colorCode)
      = (w.buffer.scroll w.colorCode).chars := by
    refine Vector.ext fun r hr => ?_
    rw [Buffer.scroll, Vector.getElem_ofFn]
    by_cases hlast : r = bufferHeight - 1
    · subst hlast
      rw [Vector.getElem_set_self]
      rfl
    · have hbelow : r + 1 < bufferHeight := by omega
      rw [Vector.getElem_set_ne _ _ (Ne.symm hlast), Vector.getElem?_eq_getElem hbelow]
      exact hmoved.moved r hbelow hbelow
  rw [Writer.newLine, hloop, ok_bind, clearRow_ok (by decide)]
  rw [ok_bind, hscroll]
  rfl

end Loops

/-! ### The text on paper -/

section Paper

variable {screen : Buffer} {color : ColorCode} {front ps : List (List UInt8)} {last : List UInt8}
  {byte : UInt8}

/-- A row with a text written over it, from the left. -/
def overlay (under : Row) (color : ColorCode) (text : List UInt8) : Row :=
  Vector.ofFn fun c => (text[c.val]?).elim under[c] fun byte => ⟨byte, color⟩

/-- The rows of the screen, and blank rows behind them. -/
def paper (screen : Buffer) (color : ColorCode) (i : Nat) : Row :=
  (screen.chars[i]?).getD (blankRow color)

/-- The text on each row of the paper: the first piece is on the last row of the screen. -/
def textAt (ps : List (List UInt8)) (i : Nat) : List UInt8 :=
  if bufferHeight - 1 ≤ i then ps.getD (i - (bufferHeight - 1)) [] else []

/-- The part of the paper that ends with the last piece. -/
def rendering (screen : Buffer) (color : ColorCode) (ps : List (List UInt8)) : Buffer :=
  ⟨Vector.ofFn fun r =>
    overlay (paper screen color (r + (ps.length - 1))) color (textAt ps (r + (ps.length - 1)))⟩

theorem getElem_overlay {under : Row} {text : List UInt8} {c : Nat} (hc : c < bufferWidth) :
    (overlay under color text)[c] = (text[c]?).elim under[c] fun byte => ⟨byte, color⟩ := by
  rw [overlay, Vector.getElem_ofFn]
  rfl

@[simp] theorem overlay_nil (under : Row) : overlay under color [] = under := by
  refine Vector.ext fun c hc => ?_
  rw [getElem_overlay hc]
  rfl

theorem overlay_snoc (under : Row) (h : last.length < bufferWidth) :
    overlay under color (last ++ [byte])
      = (overlay under color last).set last.length ⟨byte, color⟩ := by
  refine Vector.ext fun c hc => ?_
  rw [getElem_overlay hc, Vector.getElem_set, getElem_overlay hc]
  by_cases hlast : last.length = c
  · subst hlast
    rw [if_pos rfl, List.getElem?_concat_length]
    rfl
  · rw [if_neg hlast]
    rcases Nat.lt_or_ge c last.length with hlt | hge
    · rw [List.getElem?_append_left hlt]
    · rw [List.getElem?_eq_none hge, List.getElem?_eq_none (by simp; omega)]

theorem paper_behind {i : Nat} (h : bufferHeight ≤ i) : paper screen color i = blankRow color := by
  rw [paper, Vector.getElem?_eq_none h]
  rfl

theorem textAt_behind {i : Nat} (h : bufferHeight - 1 + ps.length ≤ i) : textAt ps i = [] := by
  rw [textAt, if_pos (by omega), List.getD_eq_default _ _ (by omega)]

theorem textAt_last : textAt (front ++ [last]) (bufferHeight - 1 + front.length) = last := by
  rw [textAt, if_pos (Nat.le_add_right _ _), Nat.add_sub_cancel_left, List.getD_eq_getElem?_getD,
    List.getElem?_concat_length]
  rfl

theorem textAt_front {i : Nat} (h : i < bufferHeight - 1 + front.length) :
    textAt (front ++ [last]) i = textAt front i := by
  unfold textAt
  split
  · rw [List.getD_append _ _ _ _ (by omega)]
  · rfl

/-- An empty piece is no text. -/
theorem textAt_append_nil (i : Nat) : textAt (ps ++ [[]]) i = textAt ps i := by
  rcases Nat.lt_trichotomy i (bufferHeight - 1 + ps.length) with hlt | rfl | hgt
  · exact textAt_front hlt
  · rw [textAt_last, textAt_behind (Nat.le_refl _)]
  · rw [textAt_behind (by rw [List.length_append]; exact hgt), textAt_behind (Nat.le_of_lt hgt)]

theorem getElem_rendering {r : Nat} (hr : r < bufferHeight) :
    (rendering screen color ps).chars[r]
      = overlay (paper screen color (r + (ps.length - 1))) color
          (textAt ps (r + (ps.length - 1))) := by
  rw [rendering, Vector.getElem_ofFn]

theorem getElem_rendering_snoc {r : Nat} (hr : r < bufferHeight) :
    (rendering screen color (front ++ [last])).chars[r]
      = overlay (paper screen color (r + front.length)) color
          (textAt (front ++ [last]) (r + front.length)) := by
  rw [getElem_rendering hr, List.length_append, List.length_singleton, Nat.add_sub_cancel]

theorem rendering_start : rendering screen color [[]] = screen := by
  have hblank : ∀ i, textAt ([] ++ [[]]) i = [] := fun i => by
    rw [textAt_append_nil, textAt, List.getD_nil, ite_self]
  refine Buffer.ext (Vector.ext fun r hr => ?_)
  rw [show ([[]] : List (List UInt8)) = [] ++ [[]] from rfl, getElem_rendering_snoc hr, hblank,
    overlay_nil, paper, List.length_nil, Nat.add_zero, Vector.getElem?_eq_getElem hr]
  rfl

/-- A scroll is an empty piece behind the others. -/
theorem rendering_scroll (hne : ps ≠ []) :
    rendering screen color (ps ++ [[]]) = (rendering screen color ps).scroll color := by
  have hlength := List.length_pos_iff.mpr hne
  refine Buffer.ext (Vector.ext fun r hr => ?_)
  rw [getElem_rendering_snoc hr, textAt_append_nil, Buffer.scroll, Vector.getElem_ofFn]
  by_cases hlast : r + 1 < bufferHeight
  · rw [Vector.getElem?_eq_getElem hlast, Option.getD_some, getElem_rendering hlast,
      show r + 1 + (ps.length - 1) = r + ps.length by omega]
  · rw [Vector.getElem?_eq_none (Nat.le_of_not_lt hlast), textAt_behind (by omega), overlay_nil,
      paper_behind (by omega)]
    rfl

/-- A cell that is written is a byte behind the last piece. -/
theorem rendering_write (h : last.length < bufferWidth) :
    (rendering screen color (front ++ [last])).write (bufferHeight - 1) last.length ⟨byte, color⟩
      = .ok (rendering screen color (front ++ [last ++ [byte]])) := by
  have hrow : bufferHeight - 1 < bufferHeight := by decide
  rw [write_ok hrow h, Except.ok.injEq]
  refine Buffer.ext (Vector.ext fun r hr => ?_)
  rw [getElem_rendering_snoc hr, getElem_rendering_snoc hrow, textAt_last]
  by_cases hlast : r = bufferHeight - 1
  · subst hlast
    rw [Vector.getElem_set_self, textAt_last, overlay_snoc _ h]
  · have hfront : r + front.length < bufferHeight - 1 + front.length := by omega
    rw [Vector.getElem_set_ne hrow hr (Ne.symm hlast), getElem_rendering_snoc hr,
      textAt_front hfront, textAt_front hfront]

end Paper

/-! ### Writing a text -/

section Text

variable {screen : Buffer} {color : ColorCode}

/-- What is shown for a byte. -/
def shown (byte : UInt8) : UInt8 :=
  if byte = newline ∨ 0x20 ≤ byte ∧ byte ≤ 0x7e then byte else 0xfe

/-- The pieces of a text, as they are shown. -/
def shownPieces (text : List UInt8) : List (List UInt8) :=
  layout bufferWidth newline (text.map shown)

/-- The writer whose screen shows these pieces. -/
def Writer.showing (screen : Buffer) (color : ColorCode) (ps : List (List UInt8)) : Writer :=
  ⟨(ps.getLastD []).length, color, rendering screen color ps⟩

theorem showing_snoc (front : List (List UInt8)) (last : List UInt8) :
    Writer.showing screen color (front ++ [last])
      = ⟨last.length, color, rendering screen color (front ++ [last])⟩ := by
  rw [Writer.showing, List.getLastD_concat]

theorem newLine_showing {ps : List (List UInt8)} (hne : ps ≠ []) :
    (Writer.showing screen color ps).newLine = .ok (.showing screen color (ps ++ [[]])) := by
  rw [newLine_ok, showing_snoc, rendering_scroll hne]
  rfl

/-- Any byte but a newline is put behind the last piece. -/
theorem writeByte_showing {byte : UInt8} (hbyte : byte ≠ newline) {ps qs : List (List UInt8)}
    (h : Grows bufferWidth byte ps qs) :
    (Writer.showing screen color ps).writeByte byte = .ok (.showing screen color qs) := by
  rw [Writer.writeByte, if_neg hbyte]
  cases h with
  | room front hroom =>
      rw [showing_snoc, showing_snoc, if_neg (Nat.not_le_of_lt hroom), pure_eq_ok, ok_bind]
      dsimp only
      rw [rendering_write hroom, List.length_append]
      rfl
  | @full front last hfull =>
      -- The column is behind the row, so there is a new line first.
      have hcolumn : (Writer.showing screen color (front ++ [last])).columnPosition
          ≥ bufferWidth := by
        rw [showing_snoc]
        exact Nat.le_of_eq hfull.symm
      have hempty : ([] : List UInt8).length < bufferWidth := by decide
      rw [if_pos hcolumn, newLine_showing (by simp), ok_bind, showing_snoc, showing_snoc]
      dsimp only
      rw [rendering_write hempty]
      rfl

/-- The match over the byte in `write_string`. -/
theorem writeByte_shown (w : Writer) (byte : UInt8) :
    (if 0x20 ≤ byte ∧ byte ≤ 0x7e ∨ byte = newline then w.writeByte byte else w.writeByte 0xfe)
      = w.writeByte (shown byte) := by
  rw [shown, apply_ite w.writeByte]
  exact if_congr or_comm rfl rfl

/-- There is a last piece, and it fits a row. -/
theorem shownPieces_eq_snoc (text : List UInt8) :
    ∃ front last, shownPieces text = front ++ [last] ∧ last.length ≤ bufferWidth :=
  layout_eq_snoc (by decide) _

/-- One byte more. -/
theorem writeByte_shownPieces (text : List UInt8) (byte : UInt8) :
    (Writer.showing screen color (shownPieces text)).writeByte (shown byte)
      = .ok (.showing screen color (shownPieces (text ++ [byte]))) := by
  have hsnoc : (text ++ [byte]).map shown = text.map shown ++ [shown byte] := List.map_append
  rw [shownPieces, shownPieces, hsnoc]
  by_cases hbyte : shown byte = newline
  · rw [hbyte, layout_snoc_sep, Writer.writeByte, if_pos rfl]
    obtain ⟨front, last, hps, -⟩ := shownPieces_eq_snoc text
    refine newLine_showing ?_
    rw [← shownPieces, hps]
    exact List.concat_ne_nil last front
  · exact writeByte_showing hbyte (layout_snoc (by decide) hbyte _)

/-- The text is written byte by byte, and the writer shows what was written so far. -/
theorem writeString_eq (text : List UInt8) :
    (Writer.mk 0 color screen).writeString text
      = .ok (.showing screen color (shownPieces text)) := by
  induction text using List.reverseRecOn with
  | nil =>
      rw [shownPieces, List.map_nil, layout_nil, Writer.showing, rendering_start]
      rfl
  | append_singleton text byte ih =>
      rw [Writer.writeString] at ih ⊢
      rw [List.foldlM_append, ih, ok_bind, List.foldlM_cons, writeByte_shown,
        writeByte_shownPieces]
      rfl

/-- Nothing depends on where one call ends and the next one begins. -/
theorem writeStrings_flatten (w : Writer) (strings : List (List UInt8)) :
    w.writeStrings strings = w.writeString strings.flatten := by
  induction strings generalizing w with
  | nil => rfl
  | cons s strings ih =>
      rw [List.flatten_cons, Writer.writeString, List.foldlM_append]
      rw [Writer.writeStrings, List.foldlM_cons]
      exact bind_congr fun w' => ih w'

end Text

/--
**What the screen shows.**  For every screen, every colour and every sequence of calls of
`write_string` on a writer in column 0: no call panics, the result is that of one call with
all strings in one, the column is at most 80, and column and screen are those of the
reference.  The bytes are shown as themselves if they can be printed and as `0xfe`
otherwise, the text is split at the newlines and the lines into pieces of at most 80 bytes.
The last piece is in the last row and each other one above its successor; the first is
written over the last row of the screen as it was, the others over blank rows, and above
them is the rest of the old screen.
-/
theorem writeStrings_renders (screen : Buffer) (color : ColorCode) (strings : List (List UInt8)) :
    ∃ w, (Writer.mk 0 color screen).writeStrings strings = .ok w ∧
      (Writer.mk 0 color screen).writeString strings.flatten = .ok w ∧
      w.columnPosition ≤ bufferWidth ∧
      w.columnPosition = ((shownPieces strings.flatten).getLastD []).length ∧
      w.buffer = rendering screen color (shownPieces strings.flatten) := by
  obtain ⟨front, last, hps, hlast⟩ := shownPieces_eq_snoc strings.flatten
  refine ⟨.showing screen color (shownPieces strings.flatten), ?_, writeString_eq _, ?_, rfl, rfl⟩
  · rw [writeStrings_flatten, writeString_eq]
  · rw [hps, showing_snoc]
    exact hlast

end Rucoonos.Vga
