/-
What `draw` does to the frame buffer.

A line of the buffer takes `stride` pixels, of which the first
`horizontal_resolution` are visible.  `drawn` is what drawing a pixel is for: the three
bytes of a visible pixel take the colour, and nothing happens anywhere else.

`draw_eq` says what the code does instead.  It counts the lines by
`horizontal_resolution`, tests only that the place it computed lies before the last
pixel of the buffer, and panics where that place does not fit a `usize`.  The two agree
at a pixel exactly under `Sound`.
-/
import Rucoonos.Display.Video
import Mathlib.Algebra.Group.Nat.Defs
import Mathlib.Tactic.Ring

namespace Rucoonos.Video

open Slice

/-- What the first call of `init` leaves, and every later one. -/
theorem init_first (info info' : FrameBufferInfo) (raw raw' : List UInt8) :
    Screen.unset.init info raw = ⟨some info, some raw⟩ ∧
      (Screen.unset.init info raw).init info' raw' = Screen.unset.init info raw :=
  ⟨rfl, rfl⟩

/-- A description as the boot loader gives it. -/
structure FrameBufferInfo.Valid (info : FrameBufferInfo) : Prop where
  channels : 3 ≤ info.bytesPerPixel.toNat
  padded : info.horizontalResolution.toNat ≤ info.stride.toNat
  byteLen : info.byteLen.toNat
    = info.stride.toNat * info.verticalResolution.toNat * info.bytesPerPixel.toNat

def FrameBufferInfo.Visible (info : FrameBufferInfo) (x y : UInt64) : Prop :=
  x.toNat < info.horizontalResolution.toNat ∧ y.toNat < info.verticalResolution.toNat

instance instDecidableVisible (info : FrameBufferInfo) (x y : UInt64) :
    Decidable (info.Visible x y) :=
  inferInstanceAs (Decidable (_ ∧ _))

/-- The three bytes at `p` take the colour. -/
def paint (raw : List UInt8) (p : Nat) (color : Color) : List UInt8 :=
  ((raw.set p color.red).set (p + 1) color.green).set (p + 2) color.blue

/-- What drawing the pixel is for. -/
def drawn (info : FrameBufferInfo) (raw : List UInt8) (x y : UInt64) (color : Color) :
    List UInt8 :=
  if info.Visible x y then
    paint raw ((y.toNat * info.stride.toNat + x.toNat) * info.bytesPerPixel.toNat) color
  else raw

/-- The pixel of the buffer that `draw` takes for the one at `x`, `y`. -/
def cell (info : FrameBufferInfo) (x y : UInt64) : Nat :=
  y.toNat * info.horizontalResolution.toNat + x.toNat

/--
Where `draw` does what it is for: a visible pixel stands on the first line or on a
screen without padding, and is not the last of the buffer; a pixel that is not visible
lands on that last pixel or behind it, at a place a `usize` can still hold.
-/
def Sound (info : FrameBufferInfo) (x y : UInt64) : Prop :=
  (info.Visible x y →
    (y = 0 ∨ info.stride = info.horizontalResolution) ∧
      y.toNat * info.stride.toNat + x.toNat + 1
        ≠ info.stride.toNat * info.verticalResolution.toNat) ∧
  (¬ info.Visible x y →
    info.stride.toNat * info.verticalResolution.toNat ≤ cell info x y + 1 ∧
      (cell info x y + 1) * info.bytesPerPixel.toNat < 2 ^ 64)

instance instDecidableSound (info : FrameBufferInfo) (x y : UInt64) :
    Decidable (Sound info x y) :=
  inferInstanceAs (Decidable ((_ → _) ∧ (_ → _)))

/-! ### The bytes of a pixel -/

theorem length_paint (raw : List UInt8) (p : Nat) (color : Color) :
    (paint raw p color).length = raw.length := by
  simp only [paint, List.length_set]

theorem set_paint {raw : List UInt8} {i p : Nat} (h : i < p ∨ p + 3 ≤ i) (v : UInt8)
    (color : Color) : paint (raw.set i v) p color = (paint raw p color).set i v := by
  unfold paint
  rw [List.set_comm v color.red (show i ≠ p by omega),
    List.set_comm v color.green (show i ≠ p + 1 by omega),
    List.set_comm v color.blue (show i ≠ p + 2 by omega)]

/-- Pixels that share no byte are painted in either order. -/
theorem paint_comm {raw : List UInt8} {p q : Nat} (h : p + 3 ≤ q ∨ q + 3 ≤ p) (c d : Color) :
    paint (paint raw p c) q d = paint (paint raw q d) p c := by
  show paint (((raw.set p c.red).set (p + 1) c.green).set (p + 2) c.blue) q d = _
  rw [set_paint (by omega), set_paint (by omega), set_paint (by omega)]
  rfl

/-- Painting shows, on a buffer of zeros, at the first byte of the pixel and nowhere before. -/
theorem paint_zeros_inj {n p q : Nat} (hp : p < n) (hq : q < n)
    (h : paint (zeros n) p ⟨1, 1, 1⟩ = paint (zeros n) q ⟨1, 1, 1⟩) : p = q := by
  have first : ∀ {p q : Nat}, p < n → p < q →
      paint (zeros n) p ⟨1, 1, 1⟩ ≠ paint (zeros n) q ⟨1, 1, 1⟩ := by
    intro p q hp hpq heq
    have hbyte := congrArg (fun raw : List UInt8 => raw[p]?) heq
    simp [paint, zeros, hp, show q ≠ p by omega,
      show q + 1 ≠ p by omega, show q + 2 ≠ p by omega] at hbyte
  rcases Nat.lt_trichotomy p q with hlt | heq | hgt
  · exact absurd h (first hp hlt)
  · exact heq
  · exact absurd h.symm (first hq hgt)

theorem paint_zeros_ne {n p : Nat} (hp : p < n) : paint (zeros n) p ⟨1, 1, 1⟩ ≠ zeros n := by
  intro heq
  have hbyte := congrArg (fun raw : List UInt8 => raw[p]?) heq
  simp [paint, zeros, hp] at hbyte

/-! ### What `draw` does -/

section Draw

variable {info : FrameBufferInfo} {x y : UInt64} {raw : List UInt8} {color : Color}

theorem setByte_ok {i : UInt64} {v : UInt8} (h : i.toNat < raw.length) :
    setByte raw i v = .ok (raw.set i.toNat v) :=
  if_pos h

theorem drawLocked_ok {start : UInt64} (h : start.toNat + 2 < raw.length)
    (hraw : raw.length < 2 ^ 64) :
    drawLocked raw start color = .ok (paint raw start.toNat color) := by
  have hone : (1 : UInt64).toNat = 1 := rfl
  have htwo : (2 : UInt64).toNat = 2 := rfl
  obtain ⟨green, hgreen, hg⟩ := addU64_ok (a := start) (b := 1) (by omega)
  obtain ⟨blue, hblue, hb⟩ := addU64_ok (a := start) (b := 2) (by omega)
  rw [drawLocked, setByte_ok (by omega), ok_bind, hgreen, ok_bind,
    setByte_ok (by rw [List.length_set]; omega), ok_bind, hblue, ok_bind,
    setByte_ok (by rw [List.length_set, List.length_set]; omega), hg, hb, hone, htwo]
  rfl

/-- The place of the pixel, where it fits. -/
theorem startOf_ok (h : cell info x y * info.bytesPerPixel.toNat < 2 ^ 64)
    (hb : 0 < info.bytesPerPixel.toNat) :
    ∃ start, startOf info x y = .ok start ∧
      start.toNat = cell info x y * info.bytesPerPixel.toNat := by
  unfold cell at h ⊢
  rw [Nat.add_mul] at h ⊢
  have hle := Nat.le_mul_of_pos_right (y.toNat * info.horizontalResolution.toNat) hb
  obtain ⟨lines, hlines, hl⟩ :=
    mulU64_ok (a := y) (b := info.horizontalResolution) (by omega)
  obtain ⟨first, hfirst, hf⟩ :=
    mulU64_ok (a := lines) (b := info.bytesPerPixel) (by rw [hl]; omega)
  obtain ⟨column, hcolumn, hc⟩ := mulU64_ok (a := x) (b := info.bytesPerPixel) (by omega)
  rw [hl] at hf
  obtain ⟨start, hstart, hs⟩ := addU64_ok (a := first) (b := column) (by omega)
  refine ⟨start, ?_, by rw [hs, hf, hc]⟩
  rw [startOf]
  simp only [hlines, hfirst, hcolumn, hstart, ok_bind]

theorem startOf_overflow (h : 2 ^ 64 ≤ cell info x y * info.bytesPerPixel.toNat) :
    startOf info x y = .error .overflow := by
  unfold cell at h
  rw [Nat.add_mul] at h
  rw [startOf]
  by_cases hlines : y.toNat * info.horizontalResolution.toNat < 2 ^ 64
  · obtain ⟨lines, hlines, hl⟩ := mulU64_ok hlines
    rw [hlines, ok_bind]
    by_cases hfirst : lines.toNat * info.bytesPerPixel.toNat < 2 ^ 64
    · obtain ⟨first, hfirst, hf⟩ := mulU64_ok hfirst
      rw [hfirst, ok_bind]
      by_cases hcolumn : x.toNat * info.bytesPerPixel.toNat < 2 ^ 64
      · obtain ⟨column, hcolumn, hc⟩ := mulU64_ok hcolumn
        rw [hcolumn, ok_bind]
        rw [hl] at hf
        exact addU64_overflow (by omega)
      · rw [mulU64_overflow hcolumn, error_bind]
    · rw [mulU64_overflow hfirst, error_bind]
  · rw [mulU64_overflow hlines, error_bind]

/-- The three outcomes of a call on a frame buffer that was set. -/
theorem draw_eq (hv : info.Valid) (hraw : raw.length = info.byteLen.toNat) :
    (Screen.mk (some info) (some raw)).draw x y color =
      if (cell info x y + 1) * info.bytesPerPixel.toNat < 2 ^ 64 then
        if info.stride.toNat * info.verticalResolution.toNat ≤ cell info x y + 1 then
          .ok ⟨some info, some raw⟩
        else .ok ⟨some info, some (paint raw (cell info x y * info.bytesPerPixel.toNat) color)⟩
      else .error .overflow := by
  have hb : 0 < info.bytesPerPixel.toNat := by have := hv.channels; omega
  rw [Screen.draw]
  simp only [show unwrap (some info) = .ok info from rfl, ok_bind, pure_eq_ok]
  by_cases hnext : (cell info x y + 1) * info.bytesPerPixel.toNat < 2 ^ 64
  · rw [if_pos hnext]
    rw [Nat.add_mul, Nat.one_mul] at hnext
    obtain ⟨start, hstart, hs⟩ := startOf_ok (x := x) (y := y) (by omega) hb
    obtain ⟨next, hadd, hn⟩ := addU64_ok (a := start) (b := info.bytesPerPixel) (by omega)
    rw [hstart, ok_bind, hadd, ok_bind]
    -- The test on bytes is one on pixels.
    have htest : info.byteLen ≤ next ↔
        info.stride.toNat * info.verticalResolution.toNat ≤ cell info x y + 1 := by
      rw [UInt64.le_iff_toNat_le, hn, hs, hv.byteLen,
        show cell info x y * info.bytesPerPixel.toNat + info.bytesPerPixel.toNat
          = (cell info x y + 1) * info.bytesPerPixel.toNat by ring]
      exact Nat.mul_le_mul_right_iff hb
    by_cases hend : info.byteLen ≤ next
    · rw [if_pos hend, if_pos (htest.mp hend)]
    · rw [if_neg hend, if_neg (mt htest.mpr hend)]
      have hinside : start.toNat + 2 < raw.length := by
        rw [UInt64.le_iff_toNat_le] at hend
        have := hv.channels
        omega
      rw [drawLocked_ok hinside (by rw [hraw]; exact info.byteLen.toNat_lt), ok_bind, hs]
  · rw [if_neg hnext]
    rw [Nat.add_mul, Nat.one_mul] at hnext
    by_cases hfits : cell info x y * info.bytesPerPixel.toNat < 2 ^ 64
    · obtain ⟨start, hstart, hs⟩ := startOf_ok hfits hb
      rw [hstart, ok_bind, addU64_overflow (by omega), error_bind]
    · rw [startOf_overflow (by omega), error_bind]

end Draw

/-! ### Where it is right -/

section Sound

variable {info : FrameBufferInfo} {x y : UInt64}

/-- The pixels of the buffer up to a visible one are fewer than all of them. -/
theorem FrameBufferInfo.Visible.inside (hv : info.Valid) (h : info.Visible x y) :
    y.toNat * info.stride.toNat + x.toNat + 1
      ≤ info.stride.toNat * info.verticalResolution.toNat := by
  have hpad := hv.padded
  have hx := h.1
  have hline : (y.toNat + 1) * info.stride.toNat
      ≤ info.verticalResolution.toNat * info.stride.toNat := Nat.mul_le_mul_right _ h.2
  rw [Nat.add_mul, Nat.one_mul, Nat.mul_comm info.verticalResolution.toNat] at hline
  omega

/-- On the first line, and without padding, the code counts the lines as they are. -/
theorem cell_eq_iff : cell info x y = y.toNat * info.stride.toNat + x.toNat ↔
    y = 0 ∨ info.stride = info.horizontalResolution := by
  unfold cell
  rw [Nat.add_right_cancel_iff]
  constructor
  · intro h
    rcases Nat.eq_zero_or_pos y.toNat with hy | hy
    · exact .inl (UInt64.toNat_inj.mp hy)
    · exact .inr (UInt64.toNat_inj.mp (Nat.eq_of_mul_eq_mul_left hy h).symm)
  · rintro (hy | hs)
    · rw [hy]
      show 0 * _ = 0 * _
      rw [Nat.zero_mul, Nat.zero_mul]
    · rw [hs]

/-- One pixel of the buffer starts at least three bytes before the next. -/
theorem pixel_apart (hv : info.Valid) {i j : Nat} (h : i < j) :
    i * info.bytesPerPixel.toNat + 3 ≤ j * info.bytesPerPixel.toNat := by
  have hle : (i + 1) * info.bytesPerPixel.toNat ≤ j * info.bytesPerPixel.toNat :=
    Nat.mul_le_mul_right _ h
  rw [Nat.add_mul, Nat.one_mul] at hle
  have := hv.channels
  omega

/-- The pixels of the buffer are as many as its bytes allow. -/
theorem pixel_lt_byteLen (hv : info.Valid) {i : Nat}
    (h : i < info.stride.toNat * info.verticalResolution.toNat) :
    i * info.bytesPerPixel.toNat < info.byteLen.toNat := by
  rw [hv.byteLen]
  exact Nat.mul_lt_mul_of_pos_right h (by have := hv.channels; omega)

/-- `draw` does what it is for, on every buffer and with every colour. -/
def Draws (info : FrameBufferInfo) (x y : UInt64) : Prop :=
  ∀ raw color, raw.length = info.byteLen.toNat →
    (Screen.mk (some info) (some raw)).draw x y color
      = .ok ⟨some info, some (drawn info raw x y color)⟩

theorem draws_of_sound (hv : info.Valid) (h : Sound info x y) : Draws info x y := by
  intro raw color hraw
  rw [draw_eq hv hraw, drawn]
  by_cases hvis : info.Visible x y
  · obtain ⟨hline, hlast⟩ := h.1 hvis
    have hcell := (cell_eq_iff (x := x)).mpr hline
    have hin := hvis.inside hv
    have hfits : (cell info x y + 1) * info.bytesPerPixel.toNat ≤ info.byteLen.toNat := by
      rw [hv.byteLen, hcell]
      exact Nat.mul_le_mul_right _ hin
    have hlt := info.byteLen.toNat_lt
    rw [if_pos hvis, if_pos (by omega), if_neg (by omega), hcell]
  · obtain ⟨hout, hfits⟩ := h.2 hvis
    rw [if_neg hvis, if_pos hfits, if_pos hout]

/-- A buffer of zeros shows every way in which `draw` can miss. -/
theorem sound_of_draws (hv : info.Valid) (h : Draws info x y) : Sound info x y := by
  have hraw : (zeros info.byteLen.toNat).length = info.byteLen.toNat := length_zeros _
  have hdraw := h (zeros info.byteLen.toNat) ⟨1, 1, 1⟩ hraw
  rw [draw_eq hv hraw] at hdraw
  by_cases hfits : (cell info x y + 1) * info.bytesPerPixel.toNat < 2 ^ 64
  · rw [if_pos hfits] at hdraw
    by_cases hout : info.stride.toNat * info.verticalResolution.toNat ≤ cell info x y + 1
    · rw [if_pos hout, drawn] at hdraw
      refine ⟨fun hvis => ?_, fun _ => ⟨hout, hfits⟩⟩
      -- A visible pixel was left as it was.
      rw [if_pos hvis] at hdraw
      simp only [Except.ok.injEq, Screen.mk.injEq, Option.some.injEq, true_and] at hdraw
      exact absurd hdraw.symm
        (paint_zeros_ne (pixel_lt_byteLen hv (hvis.inside hv)))
    · rw [if_neg hout, drawn] at hdraw
      have hcell : cell info x y < info.stride.toNat * info.verticalResolution.toNat := by omega
      by_cases hvis : info.Visible x y
      · rw [if_pos hvis] at hdraw
        simp only [Except.ok.injEq, Screen.mk.injEq, Option.some.injEq, true_and] at hdraw
        have hplace := paint_zeros_inj (pixel_lt_byteLen hv hcell)
          (pixel_lt_byteLen hv (hvis.inside hv)) hdraw
        have heq := Nat.eq_of_mul_eq_mul_right (by have := hv.channels; omega) hplace
        exact ⟨fun _ => ⟨cell_eq_iff.mp heq, by omega⟩, fun hn => absurd hvis hn⟩
      · -- Something was painted although the pixel is not visible.
        rw [if_neg hvis] at hdraw
        simp only [Except.ok.injEq, Screen.mk.injEq, Option.some.injEq, true_and] at hdraw
        exact absurd hdraw (paint_zeros_ne (pixel_lt_byteLen hv hcell))
  · rw [if_neg hfits] at hdraw
    cases hdraw

/-- A pixel stands before every pixel of a later line. -/
theorem FrameBufferInfo.Visible.before (hv : info.Valid) {x' y' : UInt64} (h : info.Visible x y)
    (hline : y.toNat < y'.toNat) :
    y.toNat * info.stride.toNat + x.toNat < y'.toNat * info.stride.toNat + x'.toNat := by
  have hx : x.toNat < info.stride.toNat := Nat.lt_of_lt_of_le h.1 hv.padded
  have hle : (y.toNat + 1) * info.stride.toNat ≤ y'.toNat * info.stride.toNat :=
    Nat.mul_le_mul_right _ hline
  rw [Nat.add_mul, Nat.one_mul] at hle
  omega

/-- Two visible pixels are two pixels of the buffer. -/
theorem FrameBufferInfo.Visible.ne (hv : info.Valid) {x' y' : UInt64} (h : info.Visible x y)
    (h' : info.Visible x' y') (hne : (x, y) ≠ (x', y')) :
    y.toNat * info.stride.toNat + x.toNat ≠ y'.toNat * info.stride.toNat + x'.toNat := by
  intro heq
  rcases Nat.lt_trichotomy y.toNat y'.toNat with hlt | hline | hgt
  · exact absurd heq (Nat.ne_of_lt (h.before hv hlt))
  · rw [hline, Nat.add_left_cancel_iff] at heq
    exact hne (by rw [UInt64.toNat_inj.mp heq, UInt64.toNat_inj.mp hline])
  · exact absurd heq (Nat.ne_of_gt (h'.before hv hgt))

theorem drawn_comm (hv : info.Valid) {x' y' : UInt64} (hne : (x, y) ≠ (x', y'))
    (raw : List UInt8) (c d : Color) :
    drawn info (drawn info raw x y c) x' y' d = drawn info (drawn info raw x' y' d) x y c := by
  by_cases hvis : info.Visible x y
  · by_cases hvis' : info.Visible x' y'
    · simp only [drawn, if_pos hvis, if_pos hvis']
      refine paint_comm ?_ c d
      rcases Nat.lt_or_gt_of_ne (hvis.ne hv hvis' hne) with hlt | hgt
      · exact .inl (pixel_apart hv hlt)
      · exact .inr (pixel_apart hv hgt)
    · simp only [drawn, if_neg hvis']
  · simp only [drawn, if_neg hvis]

theorem length_drawn (raw : List UInt8) (c : Color) :
    (drawn info raw x y c).length = raw.length := by
  unfold drawn
  split
  · exact length_paint _ _ _
  · rfl

/-- Calls at two pixels where `draw` is right can be made in either order. -/
theorem Draws.comm (hv : info.Valid) {x' y' : UInt64} (h : Draws info x y)
    (h' : Draws info x' y') (hne : (x, y) ≠ (x', y')) {raw : List UInt8}
    (hraw : raw.length = info.byteLen.toNat) (c d : Color) :
    ((Screen.mk (some info) (some raw)).draw x y c >>= fun s => s.draw x' y' d) =
      (Screen.mk (some info) (some raw)).draw x' y' d >>= fun s => s.draw x y c := by
  rw [h raw c hraw, h' raw d hraw, ok_bind, ok_bind, h' _ d (by rw [length_drawn, hraw]),
    h _ c (by rw [length_drawn, hraw]), drawn_comm hv hne]

/--
**Where drawing is right.**  On every valid frame buffer and at every pixel, `draw`
does on all buffers and with all colours what drawing is for exactly where the pixel
is `Sound`.  Draws to different pixels of that kind commute.
-/
theorem draws_iff_sound (info : FrameBufferInfo) (hv : info.Valid) (x y : UInt64) :
    (Draws info x y ↔ Sound info x y) ∧
      ∀ x' y', Sound info x y → Sound info x' y' → (x, y) ≠ (x', y') →
        ∀ raw c d, raw.length = info.byteLen.toNat →
          ((Screen.mk (some info) (some raw)).draw x y c >>= fun s => s.draw x' y' d) =
            (Screen.mk (some info) (some raw)).draw x' y' d >>= fun s => s.draw x y c := by
  refine ⟨⟨sound_of_draws hv, draws_of_sound hv⟩, ?_⟩
  intro x' y' h h' hne raw c d hraw
  exact (draws_of_sound hv h).comm hv (draws_of_sound hv h') hne hraw c d

end Sound

/-- A screen of two lines with four pixels each, all of them visible. -/
def unpaddedInfo : FrameBufferInfo := ⟨24, 4, 2, 3, 4⟩

/-- The same buffer with two visible pixels on each line. -/
def paddedInfo : FrameBufferInfo := ⟨24, 2, 2, 3, 4⟩

theorem draws_plain : unpaddedInfo.Valid ∧ Sound unpaddedInfo 1 1 ∧ Draws unpaddedInfo 1 1 :=
  have hv : unpaddedInfo.Valid := ⟨by decide, by decide, by decide⟩
  have hs : Sound unpaddedInfo 1 1 := by decide
  ⟨hv, hs, (draws_iff_sound unpaddedInfo hv 1 1).1.mpr hs⟩

/--
The second line of a padded screen lands in the padding of the first; the last pixel is
never drawn; a column past the right edge is drawn on the next line; and a line far
below the screen panics.
-/
theorem draw_misses :
    paddedInfo.Valid ∧ unpaddedInfo.Valid ∧
      (Screen.mk (some paddedInfo) (some (zeros 24))).draw 0 1 ⟨7, 8, 9⟩
        = .ok ⟨some paddedInfo, some (paint (zeros 24) 6 ⟨7, 8, 9⟩)⟩ ∧
      drawn paddedInfo (zeros 24) 0 1 ⟨7, 8, 9⟩ = paint (zeros 24) 12 ⟨7, 8, 9⟩ ∧
      (Screen.mk (some unpaddedInfo) (some (zeros 24))).draw 3 1 ⟨7, 8, 9⟩
        = .ok ⟨some unpaddedInfo, some (zeros 24)⟩ ∧
      drawn unpaddedInfo (zeros 24) 3 1 ⟨7, 8, 9⟩ = paint (zeros 24) 21 ⟨7, 8, 9⟩ ∧
      (Screen.mk (some unpaddedInfo) (some (zeros 24))).draw 4 0 ⟨7, 8, 9⟩
        = .ok ⟨some unpaddedInfo, some (paint (zeros 24) 12 ⟨7, 8, 9⟩)⟩ ∧
      drawn unpaddedInfo (zeros 24) 4 0 ⟨7, 8, 9⟩ = zeros 24 ∧
      (Screen.mk (some unpaddedInfo) (some (zeros 24))).draw 0 0x4000000000000000 ⟨7, 8, 9⟩
        = .error .overflow :=
  ⟨⟨by decide, by decide, by decide⟩, ⟨by decide, by decide, by decide⟩, by decide, by decide,
    by decide, by decide, by decide, by decide, by decide⟩

end Rucoonos.Video
