import Nullxes.Theme.Glyphs
import Nullxes.Wlcommon.Inking

/-!
# Drawing text

What `draw_text` does to each byte. The cells of a text are those of the bitmaps of its glyphs,
where they fall in the plane, in the order in which they are drawn; coordinates are integers here,
so nothing wraps around. The registers of the code hold these coordinates modulo `2 ^ 32`, and where
they fit they are read exactly, whatever happened on the way.

## Main definitions

* `Cell`, `textCells` — the cells of a text
* `covering` — those that cover a pixel

## Main results

* `drawText_exact` — a pixel is what the cells that cover it make of it, and no other byte changes
-/

namespace Nullxes

namespace Theme

open Wlcommon Loops Compositing

/-- A cell of a bitmap, where it falls. -/
structure Cell where
  px : ℤ
  py : ℤ
  coverage : UInt8

/-- The coordinates are `i32`s. -/
structure Cell.InRange (cell : Cell) : Prop where
  px_ge : -2147483648 ≤ cell.px
  px_le : cell.px ≤ 2147483647
  py_ge : -2147483648 ≤ cell.py
  py_le : cell.py ≤ 2147483647

/-- The cell covers a pixel, more or less. -/
def Cell.Covers (cell : Cell) (px py : ℕ) : Prop :=
  cell.px = px ∧ cell.py = py ∧ cell.coverage ≠ 0

instance (px py : ℕ) (cell : Cell) : Decidable (cell.Covers px py) := inferInstanceAs
  (Decidable (cell.px = px ∧ cell.py = py ∧ cell.coverage ≠ 0))

namespace CachedGlyph

/-- A cell of a glyph, the pen being at `pen` on the baseline `y`. -/
def cell (glyph : CachedGlyph) (pen y : ℤ) (row col : ℕ) : Cell where
  px := pen + glyph.metrics.xmin.toInt + col
  py := y - glyph.metrics.ymin.toInt - glyph.metrics.height + row
  coverage := glyph.bitmap.getD (row * glyph.metrics.width + col) 0

def rowCells (glyph : CachedGlyph) (pen y : ℤ) (row : ℕ) : List Cell :=
  (List.range glyph.metrics.width).map (glyph.cell pen y row)

/-- The cells of a glyph, row after row. -/
def cells (glyph : CachedGlyph) (pen y : ℤ) : List Cell :=
  (List.range glyph.metrics.height).flatMap (glyph.rowCells pen y)

theorem cell_mem_cells {glyph : CachedGlyph} {row col : ℕ} (hrow : row < glyph.metrics.height)
    (hcol : col < glyph.metrics.width) (pen y : ℤ) :
    glyph.cell pen y row col ∈ glyph.cells pen y :=
  List.mem_flatMap.mpr ⟨row, List.mem_range.mpr hrow,
    List.mem_map.mpr ⟨col, List.mem_range.mpr hcol, rfl⟩⟩

theorem cells_of_width_eq_zero (glyph : CachedGlyph) (h : glyph.metrics.width = 0) (pen y : ℤ) :
    glyph.cells pen y = [] := by
  refine List.flatMap_eq_nil_iff.mpr fun row _ => ?_
  rw [rowCells, h]
  rfl

/-- Each cell has a byte of the bitmap. -/
theorem getElem?_bitmap {glyph : CachedGlyph} {row col : ℕ} (hrow : row < glyph.metrics.height)
    (hcol : col < glyph.metrics.width) (pen y : ℤ) :
    glyph.bitmap[row * glyph.metrics.width + col]? = some (glyph.cell pen y row col).coverage := by
  have hindex := glyph.index_lt_length hrow hcol
  rw [cell, List.getD_eq_getElem?_getD, List.getElem?_eq_getElem hindex, Option.getD_some]

end CachedGlyph

/-- The cells of a text whose glyphs are these. -/
def textCells : List CachedGlyph → ℤ → ℤ → List Cell
  | [], _, _ => []
  | g :: gs, pen, y => g.cells pen y ++ textCells gs (pen + g.metrics.advanceWidth.toInt) y

/-! ## Registers -/

/-- What fits is read exactly, whatever happened on the way. -/
theorem toInt_of_eq_ofInt {i : Int32} {z : ℤ} (h : i = Int32.ofInt z) (hge : -2147483648 ≤ z)
    (hle : z ≤ 2147483647) : i.toInt = z := by
  rw [h]
  exact Int32.toInt_ofInt_of_le hge (by omega)

section

variable {glyph : CachedGlyph} {cursorX y : Int32} {pen : ℤ} {row col : ℕ}

/-- The row of a cell, in the code. -/
theorem toInt_glyphTop (h : (glyph.cell pen y.toInt row col).InRange) :
    (y - glyph.metrics.ymin - Int32.ofNat glyph.metrics.height + Int32.ofNat row).toInt =
      (glyph.cell pen y.toInt row col).py := by
  refine toInt_of_eq_ofInt ?_ h.py_ge h.py_le
  rw [CachedGlyph.cell, Int32.ofInt_add, Int32.ofInt_sub, Int32.ofInt_sub, Int32.ofInt_toInt,
    Int32.ofInt_toInt, Int32.ofInt_eq_ofNat, Int32.ofInt_eq_ofNat]

/-- The column of a cell, in the code. -/
theorem toInt_glyphLeft (hpen : cursorX = Int32.ofInt pen)
    (h : (glyph.cell pen y.toInt row col).InRange) :
    (cursorX + glyph.metrics.xmin + Int32.ofNat col).toInt =
      (glyph.cell pen y.toInt row col).px := by
  refine toInt_of_eq_ofInt ?_ h.px_ge h.px_le
  rw [CachedGlyph.cell, Int32.ofInt_add, Int32.ofInt_add, Int32.ofInt_toInt, Int32.ofInt_eq_ofNat,
    hpen]

/-- The test of `draw_text`, for a dimension of the buffer. -/
theorem clipped_iff {i : Int32} {z : ℤ} {w : UInt32} (hw : w.toNat ≤ 2147483647)
    (hi : i.toInt = z) : (i < 0 ∨ w.toInt32 ≤ i) ↔ ¬ (0 ≤ z ∧ z < w.toNat) := by
  subst hi
  rw [Int32.lt_iff_toInt_lt, Int32.le_iff_toInt_le, toInt_toInt32_of_le hw,
    show (0 : Int32).toInt = 0 from rfl]
  omega

end

/-! ## Inks -/

/-- A cell paints its pixel, if that is in the buffer. -/
def Cell.inks (stride : ℕ) (bufW bufH : UInt32) (color : Color) (cell : Cell) :
    List (Ink ℕ UInt8) :=
  if (0 ≤ cell.px ∧ cell.px < bufW.toNat) ∧ (0 ≤ cell.py ∧ cell.py < bufH.toNat) ∧
      cell.coverage ≠ 0 then
    pixelInks stride cell.px.toNat cell.py.toNat (fun old => blend cell.coverage old color.b)
      (fun old => blend cell.coverage old color.g) fun old => blend cell.coverage old color.r
  else []

/-- Everything that a list of cells paints, the last of them in front. -/
def inks (stride : ℕ) (bufW bufH : UInt32) (color : Color) (cells : List Cell) :
    List (Ink ℕ UInt8) :=
  cells.reverse.flatMap (Cell.inks stride bufW bufH color)

section

variable {n : ℕ} {stride : ℕ} {bufW bufH : UInt32} {color : Color}

theorem inks_append (cells cells' : List Cell) :
    inks stride bufW bufH color (cells ++ cells') =
      inks stride bufW bufH color cells' ++ inks stride bufW bufH color cells := by
  rw [inks, List.reverse_append, List.flatMap_append, inks, inks]

theorem inks_flatMap {α : Type} (l : List α) (f : α → List Cell) :
    inks stride bufW bufH color (l.flatMap f) =
      l.reverse.flatMap fun a => inks stride bufW bufH color (f a) := by
  rw [inks, List.reverse_flatMap, List.flatMap_assoc]
  rfl

theorem inks_map {α : Type} (l : List α) (f : α → Cell) :
    inks stride bufW bufH color (l.map f) =
      l.reverse.flatMap fun a => (f a).inks stride bufW bufH color := by
  rw [inks, ← List.map_reverse, List.flatMap_map]

/-! ## The loops -/

variable (hrow : 4 * bufW.toNat ≤ stride) (hrows : stride * bufH.toNat ≤ n)
  (hbufW : bufW.toNat ≤ 2147483647) (hbufH : bufH.toNat ≤ 2147483647)

include hrow hrows in
/-- A cell inside of the buffer. -/
theorem yields_draws_cell {cell : Cell} (hpx : 0 ≤ cell.px ∧ cell.px < bufW.toNat)
    (hpy : 0 ≤ cell.py ∧ cell.py < bufH.toNat) (c : Canvas n) :
    Yields (c.Draws (cell.inks stride bufW bufH color)) (if cell.coverage = 0 then some c
      else c.put stride cell.px.toNat cell.py.toNat (fun old => blend cell.coverage old color.b)
        (fun old => blend cell.coverage old color.g)
        fun old => blend cell.coverage old color.r) := by
  by_cases hcov : cell.coverage = 0
  · rw [if_pos hcov, Cell.inks, if_neg fun hin => hin.2.2 hcov]
    exact yields_some (Canvas.draws_nil c)
  · rw [if_neg hcov, Cell.inks, if_pos ⟨hpx, hpy, hcov⟩]
    exact Canvas.yields_draws_put (index_lt hrow hrows (by omega) (by omega)) _ _ _ c

include hrow hrows hbufW hbufH

/-- **A glyph draws its cells.** -/
theorem yields_draws_drawGlyph (glyph : CachedGlyph) {cursorX y : Int32} {pen : ℤ}
    (hpen : cursorX = Int32.ofInt pen)
    (hcells : ∀ cell ∈ glyph.cells pen y.toInt, cell.InRange) (c : Canvas n) :
    Yields (c.Draws (inks stride bufW bufH color (glyph.cells pen y.toInt)))
      (drawGlyph glyph c stride bufW bufH cursorX y color) := by
  rw [drawGlyph, CachedGlyph.cells, inks_flatMap]
  refine Canvas.yields_draws_foldlM (fun c row hmem => ?_) c
  have hr := List.mem_range.mp hmem
  rw [CachedGlyph.rowCells, inks_map]
  dsimp only
  split
  next hclip =>
    have hnil : ((List.range glyph.metrics.width).reverse.flatMap fun col =>
        (glyph.cell pen y.toInt row col).inks stride bufW bufH color) = [] := by
      refine List.flatMap_eq_nil_iff.mpr fun col hcol => if_neg fun hin => ?_
      have hc := List.mem_range.mp (List.mem_reverse.mp hcol)
      have htop := toInt_glyphTop (hcells _ (CachedGlyph.cell_mem_cells hr hc _ _))
      exact (clipped_iff hbufH htop).mp hclip hin.2.1
    rw [hnil]
    exact yields_some (Canvas.draws_nil c)
  next hclip =>
    refine Canvas.yields_draws_foldlM (fun c col hmem => ?_) c
    have hc := List.mem_range.mp hmem
    have hrange := hcells _ (CachedGlyph.cell_mem_cells hr hc _ _)
    have htop := toInt_glyphTop hrange
    have hleft := toInt_glyphLeft hpen hrange
    by_cases hclipX : cursorX + glyph.metrics.xmin + Int32.ofNat col < 0 ∨
        bufW.toInt32 ≤ cursorX + glyph.metrics.xmin + Int32.ofNat col
    · have hnil : (glyph.cell pen y.toInt row col).inks stride bufW bufH color = [] :=
        if_neg fun hin => (clipped_iff hbufW hleft).mp hclipX hin.1
      rw [if_pos hclipX, hnil]
      exact yields_some (Canvas.draws_nil c)
    · have hpx := not_not.mp (mt (clipped_iff hbufW hleft).mpr hclipX)
      have hpy := not_not.mp (mt (clipped_iff hbufH htop).mpr hclip)
      rw [if_neg hclipX, hleft, htop, CachedGlyph.getElem?_bitmap hr hc pen y.toInt]
      exact yields_draws_cell hrow hrows hpx hpy c

/-- Glyph after glyph. -/
theorem yields_draws_drawGlyphs (gs : List CachedGlyph) {cursorX y : Int32} {pen : ℤ}
    (hpen : cursorX = Int32.ofInt pen)
    (hcells : ∀ cell ∈ textCells gs pen y.toInt, cell.InRange) (c : Canvas n) :
    Yields (c.Draws (inks stride bufW bufH color (textCells gs pen y.toInt)))
      (drawGlyphs stride bufW bufH y color gs c cursorX) := by
  induction gs generalizing cursorX pen c with
  | nil => exact yields_some (Canvas.draws_nil c)
  | cons g gs ih =>
    rw [textCells] at hcells ⊢
    have hglyph : Yields (c.Draws (inks stride bufW bufH color (g.cells pen y.toInt)))
        (if g.metrics.width = 0 then some c
          else drawGlyph g c stride bufW bufH cursorX y color) := by
      split
      next hwidth =>
        rw [g.cells_of_width_eq_zero hwidth]
        exact yields_some (Canvas.draws_nil c)
      next =>
        exact yields_draws_drawGlyph hrow hrows hbufW hbufH g hpen
          (fun cell hcell => hcells cell (List.mem_append_left _ hcell)) c
    have hpen' : cursorX + g.metrics.advanceWidth =
        Int32.ofInt (pen + g.metrics.advanceWidth.toInt) := by
      rw [Int32.ofInt_add, Int32.ofInt_toInt, hpen]
    refine hglyph.bind fun c' hc' => ?_
    obtain ⟨c'', hc'', hdraws⟩ :=
      ih hpen' (fun cell hcell => hcells cell (List.mem_append_right _ hcell)) c'
    refine ⟨c'', hc'', ?_⟩
    rw [inks_append]
    exact hc'.append hdraws

end

/-! ## Pixels -/

/-- The cells that cover a pixel, in order. -/
def covering (cells : List Cell) (px py : ℕ) : List Cell :=
  cells.filter fun cell => cell.Covers px py

theorem covering_cons_of_covers {cell : Cell} {px py : ℕ} (h : cell.Covers px py)
    (cells : List Cell) : covering (cell :: cells) px py = cell :: covering cells px py :=
  List.filter_cons_of_pos (decide_eq_true h)

theorem covering_cons_of_not_covers {cell : Cell} {px py : ℕ} (h : ¬ cell.Covers px py)
    (cells : List Cell) : covering (cell :: cells) px py = covering cells px py :=
  List.filter_cons_of_neg fun hd => h (of_decide_eq_true hd)

/-- The pixel at `i` is what these cells made of it: its channels blended one cell after another,
and its alpha opaque if there is one. -/
def Layered {n : ℕ} (color : Color) (cells : List Cell) (c c' : Canvas n) (i : ℕ) : Prop :=
  Repainted (fun old new => cells.foldl (fun old cell =>
      sourceOver cell.coverage.toNat old new.toNat) old.toNat)
    (fun old => if cells.isEmpty then old else 255) color c c' i

section

variable {n : ℕ} {stride : ℕ} {bufW bufH : UInt32} {color : Color} {px py j : ℕ}

theorem Cell.inks_of_covers {cell : Cell} (hpx : px < bufW.toNat) (hpy : py < bufH.toNat)
    (h : cell.Covers px py) : cell.inks stride bufW bufH color =
      pixelInks stride px py (fun old => blend cell.coverage old color.b)
        (fun old => blend cell.coverage old color.g)
        fun old => blend cell.coverage old color.r := by
  obtain ⟨hx, hy, hcov⟩ := h
  rw [Cell.inks, if_pos ⟨by omega, by omega, hcov⟩, hx, hy, Int.toNat_natCast, Int.toNat_natCast]

/-- A cell is clear where it covers nothing. -/
theorem Cell.clear_of_mem_inks {cell : Cell} {e : Ink ℕ UInt8}
    (he : e ∈ cell.inks stride bufW bufH color)
    (h : ∀ px py, px < bufW.toNat → py < bufH.toNat → cell.Covers px py →
      ¬ InPixel stride px py j) : Clear e j := by
  rw [Cell.inks] at he
  split at he
  next hin =>
    obtain ⟨hx, hy, hcov⟩ := hin
    exact clear_of_mem_pixelInks he
      (h _ _ (by omega) (by omega) ⟨by omega, by omega, hcov⟩)
  next => exact absurd he List.not_mem_nil

/-- **A byte of a pixel**, by the cells that cover the pixel. -/
theorem compose_inks (hrow : 4 * bufW.toNat ≤ stride) (hpx : px < bufW.toNat)
    (hpy : py < bufH.toNat) (hj : InPixel stride px py j) {f : UInt8 → UInt8 → UInt8}
    (hf : ∀ cell : Cell, cell.Covers px py → ∀ old,
      compose (cell.inks stride bufW bufH color) old j = f old cell.coverage)
    (cells : List Cell) (old : UInt8) :
    compose (inks stride bufW bufH color cells) old j =
      (covering cells px py).foldl (fun old cell => f old cell.coverage) old := by
  induction cells generalizing old with
  | nil => rfl
  | cons cell cells ih =>
    have hcons : inks stride bufW bufH color (cell :: cells) =
        inks stride bufW bufH color cells ++ cell.inks stride bufW bufH color := by
      rw [inks, List.reverse_cons, List.flatMap_append, List.flatMap_singleton, inks]
    rw [hcons, compose_append, ih]
    by_cases hcovers : cell.Covers px py
    · rw [covering_cons_of_covers hcovers, List.foldl_cons, hf cell hcovers]
    · have hclear : ∀ e ∈ cell.inks stride bufW bufH color, Clear e j := by
        intro e he
        refine Cell.clear_of_mem_inks he fun px' py' hpx' _ hcov hj' => hcovers ?_
        obtain ⟨rfl, rfl⟩ := InPixel.unique hrow hpx' hpx hj' hj
        exact hcov
      rw [compose_of_clear hclear, covering_cons_of_not_covers hcovers]

/-- The bytes and what they count. -/
theorem toNat_foldl_blend (cells : List Cell) (old new : UInt8) :
    (cells.foldl (fun old cell => blend cell.coverage old new) old).toNat =
      cells.foldl (fun old cell => sourceOver cell.coverage.toNat old new.toNat) old.toNat :=
  (List.foldl_hom UInt8.toNat fun old cell => (toNat_blend cell.coverage old new).symm).symm

theorem foldl_full (cells : List Cell) (old : UInt8) :
    cells.foldl (fun _ _ => (255 : UInt8)) old = if cells.isEmpty then old else 255 := by
  induction cells generalizing old with
  | nil => rfl
  | cons cell cells ih =>
    rw [List.foldl_cons, ih, List.isEmpty_cons]
    split
    · rfl
    · rfl

/-- A pixel of inked cells is what they make of it. -/
theorem layered_of_draws (hrow : 4 * bufW.toNat ≤ stride) (hrows : stride * bufH.toNat ≤ n)
    (hpx : px < bufW.toNat) (hpy : py < bufH.toNat) {cells : List Cell} {c c' : Canvas n}
    (h : c.Draws (inks stride bufW bufH color cells) c') :
    Layered color (covering cells px py) c c' (py * stride + px * 4) := by
  have hlast := index_lt hrow hrows hpx hpy
  -- a byte of the pixel, by what a cell that covers the pixel makes of it
  have hbyte : ∀ j, ∀ hj : j < n, InPixel stride px py j → ∀ f : UInt8 → UInt8 → UInt8,
      (∀ cell : Cell, ∀ old, compose (pixelInks stride px py
        (fun old => blend cell.coverage old color.b) (fun old => blend cell.coverage old color.g)
        fun old => blend cell.coverage old color.r) old j = f old cell.coverage) →
      c'.pixels[j] =
        (covering cells px py).foldl (fun old cell => f old cell.coverage) c.pixels[j] := by
    intro j hj hpixel f hf
    rw [h j hj]
    refine compose_inks hrow hpx hpy hpixel (fun cell hcov old => ?_) cells _
    rw [Cell.inks_of_covers hpx hpy hcov, hf]
  refine ⟨hlast, ?_, ?_, ?_, ?_⟩
  · rw [hbyte _ (by omega) ⟨by omega, by omega⟩ (fun old a => blend a old color.b)
      fun cell old => compose_pixelInks_blue old, toNat_foldl_blend]
  · rw [hbyte _ (by omega) ⟨by omega, by omega⟩ (fun old a => blend a old color.g)
      fun cell old => compose_pixelInks_green old, toNat_foldl_blend]
  · rw [hbyte _ (by omega) ⟨by omega, by omega⟩ (fun old a => blend a old color.r)
      fun cell old => compose_pixelInks_red old, toNat_foldl_blend]
  · rw [hbyte _ hlast ⟨by omega, by omega⟩ (fun _ _ => 255)
      fun cell old => compose_pixelInks_alpha old, foldl_full]

end

/-- **Text is drawn exactly.** If its cells stay within `i32`, a pixel of the buffer is what the
cells that cover it make of it, and no other byte changes. -/
theorem drawText_exact {n stride : ℕ} {bufW bufH : UInt32} (hrow : 4 * bufW.toNat ≤ stride)
    (hrows : stride * bufH.toNat ≤ n) (hbufW : bufW.toNat ≤ 2147483647)
    (hbufH : bufH.toNat ≤ 2147483647) (me : TextRenderer) (text : String) (px : ℚ) (color : Color)
    (variant : FontVariant) (x y : Int32)
    (hcells : ∀ cell ∈ textCells (me.glyphs text px variant).1 x.toInt y.toInt, cell.InRange)
    (c : Canvas n) :
    ∃ r, me.drawText c stride bufW bufH x y text px color variant = some r ∧
      (∀ col < bufW.toNat, ∀ row < bufH.toNat, Layered color
        (covering (textCells (me.glyphs text px variant).1 x.toInt y.toInt) col row) c r.2.1
        (row * stride + col * 4)) ∧
      ∀ j, ∀ hj : j < n, (∀ col row, col < bufW.toNat → row < bufH.toNat →
        (∃ cell ∈ textCells (me.glyphs text px variant).1 x.toInt y.toInt, cell.Covers col row) →
        ¬ InPixel stride col row j) → r.2.1.pixels[j] = c.pixels[j] := by
  obtain ⟨c', hc', hdraws⟩ : Yields (c.Draws (inks stride bufW bufH color
        (textCells (me.glyphs text px variant).1 x.toInt y.toInt)))
      (drawGlyphs stride bufW bufH y color (me.glyphs text px variant).1 c x) :=
    yields_draws_drawGlyphs hrow hrows hbufW hbufH _ (Int32.ofInt_toInt x).symm hcells c
  have hdraw : me.drawText c stride bufW bufH x y text px color variant =
      some ({ me with cache := (me.glyphs text px variant).2 }, c',
        advances (me.glyphs text px variant).1) := by
    rw [drawText_eq, hc', Option.map_some]
  refine ⟨_, hdraw, fun col hcol row hr => ?_, fun j hj hout => ?_⟩
  · exact layered_of_draws hrow hrows hcol hr hdraws
  · rw [hdraws j hj]
    refine compose_flatMap_of_clear (fun cell hcell e he => ?_) _
    refine Cell.clear_of_mem_inks he fun col row hcol hr hcov => ?_
    exact hout col row hcol hr ⟨cell, List.mem_reverse.mp hcell, hcov⟩

/-- A font of dots. -/
def dots : Font := fun _ _ => ⟨⟨1, 1, 0, 0, 1⟩, [128], rfl⟩

/-- A dot on the right one of two pixels. -/
theorem drawText_exact_dot :
    ∃ r, (⟨⟨dots, dots, dots⟩, ∅⟩ : TextRenderer).drawText
        (⟨Vector.replicate 8 7, []⟩ : Canvas 8) 8 2 1 1 1 "a" 13 ⟨10, 20, 30, 255⟩ .regular =
        some r ∧
      Layered ⟨10, 20, 30, 255⟩ [⟨1, 0, 128⟩] ⟨Vector.replicate 8 7, []⟩ r.2.1 4 ∧
      ∀ j, ∀ hj : j < 8, j < 4 → r.2.1.pixels[j] = 7 := by
  have hcells : textCells ((⟨⟨dots, dots, dots⟩, ∅⟩ : TextRenderer).glyphs "a" 13 .regular).1
      (1 : Int32).toInt (1 : Int32).toInt = [⟨1, 0, 128⟩] := rfl
  obtain ⟨r, hr, hpixels, hout⟩ := drawText_exact (n := 8)
    (by decide : 4 * (2 : UInt32).toNat ≤ 8) (by decide : 8 * (1 : UInt32).toNat ≤ 8) (by decide)
    (by decide) ⟨⟨dots, dots, dots⟩, ∅⟩ "a" 13 ⟨10, 20, 30, 255⟩ .regular 1 1 (by
      rw [hcells]
      intro cell hcell
      rw [List.mem_singleton.mp hcell]
      exact ⟨by decide, by decide, by decide, by decide⟩) ⟨Vector.replicate 8 7, []⟩
  rw [hcells] at hpixels hout
  refine ⟨r, hr, hpixels 1 (by decide) 0 (by decide), fun j hj hlt => ?_⟩
  rw [hout j hj fun col row _ _ hcell hin => ?_]
  · exact Vector.getElem_replicate hj
  · obtain ⟨cell, hmem, hcol, -⟩ := hcell
    rw [List.mem_singleton.mp hmem] at hcol
    have hcol' : (1 : ℤ) = col := hcol
    have hpixel : row * 8 + col * 4 ≤ j := hin.1
    omega

end Theme

end Nullxes
