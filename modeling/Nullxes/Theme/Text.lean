import Mathlib.Data.List.AList
import Nullxes.Wlcommon.Pixels

/-!
# The text renderer

`theme/src/text.rs`. A font is what its rasterizer makes of a character at a size; sizes are
rational, and an advance width is what `as i32` makes of it. `Font` states what is assumed of the
rasterizer: a bitmap has a byte for each pixel of its glyph.

Coordinates are `i32` and wrap around. An index that is out of range panics.

## Main results

* `yields_drawText` — text is painted inside of the buffer, wherever it lies
-/

namespace Nullxes

namespace Theme

open Wlcommon Loops

/-- `fontdue::Metrics`, as far as it is read. -/
structure Metrics where
  width : ℕ
  height : ℕ
  xmin : Int32
  ymin : Int32
  /-- `advance_width as i32`. -/
  advanceWidth : Int32
  deriving DecidableEq, Repr

/-- `CachedGlyph`: what `rasterize` returns. -/
structure CachedGlyph where
  metrics : Metrics
  bitmap : List UInt8
  length_bitmap : bitmap.length = metrics.width * metrics.height

/-- `fontdue::Font`, by its `rasterize`. -/
abbrev Font := Char → ℚ → CachedGlyph

/-- `Fonts`. -/
structure Fonts where
  regular : Font
  medium : Font
  mono : Font

/-- `FontVariant`. -/
inductive FontVariant
  | regular
  | medium
  | mono
  deriving DecidableEq, Repr

/-- `variant as u8`. -/
def FontVariant.toUInt8 : FontVariant → UInt8
  | regular => 0
  | medium => 1
  | mono => 2

def Fonts.font (fonts : Fonts) : FontVariant → Font
  | .regular => fonts.regular
  | .medium => fonts.medium
  | .mono => fonts.mono

/-- `(px * 2.0).round() as u32`. -/
def halfPixels (px : ℚ) : UInt32 :=
  UInt32.ofNat (min (px * 2 + 1 / 2).floor.toNat (UInt32.size - 1))

/-- `GlyphKey`. -/
abbrev GlyphKey := Char × UInt8 × UInt32

/-- `GlyphCache`. -/
abbrev GlyphCache := AList fun _ : GlyphKey => CachedGlyph

/-- `get_or_rasterize`. -/
def GlyphCache.getOrRasterize (cache : GlyphCache) (font : Font) (fontIdx : UInt8) (ch : Char)
    (px : ℚ) : CachedGlyph × GlyphCache :=
  let key : GlyphKey := (ch, fontIdx, halfPixels px)
  match cache.lookup key with
  | some glyph => (glyph, cache)
  | none =>
    let glyph := font ch px
    (glyph, cache.insert key glyph)

/-- `TextRenderer`. -/
structure TextRenderer where
  fonts : Fonts
  cache : GlyphCache

/-- The loops of `draw_text` over the bitmap of a glyph. -/
def drawGlyph {n : ℕ} (glyph : CachedGlyph) (pixels : Canvas n) (stride : ℕ) (bufW bufH : UInt32)
    (cursorX y : Int32) (color : Color) : Option (Canvas n) :=
  let m := glyph.metrics
  let glyphTop := y - m.ymin - Int32.ofNat m.height
  let glyphLeft := cursorX + m.xmin
  (List.range m.height).foldlM (fun pixels row =>
    let py := glyphTop + Int32.ofNat row
    if py < 0 ∨ bufH.toInt32 ≤ py then some pixels
    else
      (List.range m.width).foldlM (fun pixels col =>
        let pxX := glyphLeft + Int32.ofNat col
        if pxX < 0 ∨ bufW.toInt32 ≤ pxX then some pixels
        else do
          let coverage ← glyph.bitmap[row * m.width + col]?
          if coverage = 0 then some pixels
          else
            pixels.put stride pxX.toInt.toNat py.toInt.toNat
              (fun old => blend coverage old color.b) (fun old => blend coverage old color.g)
              fun old => blend coverage old color.r) pixels) pixels

/-- The loop of `draw_text` over the characters. -/
def drawChars {n : ℕ} (font : Font) (fontIdx : UInt8) (px : ℚ) (stride : ℕ) (bufW bufH : UInt32)
    (y : Int32) (color : Color) :
    List Char → GlyphCache → Canvas n → Int32 → Option (GlyphCache × Canvas n × Int32)
  | [], cache, pixels, cursorX => some (cache, pixels, cursorX)
  | ch :: text, cache, pixels, cursorX => do
    let (glyph, cache) := cache.getOrRasterize font fontIdx ch px
    let m := glyph.metrics
    let pixels ← (if m.width = 0 then some pixels
      else drawGlyph glyph pixels stride bufW bufH cursorX y color)
    drawChars font fontIdx px stride bufW bufH y color text cache pixels (cursorX + m.advanceWidth)

namespace TextRenderer

/-- `draw_text`, with the width of what was drawn. -/
def drawText {n : ℕ} (me : TextRenderer) (pixels : Canvas n) (stride : ℕ) (bufW bufH : UInt32)
    (x y : Int32) (text : String) (px : ℚ) (color : Color) (variant : FontVariant) :
    Option (TextRenderer × Canvas n × Int32) := do
  let font := me.fonts.font variant
  let (cache, pixels, cursorX) ←
    drawChars font variant.toUInt8 px stride bufW bufH y color text.toList me.cache pixels x
  some ({ me with cache := cache }, pixels, cursorX - x)

/-- `measure_text`. -/
def measureText (me : TextRenderer) (text : String) (px : ℚ) (variant : FontVariant) :
    Int32 × TextRenderer :=
  let font := me.fonts.font variant
  let (cache, w) := text.toList.foldl (fun (cache, w) ch =>
    let (g, cache) := GlyphCache.getOrRasterize cache font variant.toUInt8 ch px
    (cache, w + g.metrics.advanceWidth)) (me.cache, (0 : Int32))
  (w, { me with cache := cache })

end TextRenderer

/-! ## Inside of the buffer -/

section

variable {n : ℕ} {c : Canvas n} {stride : ℕ} {bufW bufH : UInt32}

/-- What passes the test of `draw_text` is inside of the buffer. -/
theorem toNat_lt_of_clipped {i : Int32} {w : UInt32} (h : ¬ (i < 0 ∨ w.toInt32 ≤ i)) :
    i.toInt.toNat < w.toNat := by
  rw [not_or, Int32.not_lt, Int32.not_le] at h
  exact toNat_lt_of_lt_toInt32 (Int32.le_iff_toInt_le.mp h.1) (Int32.lt_iff_toInt_lt.mp h.2)

/-- Each cell of a glyph has a byte of the bitmap. -/
theorem CachedGlyph.index_lt_length (glyph : CachedGlyph) {row col : ℕ}
    (hrow : row < glyph.metrics.height) (hcol : col < glyph.metrics.width) :
    row * glyph.metrics.width + col < glyph.bitmap.length := by
  rw [glyph.length_bitmap]
  calc row * glyph.metrics.width + col
      < row * glyph.metrics.width + glyph.metrics.width := Nat.add_lt_add_left hcol _
    _ = glyph.metrics.width * (row + 1) := by ring
    _ ≤ glyph.metrics.width * glyph.metrics.height := Nat.mul_le_mul_left _ hrow

theorem yields_drawGlyph (h : c.Inside stride bufW bufH) (glyph : CachedGlyph) (cursorX y : Int32)
    (color : Color) :
    Yields (fun c' => c'.Inside stride bufW bufH)
      (drawGlyph glyph c stride bufW bufH cursorX y color) := by
  rw [drawGlyph]
  refine yields_foldlM (fun c hc row hrow => ?_) h
  dsimp only
  split
  next => exact yields_some hc
  next hpy =>
    refine yields_foldlM (fun c hc col hcol => ?_) hc
    split
    next => exact yields_some hc
    next hpx =>
      have hindex :=
        glyph.index_lt_length (List.mem_range.mp hrow) (List.mem_range.mp hcol)
      rw [List.getElem?_eq_getElem hindex]
      dsimp only [Option.bind_eq_bind, Option.bind_some]
      split
      next => exact yields_some hc
      next =>
        exact Canvas.yields_put hc (toNat_lt_of_clipped hpx) (toNat_lt_of_clipped hpy) _ _ _

theorem yields_drawChars (font : Font) (fontIdx : UInt8) (px : ℚ) (y : Int32) (color : Color)
    (text : List Char) (cache : GlyphCache) (h : c.Inside stride bufW bufH) (cursorX : Int32) :
    Yields (fun r => r.2.1.Inside stride bufW bufH)
      (drawChars font fontIdx px stride bufW bufH y color text cache c cursorX) := by
  induction text generalizing cache c cursorX with
  | nil => exact yields_some h
  | cons ch text ih =>
    rw [drawChars]
    rcases cache.getOrRasterize font fontIdx ch px with ⟨glyph, cache'⟩
    have hglyph : Yields (fun c' => c'.Inside stride bufW bufH)
        (if glyph.metrics.width = 0 then some c
        else drawGlyph glyph c stride bufW bufH cursorX y color) := by
      split
      · exact yields_some h
      · exact yields_drawGlyph h _ _ _ _
    exact hglyph.bind fun c' hc' => ih cache' hc' _

/-- **Text is painted inside of the buffer**, wherever it lies. -/
theorem yields_drawText (me : TextRenderer) (h : c.Inside stride bufW bufH) (x y : Int32)
    (text : String) (px : ℚ) (color : Color) (variant : FontVariant) :
    Yields (fun r => r.2.1.Inside stride bufW bufH)
      (me.drawText c stride bufW bufH x y text px color variant) :=
  (yields_drawChars _ _ px y color text.toList me.cache h x).bind fun _ hr => yields_some hr

end

end Theme

end Nullxes
