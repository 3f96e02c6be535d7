import Nullxes.Library.Memo
import Nullxes.Theme.Text

/-!
# The glyphs of a text

`draw_text` and `measure_text` both go through a text character by character and fill the cache on
the way. What they do besides depends on the glyphs that they meet, not on where these came from: so
each is split into the list of its glyphs, which is the same for both, and what is done with it.

## Main definitions

* `glyphs` — the glyphs of a text, and the cache after it
* `drawGlyphs`, `advances` — what becomes of the pixels, and of the pen

## Main results

* `drawText_eq`, `measureText_eq` — the two loops, by the glyphs
-/

namespace Nullxes

namespace Theme

open Wlcommon

/-- The glyphs of a text, in order, and the cache that was filled on the way. -/
def glyphs (font : Font) (fontIdx : UInt8) (px : ℚ) :
    List Char → GlyphCache → List CachedGlyph × GlyphCache
  | [], cache => ([], cache)
  | ch :: text, cache =>
    let found := cache.getOrRasterize font fontIdx ch px
    let rest := glyphs font fontIdx px text found.2
    (found.1 :: rest.1, rest.2)

/-- The glyphs of a text with this renderer. -/
def TextRenderer.glyphs (me : TextRenderer) (text : String) (px : ℚ) (variant : FontVariant) :
    List CachedGlyph × GlyphCache :=
  Theme.glyphs (me.fonts.font variant) variant.toUInt8 px text.toList me.cache

/-- How far the pen moves. -/
def advances (gs : List CachedGlyph) : Int32 :=
  gs.foldr (fun g w => g.metrics.advanceWidth + w) 0

/-- Glyphs are drawn one after another. -/
def drawGlyphs {n : ℕ} (stride : ℕ) (bufW bufH : UInt32) (y : Int32) (color : Color) :
    List CachedGlyph → Canvas n → Int32 → Option (Canvas n)
  | [], pixels, _ => some pixels
  | g :: gs, pixels, cursorX =>
    (if g.metrics.width = 0 then some pixels
      else drawGlyph g pixels stride bufW bufH cursorX y color).bind fun pixels =>
        drawGlyphs stride bufW bufH y color gs pixels (cursorX + g.metrics.advanceWidth)

section

variable {n : ℕ} {font : Font} {fontIdx : UInt8} {px : ℚ} {stride : ℕ} {bufW bufH : UInt32}
  {y : Int32} {color : Color}

theorem advances_cons (g : CachedGlyph) (gs : List CachedGlyph) :
    advances (g :: gs) = g.metrics.advanceWidth + advances gs := rfl

theorem drawChars_cons (ch : Char) (text : List Char) (cache : GlyphCache) (pixels : Canvas n)
    (cursorX : Int32) :
    drawChars font fontIdx px stride bufW bufH y color (ch :: text) cache pixels cursorX =
      (if (cache.getOrRasterize font fontIdx ch px).1.metrics.width = 0 then some pixels
        else drawGlyph (cache.getOrRasterize font fontIdx ch px).1 pixels stride bufW bufH cursorX y
          color).bind fun pixels =>
        drawChars font fontIdx px stride bufW bufH y color text
          (cache.getOrRasterize font fontIdx ch px).2 pixels
          (cursorX + (cache.getOrRasterize font fontIdx ch px).1.metrics.advanceWidth) := rfl

/-- The loop of `draw_text`, by the glyphs. -/
theorem drawChars_eq (text : List Char) (cache : GlyphCache) (pixels : Canvas n)
    (cursorX : Int32) :
    drawChars font fontIdx px stride bufW bufH y color text cache pixels cursorX =
      (drawGlyphs stride bufW bufH y color (glyphs font fontIdx px text cache).1 pixels
        cursorX).map fun pixels => ((glyphs font fontIdx px text cache).2, pixels,
          cursorX + advances (glyphs font fontIdx px text cache).1) := by
  induction text generalizing cache pixels cursorX with
  | nil =>
    have hpen : cursorX + advances [] = cursorX := Int32.add_zero cursorX
    rw [drawChars, glyphs, drawGlyphs, Option.map_some, hpen]
  | cons ch text ih =>
    rw [drawChars_cons, glyphs, drawGlyphs, Option.map_bind]
    refine congrArg _ (funext fun pixels' => ?_)
    rw [ih, Function.comp_apply, advances_cons, Int32.add_assoc]

/-- The loop of `measure_text`, by the glyphs. -/
theorem foldl_glyphs {f : GlyphCache × Int32 → Char → GlyphCache × Int32}
    (hf : ∀ cache w ch, f (cache, w) ch = ((cache.getOrRasterize font fontIdx ch px).2,
      w + (cache.getOrRasterize font fontIdx ch px).1.metrics.advanceWidth))
    (text : List Char) (cache : GlyphCache) (w : Int32) :
    text.foldl f (cache, w) = ((glyphs font fontIdx px text cache).2,
      w + advances (glyphs font fontIdx px text cache).1) := by
  induction text generalizing cache w with
  | nil => exact congrArg (Prod.mk cache) (Int32.add_zero w).symm
  | cons ch text ih => rw [List.foldl_cons, hf, ih, glyphs, advances_cons, Int32.add_assoc]

end

section

variable {n : ℕ} (me : TextRenderer) (text : String) (px : ℚ) (variant : FontVariant)

/-- **`draw_text` by the glyphs.** It returns how far the pen moved. -/
theorem drawText_eq (pixels : Canvas n) (stride : ℕ) (bufW bufH : UInt32) (x y : Int32)
    (color : Color) :
    me.drawText pixels stride bufW bufH x y text px color variant =
      (drawGlyphs stride bufW bufH y color (me.glyphs text px variant).1 pixels x).map
        fun pixels => ({ me with cache := (me.glyphs text px variant).2 }, pixels,
          advances (me.glyphs text px variant).1) := by
  have hdef : me.drawText pixels stride bufW bufH x y text px color variant =
      (drawChars (me.fonts.font variant) variant.toUInt8 px stride bufW bufH y color text.toList
        me.cache pixels x).bind fun r => some ({ me with cache := r.1 }, r.2.1, r.2.2 - x) := rfl
  rw [hdef, drawChars_eq, Option.bind_map, Option.map_eq_bind]
  refine congrArg _ (funext fun pixels' => ?_)
  rw [Function.comp_apply, Int32.add_comm, Int32.add_sub_cancel]
  rfl

/-- **`measure_text` by the glyphs.** -/
theorem measureText_eq :
    me.measureText text px variant = (advances (me.glyphs text px variant).1,
      { me with cache := (me.glyphs text px variant).2 }) := by
  have hloop := foldl_glyphs (f := fun s ch =>
      let found := s.1.getOrRasterize (me.fonts.font variant) variant.toUInt8 ch px
      (found.2, s.2 + found.1.metrics.advanceWidth)) (fun _ _ _ => rfl) text.toList me.cache 0
  rw [Int32.zero_add] at hloop
  exact congrArg (fun r : GlyphCache × Int32 => (r.2, { me with cache := r.1 })) hloop

end

end Theme

end Nullxes
