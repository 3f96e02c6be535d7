import Nullxes.Theme.Caching
import Nullxes.Wlcommon.Repainting

/-!
# Painting a frame

The `render::paint` functions of the clients, as the calls that they make of the helpers of
`wlcommon/src/shm.rs` and of the text renderer, in order. A buffer that is painted was painted
before, and the renderer comes with the glyphs of all earlier texts; neither shows.

## Main definitions

* `DrawOp`, `DrawOp.perform` — a call, and what it does
* `Painter` — the calls of a `paint`, of which the first paints everything
* `Painter.render` — a frame painted on a buffer of zeros by a new renderer

## Main results

* `Painter.yields_paint` — no call panics
* `Painter.paint_eq_render` — what is painted is the frame, whatever was there and whatever was
  written before
-/

namespace Nullxes

namespace Theme

open Wlcommon Loops

/-! ## Colours -/

namespace Palette

/-- `color::BG`. -/
def bg : Color := .rgb 0x0A 0x0A 0x0A

/-- `color::SURFACE_1`. -/
def surface1 : Color := .rgb 0x11 0x11 0x11

/-- `color::SURFACE_2`. -/
def surface2 : Color := .rgb 0x13 0x13 0x13

/-- `color::SURFACE_3`. -/
def surface3 : Color := .rgb 0x16 0x16 0x16

/-- `color::SURFACE_4`. -/
def surface4 : Color := .rgb 0x1C 0x1C 0x1C

/-- `color::DIVIDER`. -/
def divider : Color := .rgb 0x25 0x25 0x25

/-- `color::TEXT_PRIMARY`. -/
def textPrimary : Color := .rgb 0xE8 0xE8 0xE8

/-- `color::TEXT_SECONDARY`. -/
def textSecondary : Color := .rgb 0x80 0x80 0x80

/-- `color::TEXT_DISABLED`. -/
def textDisabled : Color := .rgb 0x40 0x40 0x40

/-- `color::ACCENT`. -/
def accent : Color := .rgb 0xC0 0xC0 0xC0

/-- `color::DESTRUCTIVE`. -/
def destructive : Color := .rgb 0xC0 0x39 0x2B

/-- `color::WARNING`. -/
def warning : Color := .rgb 0xB0 0x7D 0x00

/-- `color::SUCCESS`. -/
def success : Color := .rgb 0x2E 0x7D 0x52

/-- `color::SELECTION_BG`: `to_u8` of 0.75 three times and of 0.15. -/
def selectionBg : Color := ⟨191, 191, 191, 38⟩

end Palette

/-! ## Calls -/

/-- A call of a `paint`. -/
inductive DrawOp
  | clear (color : Color)
  | fillRect (x y : Int32) (w h : UInt32) (color : Color)
  | hline (y x0 x1 : Int32) (color : Color)
  | vline (x y0 y1 : Int32) (color : Color)
  /-- `paint_scaled_background`, past its test. -/
  | cover (sample : ℕ → ℕ → Color)
  | drawText (x y : Int32) (text : String) (px : ℚ) (color : Color) (variant : FontVariant)
  /-- `draw_text` at `cx - measure_text(..) / 2`. -/
  | drawCentred (cx y : Int32) (text : String) (px : ℚ) (color : Color) (variant : FontVariant)

/-- `draw_text` of a text that was measured: its middle is at `cx`. -/
def TextRenderer.drawCentred {n : ℕ} (me : TextRenderer) (pixels : Canvas n) (stride : ℕ)
    (bufW bufH : UInt32) (cx y : Int32) (text : String) (px : ℚ) (color : Color)
    (variant : FontVariant) : Option (TextRenderer × Canvas n × Int32) :=
  (me.measureText text px variant).2.drawText pixels stride bufW bufH
    (cx - (me.measureText text px variant).1 / 2) y text px color variant

/-- What a `paint` is given to paint with. -/
structure Drawing (n : ℕ) where
  pixels : Canvas n
  text : Option TextRenderer

namespace DrawOp

/-- What a call does. Without a renderer nothing is written. -/
def perform {n : ℕ} (stride : ℕ) (bufW bufH : UInt32) (d : Drawing n) :
    DrawOp → Option (Drawing n)
  | clear color => (Wlcommon.clear d.pixels color).map (⟨·, d.text⟩)
  | fillRect x y w h color =>
    (Wlcommon.fillRect d.pixels stride bufW bufH x y w h color).map (⟨·, d.text⟩)
  | hline y x0 x1 color =>
    (Wlcommon.hline d.pixels stride bufW bufH y x0 x1 color).map (⟨·, d.text⟩)
  | vline x y0 y1 color =>
    (Wlcommon.vline d.pixels stride bufW bufH x y0 y1 color).map (⟨·, d.text⟩)
  | cover sample => (Wlcommon.cover d.pixels stride bufW bufH sample).map (⟨·, d.text⟩)
  | drawText x y text px color variant =>
    match d.text with
    | none => some d
    | some me =>
      (me.drawText d.pixels stride bufW bufH x y text px color variant).map fun r =>
        ⟨r.2.1, some r.1⟩
  | drawCentred cx y text px color variant =>
    match d.text with
    | none => some d
    | some me =>
      (me.drawCentred d.pixels stride bufW bufH cx y text px color variant).map fun r =>
        ⟨r.2.1, some r.1⟩

/-- It writes, if it does, in a size that the glyph cache tells apart. -/
@[simp] def Sized : DrawOp → Prop
  | drawText _ _ _ px _ _ | drawCentred _ _ _ px _ _ => HalfPixels px
  | _ => True

/-- Calls that are made for each of a list. -/
theorem sized_flatMap {α : Type} {l : List α} {f : α → List DrawOp}
    (h : ∀ a ∈ l, ∀ op ∈ f a, op.Sized) : ∀ op ∈ l.flatMap f, op.Sized := by
  intro op hop
  obtain ⟨a, ha, hmem⟩ := List.mem_flatMap.mp hop
  exact h a ha op hmem

/-- It paints everything. -/
def Opens : DrawOp → Prop
  | clear _ | cover _ => True
  | _ => False

end DrawOp

/-- Whole pixels are half pixels. -/
@[simp] theorem halfPixels_ofNat (n : ℕ) [n.AtLeastTwo] (h : n ≤ 2147483647) :
    HalfPixels ofNat(n) := by
  have hpos : 2 ≤ n := Nat.AtLeastTwo.prop
  have hhalf : ((2 * n : ℕ) : ℚ) / 2 = n := by
    rw [Nat.cast_mul, Nat.cast_ofNat, mul_div_cancel_left₀ _ two_ne_zero]
  refine ⟨2 * n, by omega, by omega, ?_⟩
  rw [hhalf]
  rfl

/-- A `paint`: what it is given for a picture, and its calls, with or without a renderer. -/
structure Painter (Picture : Type) where
  stride : Picture → ℕ
  width : Picture → UInt32
  height : Picture → UInt32
  calls : Picture → Bool → List DrawOp
  opens : ∀ picture text, ∃ op ops, calls picture text = op :: ops ∧ op.Opens
  sized : ∀ picture text, ∀ op ∈ calls picture text, op.Sized

namespace Painter

variable {Picture : Type} (P : Painter Picture)

/-- `paint`. -/
def paint {n : ℕ} (picture : Picture) (d : Drawing n) : Option (Drawing n) :=
  (P.calls picture d.text.isSome).foldlM
    (DrawOp.perform (P.stride picture) (P.width picture) (P.height picture)) d

/-- The frame: what is painted on zeros, by a new renderer. -/
def render (fonts : Option Fonts) (n : ℕ) (picture : Picture) : Option (Vector UInt8 n) :=
  (P.paint picture ⟨⟨.replicate n 0, []⟩, fonts.map .new⟩).map fun d => d.pixels.pixels

end Painter

/-! ## Inside of the buffer -/

section

variable {n : ℕ} {stride : ℕ} {bufW bufH : UInt32}

/-- **No call panics**, and everything is painted inside of the buffer. -/
theorem DrawOp.yields_perform {d : Drawing n} (h : d.pixels.Inside stride bufW bufH)
    (op : DrawOp) :
    Yields (fun d' => d'.pixels.Inside stride bufW bufH) (op.perform stride bufW bufH d) := by
  have hmap : ∀ {c : Option (Canvas n)}, Yields (fun c => c.Inside stride bufW bufH) c →
      Yields (fun d' : Drawing n => d'.pixels.Inside stride bufW bufH)
        (c.map fun c => ⟨c, d.text⟩) := by
    rintro c ⟨c', rfl, hc⟩
    exact yields_some hc
  have htext : ∀ {r : Option (TextRenderer × Canvas n × Int32)},
      Yields (fun r => r.2.1.Inside stride bufW bufH) r →
      Yields (fun d' : Drawing n => d'.pixels.Inside stride bufW bufH)
        (r.map fun r => ⟨r.2.1, some r.1⟩) := by
    rintro r ⟨r', rfl, hr⟩
    exact yields_some hr
  cases op with
  | clear color => exact hmap (yields_clear h color)
  | fillRect x y w height color => exact hmap (yields_fillRect h x y w height color)
  | hline y x0 x1 color => exact hmap (yields_hline h y x0 x1 color)
  | vline x y0 y1 color => exact hmap (yields_vline h x y0 y1 color)
  | cover sample => exact hmap (yields_cover h sample)
  | drawText x y text px color variant =>
    rw [perform]
    cases d.text with
    | none => exact yields_some h
    | some me => exact htext (yields_drawText me h x y text px color variant)
  | drawCentred cx y text px color variant =>
    rw [perform]
    cases d.text with
    | none => exact yields_some h
    | some me => exact htext (yields_drawText _ h _ y text px color variant)

theorem Painter.yields_paint {Picture : Type} (P : Painter Picture) {picture : Picture}
    {d : Drawing n}
    (h : d.pixels.Inside (P.stride picture) (P.width picture) (P.height picture)) :
    Yields (fun d' => d'.pixels.Inside (P.stride picture) (P.width picture) (P.height picture))
      (P.paint picture d) :=
  yields_foldlM (fun _ hd op _ => op.yields_perform hd) h

end

/-! ## Whatever was written before -/

section

variable {n : ℕ} {c c' : Canvas n} {stride : ℕ} {bufW bufH : UInt32}

theorem rel_drawGlyph (h : c.Agree n c') (glyph : CachedGlyph) (cursorX y : Int32)
    (color : Color) :
    Option.Rel (Canvas.Agree n) (drawGlyph glyph c stride bufW bufH cursorX y color)
      (drawGlyph glyph c' stride bufW bufH cursorX y color) := by
  rw [drawGlyph, drawGlyph]
  refine rel_foldlM (fun s s' hs row _ => ?_) h
  dsimp only
  split
  next => exact .some hs
  next =>
    refine rel_foldlM (fun t t' ht col _ => ?_) hs
    split
    next => exact .some ht
    next =>
      cases glyph.bitmap[row * glyph.metrics.width + col]? with
      | none => exact .none
      | some coverage =>
        dsimp only [Option.bind_eq_bind, Option.bind_some]
        split
        · exact .some ht
        · exact Canvas.rel_put ht _ _ _ _ _ _

theorem rel_drawGlyphs (h : c.Agree n c') (gs : List CachedGlyph) (cursorX y : Int32)
    (color : Color) :
    Option.Rel (Canvas.Agree n) (drawGlyphs stride bufW bufH y color gs c cursorX)
      (drawGlyphs stride bufW bufH y color gs c' cursorX) := by
  induction gs generalizing c c' cursorX with
  | nil => exact .some h
  | cons g gs ih =>
    rw [drawGlyphs, drawGlyphs]
    refine rel_bind ?_ fun s s' hs => ih hs _
    split
    · exact .some h
    · exact rel_drawGlyph h _ _ _ _

variable {fonts : Fonts} {me me' : TextRenderer}

/-- **Two renderers write the same** into buffers that are the same, whatever they wrote before. -/
theorem rel_drawText (hme : me.Sound fonts) (hme' : me'.Sound fonts) (h : c.Agree n c') {px : ℚ}
    (hpx : HalfPixels px) (x y : Int32) (text : String) (color : Color) (variant : FontVariant) :
    Option.Rel (fun r r' => r.2.1.Agree n r'.2.1 ∧ r.1.Sound fonts ∧ r'.1.Sound fonts)
      (me.drawText c stride bufW bufH x y text px color variant)
      (me'.drawText c' stride bufW bufH x y text px color variant) := by
  obtain ⟨hglyphs, hsound⟩ := hme.glyphs hpx text variant
  obtain ⟨hglyphs', hsound'⟩ := hme'.glyphs hpx text variant
  rw [drawText_eq, drawText_eq, hglyphs, hglyphs']
  exact rel_map (rel_drawGlyphs h _ x y color) fun s s' hs => ⟨hs, hsound, hsound'⟩

/-- They measure the same, too. -/
theorem rel_drawCentred (hme : me.Sound fonts) (hme' : me'.Sound fonts) (h : c.Agree n c')
    {px : ℚ} (hpx : HalfPixels px) (cx y : Int32) (text : String) (color : Color)
    (variant : FontVariant) :
    Option.Rel (fun r r' => r.2.1.Agree n r'.2.1 ∧ r.1.Sound fonts ∧ r'.1.Sound fonts)
      (me.drawCentred c stride bufW bufH cx y text px color variant)
      (me'.drawCentred c' stride bufW bufH cx y text px color variant) := by
  obtain ⟨hglyphs, hsound⟩ := hme.glyphs hpx text variant
  obtain ⟨hglyphs', hsound'⟩ := hme'.glyphs hpx text variant
  rw [TextRenderer.drawCentred, TextRenderer.drawCentred, measureText_eq, measureText_eq, hglyphs,
    hglyphs']
  exact rel_drawText hsound hsound' h hpx _ y text color variant

end

/-! ## Whatever was there -/

/-- What became of the renderer with these fonts, if there are any. -/
def Faithful (fonts : Option Fonts) (text : Option TextRenderer) : Prop :=
  Option.Rel (fun fonts me => me.Sound fonts) fonts text

theorem faithful_new (fonts : Option Fonts) : Faithful fonts (fonts.map .new) := by
  cases fonts with
  | none => exact .none
  | some fonts => exact .some (TextRenderer.sound_new fonts)

theorem Faithful.isSome_eq {fonts : Option Fonts} {text : Option TextRenderer}
    (h : Faithful fonts text) : text.isSome = fonts.isSome := by
  cases h with
  | none => rfl
  | some => rfl

/-- Two drawings are painted with renderers of the same fonts, and their first bytes are the
same. -/
structure Drawing.Alike {n : ℕ} (fonts : Option Fonts) (m : ℕ) (d d' : Drawing n) : Prop where
  pixels : d.pixels.Agree m d'.pixels
  left : Faithful fonts d.text
  right : Faithful fonts d'.text

section

variable {n : ℕ} {fonts : Option Fonts} {d d' : Drawing n} {stride : ℕ} {bufW bufH : UInt32}

/-- A call of a pixel helper. -/
theorem Drawing.Alike.rel_map {m m' : ℕ} (h : d.Alike fonts m d') {c c' : Option (Canvas n)}
    (hc : Option.Rel (Canvas.Agree m') c c') :
    Option.Rel (Drawing.Alike fonts m') (c.map (⟨·, d.text⟩)) (c'.map (⟨·, d'.text⟩)) :=
  Loops.rel_map hc fun _ _ hs => ⟨hs, h.left, h.right⟩

/-- A call of `draw_text`. -/
theorem Drawing.Alike.rel_write {F : Fonts}
    {r r' : Option (TextRenderer × Canvas n × Int32)}
    (h : Option.Rel (fun r r' => r.2.1.Agree n r'.2.1 ∧ r.1.Sound F ∧ r'.1.Sound F) r r') :
    Option.Rel (Drawing.Alike (some F) n) (r.map fun r => ⟨r.2.1, some r.1⟩)
      (r'.map fun r => ⟨r.2.1, some r.1⟩) :=
  Loops.rel_map h fun _ _ hs => ⟨hs.1, .some hs.2.1, .some hs.2.2⟩

/-- **What is the same stays the same**, call after call. -/
theorem DrawOp.rel_perform (hn : n % 4 = 0) (h : d.Alike fonts n d') (op : DrawOp)
    (hop : op.Sized) :
    Option.Rel (Drawing.Alike fonts n) (op.perform stride bufW bufH d)
      (op.perform stride bufW bufH d') := by
  cases op with
  | clear color => exact h.rel_map (rel_clear hn _ _ color)
  | fillRect x y w height color => exact h.rel_map (rel_fillRect h.pixels x y w height color)
  | hline y x0 x1 color => exact h.rel_map (rel_hline h.pixels y x0 x1 color)
  | vline x y0 y1 color => exact h.rel_map (rel_vline h.pixels x y0 y1 color)
  | cover sample =>
    refine h.rel_map ?_
    refine rel_foldlM (fun s s' hs y _ => ?_) h.pixels
    refine rel_foldlM (fun t t' ht x _ => ?_) hs
    split
    · exact .some ht
    · exact Canvas.rel_put ht _ _ _ _ _ _
  | drawText x y text px color variant =>
    obtain ⟨pixels, text⟩ := d
    obtain ⟨pixels', text'⟩ := d'
    obtain ⟨hpixels, hleft, hright⟩ := h
    cases hleft with
    | none =>
      cases hright
      exact .some ⟨hpixels, .none, .none⟩
    | some hme =>
      cases hright with
      | some hme' => exact Drawing.Alike.rel_write (rel_drawText hme hme' hpixels hop x y _ _ _)
  | drawCentred cx y text px color variant =>
    obtain ⟨pixels, text⟩ := d
    obtain ⟨pixels', text'⟩ := d'
    obtain ⟨hpixels, hleft, hright⟩ := h
    cases hleft with
    | none =>
      cases hright
      exact .some ⟨hpixels, .none, .none⟩
    | some hme =>
      cases hright with
      | some hme' => exact Drawing.Alike.rel_write (rel_drawCentred hme hme' hpixels hop cx y _ _ _)

/-- **What paints everything leaves nothing of what was there.** -/
theorem DrawOp.rel_perform_opens (hstride : stride = 4 * bufW.toNat)
    (hn : n = stride * bufH.toNat) (h : d.Alike fonts 0 d') {op : DrawOp} (hop : op.Opens) :
    Option.Rel (Drawing.Alike fonts n) (op.perform stride bufW bufH d)
      (op.perform stride bufW bufH d') := by
  have hfour : n % 4 = 0 := by
    rw [hn, hstride, Nat.mul_assoc]
    exact Nat.mul_mod_right _ _
  cases op with
  | clear color => exact h.rel_map (rel_clear hfour _ _ color)
  | cover sample => exact h.rel_map (rel_cover hstride hn _ _ sample)
  | _ => exact absurd hop id

end

namespace Painter

variable {Picture : Type} (P : Painter Picture) {fonts : Option Fonts} {n : ℕ}

/-- The buffer has the size of the picture. -/
structure Fits (n : ℕ) (picture : Picture) : Prop where
  stride : P.stride picture = 4 * (P.width picture).toNat
  length : n = P.stride picture * (P.height picture).toNat

variable {P} {picture : Picture}

theorem Fits.inside (h : P.Fits n picture) (pixels : Vector UInt8 n) :
    Canvas.Inside ⟨pixels, []⟩ (P.stride picture) (P.width picture) (P.height picture) where
  row := h.stride.ge
  rows := h.length.ge
  painted := nofun

/-- Two buffers of the size of a picture, whatever they hold and whatever was written before. -/
theorem rel_paint (h : P.Fits n picture) {d d' : Drawing n} (hd : d.Alike fonts 0 d') :
    Option.Rel (Drawing.Alike fonts n) (P.paint picture d) (P.paint picture d') := by
  have hisSome : d.text.isSome = d'.text.isSome :=
    hd.left.isSome_eq.trans hd.right.isSome_eq.symm
  have hfour : n % 4 = 0 := by
    rw [h.length, h.stride, Nat.mul_assoc]
    exact Nat.mul_mod_right _ _
  obtain ⟨op, ops, hcalls, hopens⟩ := P.opens picture d'.text.isSome
  have hsized : ∀ o ∈ op :: ops, o.Sized := hcalls ▸ P.sized picture d'.text.isSome
  rw [paint, paint, hisSome, hcalls, List.foldlM_cons, List.foldlM_cons]
  refine rel_bind (DrawOp.rel_perform_opens h.stride h.length hd hopens) fun s s' hs => ?_
  exact rel_foldlM (fun t t' ht o ho =>
    DrawOp.rel_perform hfour ht o (hsized o (List.mem_cons_of_mem _ ho))) hs

/-- **What is painted is the frame**, whatever was in the buffer and whatever was written before,
and the renderer stays faithful to its fonts. -/
theorem paint_eq_render (h : P.Fits n picture) (pixels : Vector UInt8 n)
    {text : Option TextRenderer} (htext : Faithful fonts text) :
    Yields (fun d => some d.pixels.pixels = P.render fonts n picture ∧ Faithful fonts d.text)
      (P.paint picture ⟨⟨pixels, []⟩, text⟩) := by
  have hstart : (⟨⟨pixels, []⟩, text⟩ : Drawing n).Alike fonts 0
      ⟨⟨.replicate n 0, []⟩, fonts.map .new⟩ :=
    ⟨Canvas.agree_zero _ _, htext, faithful_new fonts⟩
  have hrel := rel_paint h hstart
  obtain ⟨d, hd, -⟩ := P.yields_paint (d := ⟨⟨pixels, []⟩, text⟩) (h.inside pixels)
  refine ⟨d, hd, ?_⟩
  rw [render]
  rw [hd] at hrel
  cases hd' : P.paint picture ⟨⟨.replicate n 0, []⟩, fonts.map .new⟩ with
  | none =>
    rw [hd'] at hrel
    cases hrel
  | some d' =>
    rw [hd'] at hrel
    cases hrel with
    | some halike => exact ⟨congrArg some halike.pixels.pixels_eq, halike.left⟩

end Painter

end Theme

end Nullxes
