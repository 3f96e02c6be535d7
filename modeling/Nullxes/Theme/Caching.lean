import Mathlib.Tactic.Linarith
import Nullxes.Theme.Glyphs

/-!
# The glyph cache

One table serves three fonts and all sizes. Its key is the character, the index of the variant and
the size in half pixels, and the table is sound for what the font of that index makes of the
character at that size: as long as a size is a whole number of half pixels that fits in a `u32`, no
call can tell what was drawn before it.

## Main definitions

* `HalfPixels` — such a size
* `Call`, `Call.effect` — a call, and what the caller sees of it
* `Reached` — a renderer after some calls

## Main results

* `cache_transparent` — each call is what it is with an empty cache
* `not_transparent` — two sizes that saturate the key
-/

namespace Nullxes

namespace Theme

open Wlcommon Memo

/-! ## Keys -/

/-- The size is `k` half pixels, and `k` is a `u32` that is not zero. -/
def HalfPixels (px : ℚ) : Prop := ∃ k : ℕ, 0 < k ∧ k ≤ 4294967295 ∧ px = k / 2

/-- The key of a size. -/
theorem halfPixels_div_two (k : ℕ) :
    halfPixels (k / 2) = UInt32.ofNat (min k (UInt32.size - 1)) := by
  have hfloor : ((k : ℚ) / 2 * 2 + 1 / 2).floor = k := by
    have hexact : (k : ℚ) / 2 * 2 = k := div_mul_cancel₀ _ two_ne_zero
    have hge : (k : ℤ) ≤ ((k : ℚ) / 2 * 2 + 1 / 2).floor := by
      rw [Rat.le_floor_iff, hexact, Int.cast_natCast]
      linarith
    have hlt : ((k : ℚ) / 2 * 2 + 1 / 2).floor < (k : ℤ) + 1 := by
      rw [Rat.floor_lt_iff, hexact, Int.cast_add, Int.cast_natCast, Int.cast_one]
      linarith
    exact Int.le_antisymm (Int.lt_add_one_iff.mp hlt) hge
  rw [halfPixels, hfloor, Int.toNat_natCast]

theorem toNat_halfPixels {k : ℕ} (h : k ≤ 4294967295) : (halfPixels (k / 2)).toNat = k := by
  have hmin : min k (UInt32.size - 1) = k := Nat.min_eq_left h
  rw [halfPixels_div_two, hmin]
  exact UInt32.toNat_ofNat_of_lt' (Nat.lt_succ_of_le h)

/-- The font of an index. -/
def Fonts.byIndex (fonts : Fonts) (fontIdx : UInt8) : Font :=
  if fontIdx = 0 then fonts.regular else if fontIdx = 1 then fonts.medium else fonts.mono

theorem Fonts.byIndex_toUInt8 (fonts : Fonts) (variant : FontVariant) :
    fonts.byIndex variant.toUInt8 = fonts.font variant := by
  cases variant with
  | regular => rfl
  | medium => rfl
  | mono => rfl

/-- What a key stands for. -/
def Fonts.rasterized (fonts : Fonts) (key : GlyphKey) : CachedGlyph :=
  fonts.byIndex key.2.1 key.1 (key.2.2.toNat / 2)

theorem Fonts.rasterized_key (fonts : Fonts) (variant : FontVariant) (ch : Char) {px : ℚ}
    (h : HalfPixels px) :
    fonts.rasterized (ch, variant.toUInt8, halfPixels px) = fonts.font variant ch px := by
  obtain ⟨k, -, hk, rfl⟩ := h
  rw [rasterized, byIndex_toUInt8, toNat_halfPixels hk]

/-! ## Soundness -/

/-- `get_or_rasterize` asks the table. -/
theorem getOrRasterize_eq (cache : GlyphCache) (font : Font) (fontIdx : UInt8) (ch : Char)
    (px : ℚ) :
    cache.getOrRasterize font fontIdx ch px =
      ask cache (ch, fontIdx, halfPixels px) (font ch px) := by
  cases hlookup : cache.lookup (ch, fontIdx, halfPixels px) with
  | none => simp only [GlyphCache.getOrRasterize, ask, hlookup]
  | some glyph => simp only [GlyphCache.getOrRasterize, ask, hlookup]

section

variable {fonts : Fonts} {cache : GlyphCache} {px : ℚ}

theorem getOrRasterize_of_sound (h : Sound fonts.rasterized cache) (hpx : HalfPixels px)
    (variant : FontVariant) (ch : Char) :
    (cache.getOrRasterize (fonts.font variant) variant.toUInt8 ch px).1 =
        fonts.font variant ch px ∧
      Sound fonts.rasterized
        (cache.getOrRasterize (fonts.font variant) variant.toUInt8 ch px).2 := by
  rw [getOrRasterize_eq, ← fonts.rasterized_key variant ch hpx]
  exact ⟨h.ask_fst _, h.ask_snd _⟩

/-- **With a sound cache the glyphs of a text are those of its font**, and the cache stays sound. -/
theorem glyphs_of_sound (hpx : HalfPixels px) (variant : FontVariant) (text : List Char)
    (h : Sound fonts.rasterized cache) :
    (glyphs (fonts.font variant) variant.toUInt8 px text cache).1 =
        text.map (fun ch => fonts.font variant ch px) ∧
      Sound fonts.rasterized (glyphs (fonts.font variant) variant.toUInt8 px text cache).2 := by
  induction text generalizing cache with
  | nil => exact ⟨rfl, h⟩
  | cons ch text ih =>
    obtain ⟨hglyph, hsound⟩ := getOrRasterize_of_sound h hpx variant ch
    obtain ⟨hrest, hsound'⟩ := ih hsound
    refine ⟨?_, hsound'⟩
    rw [glyphs, List.map_cons, hrest, hglyph]

end

/-! ## Calls -/

/-- A call of the renderer: `draw_text` into a buffer of the caller's, or `measure_text`. -/
inductive Call
  | drawText (n : ℕ) (pixels : Canvas n) (stride : ℕ) (bufW bufH : UInt32) (x y : Int32)
      (text : String) (px : ℚ) (color : Color) (variant : FontVariant)
  | measureText (text : String) (px : ℚ) (variant : FontVariant)

/-- What the caller sees of it. -/
inductive Outcome
  | drawn (n : ℕ) (pixels : Canvas n) (width : Int32)
  | measured (width : Int32)

namespace Call

/-- The size that is asked for. -/
def px : Call → ℚ
  | drawText _ _ _ _ _ _ _ _ px _ _ => px
  | measureText _ px _ => px

/-- A call, unless it panics. -/
def perform (me : TextRenderer) : Call → Option (Outcome × TextRenderer)
  | drawText n pixels stride bufW bufH x y text px color variant =>
    (me.drawText pixels stride bufW bufH x y text px color variant).map fun r =>
      (.drawn n r.2.1 r.2.2, r.1)
  | measureText text px variant =>
    some (.measured (me.measureText text px variant).1, (me.measureText text px variant).2)

/-- What the caller sees, or a panic. -/
def effect (me : TextRenderer) (call : Call) : Option Outcome := (call.perform me).map Prod.fst

end Call

/-- `TextRenderer::new`. -/
def TextRenderer.new (fonts : Fonts) : TextRenderer := ⟨fonts, ∅⟩

/-- The renderer after some calls, none of which panics. -/
def TextRenderer.performAll (me : TextRenderer) : List Call → Option TextRenderer
  | [] => some me
  | call :: calls => (call.perform me).bind fun r => r.2.performAll calls

/-- A renderer after some calls whose sizes are half pixels. -/
def Reached (fonts : Fonts) (me : TextRenderer) : Prop :=
  ∃ calls : List Call, (∀ call ∈ calls, HalfPixels call.px) ∧
    (TextRenderer.new fonts).performAll calls = some me

section

variable {fonts : Fonts} {me : TextRenderer}

/-- The fonts are as they were, and the cache is sound. -/
structure TextRenderer.Sound (fonts : Fonts) (me : TextRenderer) : Prop where
  fonts_eq : me.fonts = fonts
  sound : Memo.Sound fonts.rasterized me.cache

theorem TextRenderer.sound_new (fonts : Fonts) : (TextRenderer.new fonts).Sound fonts :=
  ⟨rfl, sound_empty _⟩

/-- The glyphs of a text are those of a new renderer. -/
theorem TextRenderer.Sound.glyphs (h : me.Sound fonts) {px : ℚ} (hpx : HalfPixels px)
    (text : String) (variant : FontVariant) :
    (me.glyphs text px variant).1 = ((TextRenderer.new fonts).glyphs text px variant).1 ∧
      TextRenderer.Sound fonts { me with cache := (me.glyphs text px variant).2 } := by
  obtain ⟨rfl, hcache⟩ := h
  obtain ⟨hglyphs, hsound⟩ := glyphs_of_sound hpx variant text.toList hcache
  refine ⟨hglyphs.trans ?_, rfl, hsound⟩
  exact (glyphs_of_sound hpx variant text.toList (sound_empty _)).1.symm

/-- **The step.** A call keeps the renderer sound, and does what it does with an empty cache. -/
theorem TextRenderer.Sound.perform (h : me.Sound fonts) {call : Call} (hpx : HalfPixels call.px) :
    call.effect me = call.effect (TextRenderer.new fonts) ∧
      ∀ r, call.perform me = some r → r.2.Sound fonts := by
  cases call with
  | drawText n pixels stride bufW bufH x y text px color variant =>
    obtain ⟨hglyphs, hsound⟩ := h.glyphs (show HalfPixels px from hpx) text variant
    refine ⟨?_, fun r hr => ?_⟩
    · rw [Call.effect, Call.perform, Call.effect, Call.perform, drawText_eq, drawText_eq, hglyphs,
        Option.map_map, Option.map_map, Option.map_map, Option.map_map]
      rfl
    · rw [Call.perform, drawText_eq, Option.map_map] at hr
      obtain ⟨pixels', -, rfl⟩ := Option.map_eq_some_iff.mp hr
      exact hsound
  | measureText text px variant =>
    obtain ⟨hglyphs, hsound⟩ := h.glyphs (show HalfPixels px from hpx) text variant
    refine ⟨?_, fun r hr => ?_⟩
    · rw [Call.effect, Call.perform, Call.effect, Call.perform, measureText_eq, measureText_eq,
        hglyphs]
      rfl
    · rw [Call.perform, measureText_eq] at hr
      cases hr
      exact hsound

theorem TextRenderer.Sound.performAll (h : me.Sound fonts) {calls : List Call}
    (hpx : ∀ call ∈ calls, HalfPixels call.px) {me' : TextRenderer}
    (hcalls : me.performAll calls = some me') : me'.Sound fonts := by
  induction calls generalizing me with
  | nil =>
    cases hcalls
    exact h
  | cons call calls ih =>
    obtain ⟨r, hr, hrest⟩ := Option.bind_eq_some_iff.mp hcalls
    have hstep := (h.perform (hpx call List.mem_cons_self)).2 r hr
    exact ih hstep (fun call hcall => hpx call (List.mem_cons_of_mem _ hcall)) hrest

theorem Reached.sound (h : Reached fonts me) : me.Sound fonts := by
  obtain ⟨calls, hpx, hcalls⟩ := h
  exact (TextRenderer.sound_new fonts).performAll hpx hcalls

end

/-- `draw_text` returns what `measure_text` returns, whatever the cache holds. -/
theorem width_eq_measureText {me : TextRenderer} {n : ℕ} {pixels : Canvas n} {stride : ℕ}
    {bufW bufH : UInt32} {x y : Int32} {text : String} {px : ℚ} {color : Color}
    {variant : FontVariant} {r : TextRenderer × Canvas n × Int32}
    (h : me.drawText pixels stride bufW bufH x y text px color variant = some r) :
    r.2.2 = (me.measureText text px variant).1 := by
  rw [drawText_eq] at h
  obtain ⟨pixels', -, rfl⟩ := Option.map_eq_some_iff.mp h
  rw [measureText_eq]

/-- A text is as wide as with an empty cache. -/
theorem TextRenderer.Sound.measureText {fonts : Fonts} {me : TextRenderer} (h : me.Sound fonts)
    {px : ℚ} (hpx : HalfPixels px) (text : String) (variant : FontVariant) :
    (me.measureText text px variant).1 =
      ((TextRenderer.new fonts).measureText text px variant).1 := by
  rw [measureText_eq, measureText_eq, (h.glyphs hpx text variant).1]

/-- **The cache is transparent.** After any calls, each call does what it does with an empty cache;
`draw_text` returns what `measure_text` does, whatever the cache holds; and what is drawn after it
was measured, and any other calls, ends where it was measured to end. -/
theorem cache_transparent {fonts : Fonts} {me me' : TextRenderer} (h : Reached fonts me)
    (h' : Reached fonts me') :
    (∀ call : Call, HalfPixels call.px → call.effect me = call.effect (TextRenderer.new fonts)) ∧
      (∀ (any : TextRenderer) (n : ℕ) (pixels : Canvas n) (stride : ℕ) (bufW bufH : UInt32)
        (x y : Int32) (text : String) (px : ℚ) (color : Color) (variant : FontVariant)
        (r : TextRenderer × Canvas n × Int32),
        any.drawText pixels stride bufW bufH x y text px color variant = some r →
          r.2.2 = (any.measureText text px variant).1) ∧
      ∀ (n : ℕ) (pixels : Canvas n) (stride : ℕ) (bufW bufH : UInt32) (penX x y : Int32)
        (text : String) (px : ℚ) (color : Color) (variant : FontVariant)
        (r : TextRenderer × Canvas n × Int32), HalfPixels px →
        x = penX - (me.measureText text px variant).1 →
        me'.drawText pixels stride bufW bufH x y text px color variant = some r →
          r.2.2 = (me.measureText text px variant).1 ∧ x + r.2.2 = penX := by
  refine ⟨fun call hpx => (h.sound.perform hpx).1, fun any n pixels stride bufW bufH x y text px
    color variant r hr => width_eq_measureText hr, fun n pixels stride bufW bufH penX x y text px
    color variant r hpx hx hr => ?_⟩
  have hwidth : r.2.2 = (me.measureText text px variant).1 := by
    rw [width_eq_measureText hr, h'.sound.measureText hpx, h.sound.measureText hpx]
  exact ⟨hwidth, by rw [hwidth, hx, Int32.sub_add_cancel]⟩

/-- A font whose characters are blank, and two pixels wide at all sizes but one. -/
def blanks : Font := fun _ px => ⟨⟨1, 1, 0, 0, if px = 4294967296 then 1 else 2⟩, [0], rfl⟩

/-- Measured after another text in another font. -/
theorem cache_transparent_blanks :
    (Call.measureText "b" 14 .mono).effect
        ((TextRenderer.new ⟨blanks, blanks, blanks⟩).measureText "ab" 13 .regular).2 =
      (Call.measureText "b" 14 .mono).effect (TextRenderer.new ⟨blanks, blanks, blanks⟩) := by
  have hreached : Reached ⟨blanks, blanks, blanks⟩
      ((TextRenderer.new ⟨blanks, blanks, blanks⟩).measureText "ab" 13 .regular).2 := by
    refine ⟨[.measureText "ab" 13 .regular], fun call hcall => ?_, rfl⟩
    rw [List.mem_singleton.mp hcall]
    exact ⟨26, by omega, by omega, by rw [Call.px]; norm_num⟩
  have hpx : HalfPixels (Call.measureText "b" 14 .mono).px :=
    ⟨28, by omega, by omega, by rw [Call.px]; norm_num⟩
  exact (cache_transparent hreached hreached).1 _ hpx

/-! ## Sizes that share a key -/

/-- A text of one character asks the table once. -/
theorem measureText_singleton (me : TextRenderer) (ch : Char) (px : ℚ) (variant : FontVariant) :
    let found := ask me.cache (ch, variant.toUInt8, halfPixels px) (me.fonts.font variant ch px)
    me.measureText (String.ofList [ch]) px variant =
      (found.1.metrics.advanceWidth, { me with cache := found.2 }) := by
  rw [measureText_eq, TextRenderer.glyphs, String.toList_ofList, glyphs, glyphs, advances_cons,
    getOrRasterize_eq]
  exact congrArg (Prod.mk · _) (Int32.add_zero _)

theorem measureText_new (fonts : Fonts) (ch : Char) (px : ℚ) (variant : FontVariant) :
    (TextRenderer.new fonts).measureText (String.ofList [ch]) px variant =
      ((fonts.font variant ch px).metrics.advanceWidth, ⟨fonts, AList.insert
        (ch, variant.toUInt8, halfPixels px) (fonts.font variant ch px) ∅⟩) := by
  rw [measureText_singleton, TextRenderer.new, ask_of_none (AList.lookup_empty _)]

/-- The size that comes first is the one that counts. -/
theorem measureText_of_same_key (fonts : Fonts) (ch : Char) {px px' : ℚ}
    (h : halfPixels px' = halfPixels px) (variant : FontVariant) :
    (((TextRenderer.new fonts).measureText (String.ofList [ch]) px variant).2.measureText
      (String.ofList [ch]) px' variant).1 = (fonts.font variant ch px).metrics.advanceWidth := by
  rw [measureText_new, measureText_singleton, h, ask_of_some (AList.lookup_insert _)]

/-- The keys of `2 ^ 32` and `2 ^ 33` pixels are both `u32::MAX`. -/
theorem halfPixels_saturates : halfPixels 8589934592 = halfPixels 4294967296 := by
  have hsmall : (4294967296 : ℚ) = (8589934592 : ℕ) / 2 := by norm_num
  have hlarge : (8589934592 : ℚ) = (17179869184 : ℕ) / 2 := by norm_num
  rw [hsmall, halfPixels_div_two, hlarge, halfPixels_div_two]
  rfl

/-- **Two sizes share a key.** A text at `2 ^ 33` pixels is as wide as one at `2 ^ 32`, if that was
measured before. -/
theorem not_transparent : ¬ ∀ (fonts : Fonts) (calls : List Call) (me : TextRenderer),
    (∀ call ∈ calls, ∃ k : ℕ, 0 < k ∧ call.px = k / 2) →
    (TextRenderer.new fonts).performAll calls = some me →
    ∀ call : Call, (∃ k : ℕ, 0 < k ∧ call.px = k / 2) →
      call.effect me = call.effect (TextRenderer.new fonts) := by
  intro hall
  have hsmall : (4294967296 : ℚ) = (8589934592 : ℕ) / 2 := by norm_num
  have hlarge : (8589934592 : ℚ) = (17179869184 : ℕ) / 2 := by norm_num
  have hsame := hall ⟨blanks, blanks, blanks⟩
    [.measureText (String.ofList ['a']) 4294967296 .regular] _ (fun call hcall => by
      rw [List.mem_singleton.mp hcall]
      exact ⟨8589934592, by omega, hsmall⟩) rfl
    (.measureText (String.ofList ['a']) 8589934592 .regular) ⟨17179869184, by omega, hlarge⟩
  have hwidth := Outcome.measured.inj (Option.some.inj hsame)
  have hfirst := measureText_of_same_key ⟨blanks, blanks, blanks⟩ 'a' halfPixels_saturates .regular
  have hboth := hwidth.symm.trans hfirst
  rw [measureText_new] at hboth
  have hone : (blanks 'a' 4294967296).metrics.advanceWidth = 1 := by rw [blanks, if_pos rfl]
  have htwo : (blanks 'a' 8589934592).metrics.advanceWidth = 2 := by
    rw [blanks, if_neg (by norm_num)]
  exact absurd ((htwo.symm.trans hboth).trans hone) (by decide)

end Theme

end Nullxes
