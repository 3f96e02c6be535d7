import Nullxes.Panel.Overlay
import Nullxes.Wlcommon.Inking

/-!
# Painting the panel

Rectangles and text are clipped to the buffer, wherever they lie, so no module paints outside of the
bitmap, and what of a rectangle is in it is painted exactly. The one slice is that of a long network
name, at byte 15: a name in which no character ends there stops the compositor.

## Main definitions

* `IsCharBoundary` — a character ends there
* `PanelOverlay.PaintsSafely` — nothing panics, and what is painted is inside
* `Sliceable` — the network has no long name that is cut inside of a character

## Main results

* `fillRect_exact` — what a rectangle does to each byte
* `paintsSafely_iff` — when the panel can be painted
* `not_paintsSafely` — a name with nine accents
-/

namespace Nullxes

namespace Panel

open Loops
open Wlcommon (Canvas Color Within Blended InPixel fillPixels blend)
open Theme (TextRenderer)

/-! ## Slices -/

/-- The length in bytes. -/
def byteLen : List Char → ℕ
  | [] => 0
  | c :: cs => c.utf8Size + byteLen cs

/-- `is_char_boundary`. -/
def IsCharBoundary (s : String) (n : ℕ) : Prop := ∃ pre, pre <+: s.toList ∧ byteLen pre = n

theorem isSome_sliceTo {cs : List Char} {n : ℕ} :
    (sliceTo cs n).isSome = true ↔ ∃ pre, pre <+: cs ∧ byteLen pre = n := by
  induction cs generalizing n with
  | nil =>
    cases n with
    | zero => exact iff_of_true rfl ⟨[], List.nil_prefix, rfl⟩
    | succ n =>
      refine iff_of_false Bool.false_ne_true ?_
      rintro ⟨pre, hpre, hlen⟩
      rw [List.prefix_nil.mp hpre] at hlen
      cases hlen
  | cons c cs ih =>
    cases n with
    | zero => exact iff_of_true rfl ⟨[], List.nil_prefix, rfl⟩
    | succ n =>
      rw [sliceTo]
      constructor
      · intro h
        split at h
        next hfits =>
          rw [Option.isSome_map] at h
          obtain ⟨pre, hpre, hlen⟩ := ih.mp h
          refine ⟨c :: pre, List.cons_prefix_cons.mpr ⟨rfl, hpre⟩, ?_⟩
          rw [byteLen]
          omega
        next => cases h
      · rintro ⟨pre, hpre, hlen⟩
        cases pre with
        | nil => cases hlen
        | cons c' pre =>
          obtain ⟨rfl, hpre'⟩ := List.cons_prefix_cons.mp hpre
          rw [byteLen] at hlen
          rw [if_pos (by omega), Option.isSome_map]
          exact ih.mpr ⟨pre, hpre', by omega⟩

/-- The name of a wireless network, if it is long, can be cut after fifteen bytes. -/
def Sliceable (network : NetworkSnapshot) : Prop :=
  network.kind ≠ .wireless ∨
    ∀ ssid ∈ network.ssid, ssid.utf8ByteSize ≤ 16 ∨ IsCharBoundary ssid 15

theorem isSome_networkLabel {network : NetworkSnapshot} :
    (networkLabel network).isSome = true ↔ Sliceable network := by
  have hcut : ∀ label : String, (if label.isEmpty then some none
      else if 16 < label.utf8ByteSize then
        (sliceTo label.toList 15).map fun cut => some (String.ofList cut ++ "…")
      else some (some label) : Option (Option String)).isSome = true ↔
      label.utf8ByteSize ≤ 16 ∨ IsCharBoundary label 15 := by
    intro label
    split
    next hempty =>
      have hsize : label.utf8ByteSize = 0 := by simpa using hempty
      exact iff_of_true rfl (.inl (by omega))
    next =>
      split
      next hlong =>
        rw [Option.isSome_map, isSome_sliceTo]
        exact ⟨.inr, fun h => h.resolve_left (by omega)⟩
      next hshort => exact iff_of_true rfl (.inl (by omega))
  rw [networkLabel, Sliceable]
  cases network.kind with
  | none => exact iff_of_true rfl (.inl (by decide))
  | wired => exact iff_of_true rfl (.inl (by decide))
  | other => exact iff_of_true rfl (.inl (by decide))
  | wireless =>
    dsimp only
    rw [hcut]
    cases network.ssid with
    | none =>
      exact iff_of_true (.inl (by decide)) (.inr fun ssid h => by cases h)
    | some ssid =>
      constructor
      · rintro h
        exact .inr fun ssid' h' => by cases h'; exact h
      · rintro (h | h)
        · exact absurd rfl h
        · exact h ssid rfl

/-! ## Rectangles -/

/-- **A rectangle is painted exactly**, by `wlcommon` and by the mirror in FRAME: what of it lies in
the buffer is blended, and no other byte changes. -/
theorem fillRect_exact {n stride : ℕ} {bufW bufH w h : UInt32} (hrow : 4 * bufW.toNat ≤ stride)
    (hrows : stride * bufH.toNat ≤ n) (hbufW : bufW.toNat ≤ 2147483647)
    (hbufH : bufH.toNat ≤ 2147483647) (hw : w.toNat ≤ 2147483647) (hh : h.toNat ≤ 2147483647)
    (c : Canvas n) (x y : Int32) (color : Color) :
    ∃ c', Wlcommon.fillRect c stride bufW bufH x y w h color = some c' ∧
      fillRect c stride bufW bufH x y w h color = some c' ∧
      (∀ px py, Within x w bufW px → Within y h bufH py →
        Blended color c c' (py * stride + px * 4)) ∧
      (∀ j, ∀ hj : j < n, (∀ px py, Within x w bufW px → Within y h bufH py →
        ¬ InPixel stride px py j) → c'.pixels[j] = c.pixels[j]) ∧
      (color.a = 255 → ∀ x0 x1 y0 y1, fillPixels c stride x0 x1 y0 y1 (fun _ => color.b)
        (fun _ => color.g) (fun _ => color.r) = fillPixels c stride x0 x1 y0 y1
        (fun old => blend color.a old color.b) (fun old => blend color.a old color.g)
        fun old => blend color.a old color.r) := by
  obtain ⟨c', hc', hdraws⟩ := Wlcommon.yields_draws_fillRect hrow hrows c x y w h color
  refine ⟨c', hc', hc', fun px py hpx hpy => ?_, fun j hj hout => ?_, fun ha x0 x1 y0 y1 => ?_⟩
  · refine Wlcommon.blended_of_compose (Wlcommon.index_lt hrow hrows hpx.2.2 hpy.2.2)
      fun j hj hpixel => ?_
    rw [hdraws j hj]
    exact Wlcommon.compose_rectInks_of_mem hrow (Wlcommon.toNat_min_toInt32_le _ _)
      ((Wlcommon.within_iff hw hbufW).mp hpx) ((Wlcommon.within_iff hh hbufH).mp hpy) hpixel _
  · rw [hdraws j hj]
    refine Wlcommon.compose_rectInks_of_not_mem (fun px py hpx hpy => ?_) _
    exact hout px py ((Wlcommon.within_iff hw hbufW).mpr hpx)
      ((Wlcommon.within_iff hh hbufH).mpr hpy)
  · simp only [ha, Wlcommon.blend_full]

/-- A rectangle that stands out above and to the right, on two rows of two pixels with padding. -/
theorem fillRect_exact_two :
    ∃ c', Wlcommon.fillRect (⟨Vector.replicate 24 7, []⟩ : Canvas 24) 12 2 2 1 (-1) 5 2
        ⟨10, 20, 30, 128⟩ = some c' ∧
      Blended ⟨10, 20, 30, 128⟩ ⟨Vector.replicate 24 7, []⟩ c' 4 ∧
      ∀ j, ∀ hj : j < 24, j < 4 ∨ 8 ≤ j → c'.pixels[j] = 7 := by
  obtain ⟨c', hc', -, hin, hout, -⟩ := fillRect_exact (n := 24) (w := 5) (h := 2)
    (by decide : 4 * (2 : UInt32).toNat ≤ 12) (by decide : 12 * (2 : UInt32).toNat ≤ 24)
    (by decide) (by decide) (by decide) (by decide) ⟨Vector.replicate 24 7, []⟩ 1 (-1)
    ⟨10, 20, 30, 128⟩
  refine ⟨c', hc', hin 1 0 ⟨by decide, by decide, by decide⟩ ⟨by decide, by decide, by decide⟩,
    fun j hj hne => ?_⟩
  rw [hout j hj fun px py hpx hpy hpix => ?_]
  · exact Vector.getElem_replicate hj
  · have hx : (1 : ℤ) ≤ px ∧ px < 2 := ⟨hpx.1, hpx.2.2⟩
    have hy : (py : ℤ) < -1 + 2 := hpy.2.1
    have hpixel : py * 12 + px * 4 ≤ j ∧ j < py * 12 + px * 4 + 4 := hpix
    omega

/-! ## Modules -/

section

variable {n : ℕ} {c : Canvas n} {stride : ℕ} {bufW bufH : UInt32}

theorem yields_fillCircle (h : c.Inside stride bufW bufH) (cx cy : Int32) (r : ℕ) (color : Color) :
    Yields (fun c' => c'.Inside stride bufW bufH)
      (fillCircle c stride bufW bufH cx cy r color) := by
  refine yields_foldlM (fun c hc dy _ => yields_foldlM (fun c hc dx _ => ?_) hc) h
  split
  · exact Wlcommon.yields_fillRect hc _ _ _ _ _
  · exact yields_some hc

theorem yields_ringCircle (h : c.Inside stride bufW bufH) (cx cy : Int32) (r : ℕ) (color : Color) :
    Yields (fun c' => c'.Inside stride bufW bufH)
      (ringCircle c stride bufW bufH cx cy r color) := by
  refine yields_foldlM (fun c hc dy _ => yields_foldlM (fun c hc dx _ => ?_) hc) h
  dsimp only
  split
  · exact Wlcommon.yields_fillRect hc _ _ _ _ _
  · exact yields_some hc

theorem yields_workspaces (h : c.Inside stride bufW bufH) (active : ℕ) (occupied : List ℕ) :
    Yields (fun c' => c'.Inside stride bufW bufH)
      (workspaces c stride bufW bufH active occupied) := by
  refine yields_foldlM (fun c hc i _ => ?_) h
  dsimp only
  split
  · exact yields_fillCircle hc _ _ _ _
  · split
    · exact yields_ringCircle hc _ _ _ _
    · exact yields_ringCircle hc _ _ _ _

theorem yields_paintBackground (h : c.Inside stride bufW bufH) (active : ℕ) (occupied : List ℕ) :
    Yields (fun c' => c'.Inside stride bufW bufH)
      (PanelOverlay.paintBackground c stride bufW bufH active occupied) := by
  refine (Wlcommon.yields_clear h surface1).bind fun c₁ h₁ => ?_
  refine (Wlcommon.yields_hline h₁ 0 0 _ divider).bind fun c₂ h₂ => ?_
  refine (Wlcommon.yields_fillRect h₂ 0 0 48 _ surface2).bind fun c₃ h₃ => ?_
  have hmark : Yields (fun c' => c'.Inside stride bufW bufH)
      ([((18 : Int32), (16 : Int32)), (26, 16), (18, 24), (26, 24)].foldlM
        (fun pixels d => fillRect pixels stride bufW bufH d.1 d.2 4 4 accent) c₃) :=
    yields_foldlM (fun c hc d _ => Wlcommon.yields_fillRect hc _ _ _ _ _) h₃
  exact hmark.bind fun c₄ h₄ => yields_workspaces h₄ active occupied

theorem yields_drawLabel (h : c.Inside stride bufW bufH) (text : TextRenderer)
    (penX baselineY : Int32) (label : String) (color : Color) :
    Yields (fun r => r.2.1.Inside stride bufW bufH)
      (drawLabel c stride bufW bufH text penX baselineY label color) := by
  rw [drawLabel]
  rcases text.measureText label 13 .regular with ⟨width, text'⟩
  exact (Theme.yields_drawText text' h _ _ label 13 color .regular).bind fun _ hr => yields_some hr

theorem yields_battery (h : c.Inside stride bufW bufH) (text : TextRenderer)
    (penX baselineY : Int32) (snap : ModuleSnapshot) :
    Yields (fun r => r.2.1.Inside stride bufW bufH)
      (battery c stride bufW bufH text penX baselineY snap) := by
  rw [battery]
  split
  · exact yields_some h
  · exact yields_drawLabel h _ _ _ _ _

theorem yields_volume (h : c.Inside stride bufW bufH) (text : TextRenderer)
    (penX baselineY : Int32) (snap : ModuleSnapshot) :
    Yields (fun r => r.2.1.Inside stride bufW bufH)
      (volume c stride bufW bufH text penX baselineY snap) := by
  rw [volume]
  split
  · exact yields_some h
  · exact yields_drawLabel h _ _ _ _ _

/-- The one module that may panic. -/
theorem yields_network (h : c.Inside stride bufW bufH) (text : TextRenderer)
    (penX baselineY : Int32) {snap : ModuleSnapshot} (hs : Sliceable snap.network) :
    Yields (fun r => r.2.1.Inside stride bufW bufH)
      (network c stride bufW bufH text penX baselineY snap) := by
  obtain ⟨label, hlabel⟩ := Option.isSome_iff_exists.mp (isSome_networkLabel.mpr hs)
  rw [network, hlabel]
  cases label with
  | none => exact yields_some h
  | some label => exact yields_drawLabel h _ _ _ _ _

theorem network_eq_none (text : TextRenderer) (penX baselineY : Int32) {snap : ModuleSnapshot}
    (hs : ¬ Sliceable snap.network) :
    network c stride bufW bufH text penX baselineY snap = none := by
  have hlabel : networkLabel snap.network = none := by
    rw [← Option.not_isSome_iff_eq_none, isSome_networkLabel]
    exact hs
  rw [network, hlabel]
  rfl

theorem yields_paintModules (h : c.Inside stride bufW bufH) {snap : ModuleSnapshot}
    (hs : Sliceable snap.network) (now : String) (text : TextRenderer) :
    Yields (fun r => r.1.Inside stride bufW bufH)
      (PanelOverlay.paintModules c stride bufW bufH snap now text) := by
  refine (yields_drawLabel h text _ _ now textSecondary).bind fun r₁ h₁ => ?_
  refine (yields_battery h₁ r₁.1 _ _ snap).bind fun r₂ h₂ => ?_
  refine (yields_network h₂ r₂.1 _ _ hs).bind fun r₃ h₃ => ?_
  exact (yields_volume h₃ r₃.1 _ _ snap).bind fun r₄ h₄ => yields_some h₄

theorem paintModules_eq_none (h : c.Inside stride bufW bufH) {snap : ModuleSnapshot}
    (hs : ¬ Sliceable snap.network) (now : String) (text : TextRenderer) :
    PanelOverlay.paintModules c stride bufW bufH snap now text = none := by
  obtain ⟨r₁, hclock, h₁⟩ := yields_drawLabel h text (bufW.toInt32 - 16) (bufH.toInt32 / 2 + 5) now
    textSecondary
  obtain ⟨r₂, hbattery, -⟩ := yields_battery h₁ r₁.1 (r₁.2.2 - 16) (bufH.toInt32 / 2 + 5) snap
  rw [PanelOverlay.paintModules]
  dsimp only
  rw [clock, hclock]
  dsimp only [Option.bind_eq_bind, Option.bind_some]
  rw [hbattery]
  dsimp only [Option.bind_some]
  rw [network_eq_none r₂.1 _ _ hs]
  rfl

end

/-! ## The overlay -/

namespace PanelOverlay

variable (me : PanelOverlay) (activeIndex : ℕ) (occupied : List ℕ) (now : String)

/-- Nothing panics, and all pixels that are painted are inside of the bitmap. -/
structure PaintsSafely : Prop where
  isSome : (me.render activeIndex occupied now).isSome = true
  inside : ∀ r ∈ me.paint activeIndex occupied now, ∀ p ∈ r.1.painted,
    p.1 < me.bitmap.width.toNat ∧ p.2 < me.bitmap.height.toNat

variable {me activeIndex occupied now}

/-- Before anything is painted. -/
theorem inside_pixels : Canvas.Inside ⟨me.bitmap.pixels, []⟩ me.bitmap.stride me.bitmap.width
    me.bitmap.height := by
  refine ⟨?_, ?_, fun p hp => absurd hp List.not_mem_nil⟩
  · rw [PanelBitmap.stride, Nat.mul_comm]
  · rw [PanelBitmap.stride]
    exact le_of_eq (by ring)

theorem yields_paint (h : me.text = none ∨ Sliceable me.modules.network) :
    Yields (fun r => r.1.Inside me.bitmap.stride me.bitmap.width me.bitmap.height)
      (me.paint activeIndex occupied now) := by
  refine (yields_paintBackground inside_pixels activeIndex occupied).bind fun c hc => ?_
  cases htext : me.text with
  | none => exact yields_some hc
  | some text =>
    have hs : Sliceable me.modules.network := by
      rcases h with h | h
      · rw [htext] at h
        cases h
      · exact h
    exact (yields_paintModules hc hs now text).bind fun r hr => yields_some hr

theorem paint_eq_none {text : TextRenderer} (htext : me.text = some text)
    (hs : ¬ Sliceable me.modules.network) : me.paint activeIndex occupied now = none := by
  obtain ⟨c, hbackground, hc⟩ := yields_paintBackground (me.inside_pixels) activeIndex occupied
  rw [paint]
  dsimp only
  rw [hbackground]
  dsimp only [Option.bind_eq_bind, Option.bind_some]
  rw [htext]
  dsimp only
  rw [paintModules_eq_none hc hs]
  rfl

/-- What decides whether `render` returns: the name of the network, if there are fonts. -/
theorem isSome_render : (me.render activeIndex occupied now).isSome = true ↔
    me.text = none ∨ Sliceable me.modules.network := by
  have hrender : (me.render activeIndex occupied now).isSome =
      (me.paint activeIndex occupied now).isSome := by
    rw [render]
    cases me.paint activeIndex occupied now <;> rfl
  rw [hrender]
  constructor
  · intro h
    by_contra hnot
    obtain ⟨htext, hs⟩ := not_or.mp hnot
    obtain ⟨text, htext'⟩ := Option.ne_none_iff_exists'.mp htext
    rw [paint_eq_none htext' hs] at h
    cases h
  · intro h
    have hpaint : Yields _ (me.paint activeIndex occupied now) := yields_paint h
    obtain ⟨r, hr, -⟩ := hpaint
    rw [hr]
    rfl

end PanelOverlay

/-- **When the panel can be painted.** For every width of the output, whatever workspaces there are
and whatever the modules show, unless there are no fonts: if a wireless network with a name of more
than sixteen bytes has a character that ends at byte 15. -/
theorem paintsSafely_iff (me : PanelOverlay) (outputWidth : UInt32) (activeIndex : ℕ)
    (occupied : List ℕ) (now : String) :
    (me.resize outputWidth).PaintsSafely activeIndex occupied now ↔
      me.text = none ∨ Sliceable me.modules.network := by
  constructor
  · intro h
    have hsome := PanelOverlay.isSome_render.mp h.isSome
    exact hsome
  · intro h
    have hpaint : Yields _ ((me.resize outputWidth).paint activeIndex occupied now) :=
      PanelOverlay.yields_paint h
    refine ⟨PanelOverlay.isSome_render.mpr h, fun r hr p hp => ?_⟩
    exact (hpaint.of_eq_some hr).painted p hp

/-- A font without a glyph for anything. -/
def blankFont : Theme.Font := fun _ _ => ⟨⟨0, 0, 0, 0, 0⟩, [], rfl⟩

/-- NetworkManager has a wireless connection whose name is nine accented letters. -/
def accented : NetworkManager where
  state := some 70
  primaryConnection := some "/org/freedesktop/NetworkManager/ActiveConnection/1"
  active := some ⟨some "802-11-wireless", some "ééééééééé"⟩

/-- A panel with fonts that shows this network. -/
def accentedPanel : PanelOverlay where
  bitmap := .new 1920 panelHeight
  modules := { network := updateOnce accented }
  text := some ⟨⟨blankFont, blankFont, blankFont⟩, ∅⟩

/-- No character ends at byte 15, and the frame is never painted. -/
theorem not_paintsSafely :
    accentedPanel.modules.network.ssid = some "ééééééééé" ∧
      (accentedPanel.resize 1920).render 0 [] "12:00" = none ∧
      ¬ (accentedPanel.resize 1920).PaintsSafely 0 [] "12:00" := by
  have hs : ¬ Sliceable accentedPanel.modules.network := by
    rw [← isSome_networkLabel]
    decide
  have hrender : ¬ ((accentedPanel.resize 1920).render 0 [] "12:00").isSome = true := by
    rw [PanelOverlay.isSome_render]
    rintro (h | h)
    · cases h
    · exact hs h
  refine ⟨by decide, Option.not_isSome_iff_eq_none.mp hrender, fun h => hrender h.isSome⟩

end Panel

end Nullxes
