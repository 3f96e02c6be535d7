import Nullxes.Frame.Render
import Nullxes.Library.EventMachine
import Nullxes.Panel.Painting

/-!
# Uploading the panel

`update_panel_bitmap` of `frame/src/render.rs`, with the thread-locals that it keeps. The buffer for
the GPU is made anew when the generation of the bitmap is not the one that it was made from. It then
shows the bitmap; but `render` advances the generation each time, and so each frame makes a buffer.

## Main definitions

* `PanelState` — the panel, and what was made of it
* `panel` — the frames, and what the listeners write between them
* `PanelState.Coherent`, `PanelState.Incremental` — the buffer shows the bitmap; a frame that shows
  the same again makes no buffer
* `Shows` — the panel as the compositor's model has it

## Main results

* `uploads_run` — there are as many buffers as frames
* `Shows.updatePanelBitmap` — a frame is that of the compositor's model
* `coherent_not_incremental` — what a frame, and the same frame again, do
-/

namespace Nullxes

namespace Panel

/-! ## The code -/

/-- `MemoryRenderBuffer::from_memory`: a copy of the pixels, and their size. -/
structure MemoryRenderBuffer where
  pixels : List UInt8
  width : Int32
  height : Int32
  deriving DecidableEq, Repr

/-- What a frame is painted from, besides the panel. Sizes are never negative. -/
structure FrameInput where
  /-- The width of the current mode of the primary output, if there is one. -/
  modeWidth : Option Int32
  nonneg : ∀ w ∈ modeWidth, 0 ≤ w
  activeIndex : ℕ
  occupied : List ℕ
  /-- The text of the clock. -/
  now : String

/-- `primary_w`. -/
def FrameInput.primaryW (f : FrameInput) : UInt32 := (f.modeWidth.map Int32.toUInt32).getD 1920

/-- The panel, and what the thread that renders keeps of it. -/
structure PanelState where
  overlay : PanelOverlay
  /-- `PANEL_MEMORY`. -/
  memory : Option MemoryRenderBuffer
  /-- `PANEL_GEN`. -/
  gen : UInt64
  /-- How many memory buffers were made so far. -/
  uploads : ℕ

/-- What is made of a bitmap. -/
def PanelBitmap.memory (bitmap : PanelBitmap) : MemoryRenderBuffer :=
  ⟨bitmap.pixels.toList, bitmap.width.toInt32, bitmap.height.toInt32⟩

namespace PanelState

/-- The state before the first frame, with the fonts that were found. -/
def new (text : Option Theme.TextRenderer) : PanelState := ⟨.new text, none, 0, 0⟩

/-- `update_panel_bitmap`. -/
def updatePanelBitmap (s : PanelState) (f : FrameInput) : Option PanelState := do
  let overlay ← (s.overlay.resize f.primaryW).render f.activeIndex f.occupied f.now
  if s.gen ≠ overlay.bitmap.generation then
    some ⟨overlay, some overlay.bitmap.memory, overlay.bitmap.generation, s.uploads + 1⟩
  else some { s with overlay := overlay }

end PanelState

/-! ## Frames and listeners -/

/-- What happens to the panel. -/
inductive PanelEvent
  /-- A frame is rendered. -/
  | frame (f : FrameInput)
  /-- A listener writes what the modules show. -/
  | modules (snap : ModuleSnapshot)

/-- A frame that panics is the end. -/
def panel : EventMachine PanelState PanelEvent where
  Init s := ∃ text, s = .new text
  Enabled s
    | .frame f => (s.updatePanelBitmap f).isSome = true
    | .modules _ => True
  step s
    | .frame f => (s.updatePanelBitmap f).getD s
    | .modules snap => { s with overlay := { s.overlay with modules := snap } }

namespace PanelState

variable {s t : PanelState} {f : FrameInput}

/-- There is a buffer, with the pixels and the size of the bitmap. -/
def Coherent (t : PanelState) : Prop :=
  ∃ m, t.memory = some m ∧ m.pixels = t.overlay.bitmap.pixels.toList ∧
    m.width.toInt = t.overlay.bitmap.width.toNat ∧ m.height.toInt = t.overlay.bitmap.height.toNat

/-- After a frame the buffer shows the bitmap, and the same frame again neither advances the
generation nor makes a buffer. -/
def Incremental (s : PanelState) (f : FrameInput) : Prop :=
  ∃ t, s.updatePanelBitmap f = some t ∧ t.Coherent ∧
    ∃ u, t.updatePanelBitmap f = some u ∧
      u.overlay.bitmap.generation = t.overlay.bitmap.generation ∧ u.uploads = t.uploads

end PanelState

/-! ## What a frame does -/

namespace PanelBitmap

theorem size_resize (b : PanelBitmap) (width height : UInt32) :
    (b.resize width height).width = width ∧ (b.resize width height).height = height := by
  rw [resize]
  split
  next hsame => exact hsame
  next => exact ⟨rfl, rfl⟩

/-- Whether the bitmap is resized or not, its generation is then a new one. -/
theorem generation_resize_add_one_ne (b : PanelBitmap) (width height : UInt32) :
    b.generation ≠ (b.resize width height).generation + 1 := by
  rw [resize]
  split
  · simp
  · -- once for the new size, once for what is painted
    have htwo : b.generation ≠ b.generation + 1 + 1 := by grind
    exact htwo

end PanelBitmap

namespace PanelOverlay

variable {me t : PanelOverlay} {activeIndex : ℕ} {occupied : List ℕ} {now : String}

/-- What `render` leaves alone, and that it advances the generation. -/
structure Rendered (me t : PanelOverlay) : Prop where
  width : t.bitmap.width = me.bitmap.width
  height : t.bitmap.height = me.bitmap.height
  generation : t.bitmap.generation = me.bitmap.generation + 1
  modules : t.modules = me.modules
  text : t.text = none ↔ me.text = none

theorem rendered_of_render (h : me.render activeIndex occupied now = some t) : Rendered me t := by
  rw [render] at h
  obtain ⟨r, hpaint, hr⟩ := Option.bind_eq_some_iff.mp h
  obtain rfl := Option.some.inj hr
  refine ⟨rfl, rfl, rfl, rfl, ?_⟩
  rw [paint] at hpaint
  obtain ⟨c, -, hc⟩ := Option.bind_eq_some_iff.mp hpaint
  cases htext : me.text with
  | none =>
    rw [htext] at hc
    obtain rfl := Option.some.inj hc
    exact iff_of_true rfl rfl
  | some text =>
    rw [htext] at hc
    obtain ⟨q, -, hq⟩ := Option.bind_eq_some_iff.mp hc
    obtain rfl := Option.some.inj hq
    exact iff_of_false (Option.some_ne_none _) (Option.some_ne_none _)

end PanelOverlay

namespace PanelState

variable {s t : PanelState} {f : FrameInput}

/-- The generation of the buffer is that of the bitmap. -/
def Current (s : PanelState) : Prop := s.gen = s.overlay.bitmap.generation

/-- What a frame makes of a panel whose buffer is current. -/
structure Framed (s : PanelState) (f : FrameInput) (t : PanelState) : Prop where
  width : t.overlay.bitmap.width = f.primaryW
  height : t.overlay.bitmap.height = panelHeight
  memory : t.memory = some t.overlay.bitmap.memory
  gen : t.gen = t.overlay.bitmap.generation
  uploads : t.uploads = s.uploads + 1
  modules : t.overlay.modules = s.overlay.modules
  text : t.overlay.text = none ↔ s.overlay.text = none
  /-- If the size is what it was, the generation advances by one. -/
  generation : s.overlay.bitmap.width = f.primaryW → s.overlay.bitmap.height = panelHeight →
    t.overlay.bitmap.generation = s.overlay.bitmap.generation + 1

theorem framed_of_updatePanelBitmap (hs : s.Current) (h : s.updatePanelBitmap f = some t) :
    s.Framed f t := by
  rw [updatePanelBitmap] at h
  obtain ⟨overlay, hrender, ht⟩ := Option.bind_eq_some_iff.mp h
  have hr := PanelOverlay.rendered_of_render hrender
  have hnew : s.gen ≠ overlay.bitmap.generation := by
    rw [hs, hr.generation]
    exact PanelBitmap.generation_resize_add_one_ne _ _ _
  rw [if_pos hnew] at ht
  obtain rfl := Option.some.inj ht
  obtain ⟨hwidth, hheight⟩ := s.overlay.bitmap.size_resize f.primaryW panelHeight
  refine ⟨hr.width.trans hwidth, hr.height.trans hheight, rfl, rfl, rfl, hr.modules, hr.text, ?_⟩
  intro hwidth' hheight'
  have hsame : s.overlay.bitmap.resize f.primaryW panelHeight = s.overlay.bitmap :=
    if_pos ⟨hwidth', hheight'⟩
  have hgen := hr.generation
  rw [PanelOverlay.resize] at hgen
  dsimp only at hgen
  rw [hsame] at hgen
  exact hgen

/-- Whether a frame panics does not depend on its size. -/
theorem isSome_updatePanelBitmap : (s.updatePanelBitmap f).isSome = true ↔
    s.overlay.text = none ∨ Sliceable s.overlay.modules.network := by
  have hrender : (s.updatePanelBitmap f).isSome =
      ((s.overlay.resize f.primaryW).render f.activeIndex f.occupied f.now).isSome := by
    rw [updatePanelBitmap]
    cases (s.overlay.resize f.primaryW).render f.activeIndex f.occupied f.now with
    | none => rfl
    | some overlay =>
      dsimp only [Option.bind_eq_bind, Option.bind_some]
      split <;> rfl
  rw [hrender]
  exact PanelOverlay.isSome_render

theorem step_frame (h : s.updatePanelBitmap f = some t) : panel.step s (.frame f) = t := by
  change (s.updatePanelBitmap f).getD s = t
  rw [h, Option.getD_some]

theorem current_step {e : PanelEvent} (hs : s.Current) (he : panel.Enabled s e) :
    (panel.step s e).Current := by
  cases e with
  | frame f =>
    obtain ⟨t, ht⟩ := Option.isSome_iff_exists.mp he
    rw [step_frame ht]
    exact (framed_of_updatePanelBitmap hs ht).gen
  | modules snap => exact hs

theorem current_of_reachable (hs : panel.Reachable s) : s.Current := by
  refine hs.invariant ?_ fun s e hs he => current_step hs he
  rintro s ⟨text, rfl⟩
  rfl

theorem toNat_primaryW (f : FrameInput) : f.primaryW.toNat =
    ((f.modeWidth.map Int32.toInt).map Int.toNat).getD 1920 := by
  rw [FrameInput.primaryW]
  cases hw : f.modeWidth with
  | none => rfl
  | some w =>
    have hpos : 0 ≤ w := f.nonneg w (by rw [hw, Option.mem_some_iff])
    exact Int32.toNat_toUInt32_of_le hpos

/-- The width is that of a mode, so that it is one for the buffer, too. -/
theorem toInt_toInt32_primaryW (f : FrameInput) :
    f.primaryW.toInt32.toInt = f.primaryW.toNat := by
  rw [toNat_primaryW, FrameInput.primaryW]
  cases hw : f.modeWidth with
  | none => rfl
  | some w =>
    have hpos : 0 ≤ w := f.nonneg w (by rw [hw, Option.mem_some_iff])
    have hint : 0 ≤ w.toInt := Int32.le_iff_toInt_le.mp hpos
    have htoInt : w.toUInt32.toInt32 = w := rfl
    rw [Option.map_some, Option.getD_some, htoInt]
    exact (Int.toNat_of_nonneg hint).symm

theorem Framed.coherent (h : s.Framed f t) : t.Coherent := by
  refine ⟨t.overlay.bitmap.memory, h.memory, rfl, ?_, ?_⟩
  · change t.overlay.bitmap.width.toInt32.toInt = t.overlay.bitmap.width.toNat
    rw [h.width]
    exact toInt_toInt32_primaryW f
  · change t.overlay.bitmap.height.toInt32.toInt = t.overlay.bitmap.height.toNat
    rw [h.height]
    rfl

/-- The same frame again. -/
theorem Framed.exists_again (h : s.Framed f t) (hs : (s.updatePanelBitmap f).isSome = true) :
    ∃ u, t.updatePanelBitmap f = some u ∧
      u.overlay.bitmap.generation = t.overlay.bitmap.generation + 1 ∧
      u.uploads = t.uploads + 1 := by
  have hagain : (t.updatePanelBitmap f).isSome = true := by
    rw [isSome_updatePanelBitmap] at hs ⊢
    rw [h.text, h.modules]
    exact hs
  obtain ⟨u, hu⟩ := Option.isSome_iff_exists.mp hagain
  have hframed := framed_of_updatePanelBitmap h.gen hu
  exact ⟨u, hu, hframed.generation h.width h.height, hframed.uploads⟩

end PanelState

/-! ## Runs -/

/-- The event is a frame. -/
def PanelEvent.isFrame : PanelEvent → Bool
  | .frame _ => true
  | .modules _ => false

/-- **There are as many buffers as frames**, whatever the frames show. -/
theorem uploads_run {s : PanelState} {es : List PanelEvent} (hs : s.Current)
    (hl : panel.Legal s es) :
    (panel.run s es).uploads = s.uploads + es.countP PanelEvent.isFrame := by
  induction es generalizing s with
  | nil => rfl
  | cons e es ih =>
    have hnext := ih (PanelState.current_step hs hl.1) hl.2
    rw [EventMachine.run_cons, hnext]
    cases e with
    | frame f =>
      obtain ⟨t, ht⟩ := Option.isSome_iff_exists.mp hl.1
      have huploads := (PanelState.framed_of_updatePanelBitmap hs ht).uploads
      rw [PanelState.step_frame ht, huploads, List.countP_cons_of_pos rfl]
      omega
    | modules snap =>
      rw [List.countP_cons_of_neg Bool.false_ne_true]
      rfl

/-! ## The compositor's model -/

/-- A pixel of an image: its bytes are blue, green, red and alpha. -/
def imagePixel (pixels : List UInt8) (width x y : ℕ) : Frame.Rgba :=
  let channel (i : ℕ) : ℚ := (pixels.getD ((y * width + x) * 4 + i) 0).toNat / 255
  ⟨channel 2, channel 1, channel 0, channel 3⟩

def PanelBitmap.image (b : PanelBitmap) : Frame.Buffer :=
  ⟨b.width.toNat, b.height.toNat, imagePixel b.pixels.toList b.width.toNat⟩

def MemoryRenderBuffer.image (m : MemoryRenderBuffer) : Frame.Buffer :=
  ⟨m.width.toInt.toNat, m.height.toInt.toNat, imagePixel m.pixels m.width.toInt.toNat⟩

/-- The compositor has this panel, and has uploaded this buffer. -/
structure Shows (s : PanelState) (c : Frame.NullxesState) : Prop where
  panel : c.panel = ⟨s.overlay.bitmap.image, s.overlay.bitmap.generation⟩
  memory : c.panelMemory = s.memory.map MemoryRenderBuffer.image
  gen : c.panelGen = s.gen

/-- The compositor before the first frame. -/
theorem shows_new (text : Option Theme.TextRenderer) (config : Frame.FrameConfig)
    (modes : List (Frame.Point ℤ)) (keyboard : Bool) :
    Shows (.new text) (.new config modes keyboard) := by
  have hblank : imagePixel (PanelBitmap.new 1920 panelHeight).pixels.toList 1920 =
      fun _ _ => ⟨0, 0, 0, 0⟩ := by
    funext x y
    have hbyte : ∀ i, ((PanelBitmap.new 1920 panelHeight).pixels.toList.getD i 0) = 0 := by
      intro i
      rw [PanelBitmap.new, Vector.toList_replicate, List.getD_eq_getElem?_getD,
        List.getElem?_replicate]
      split <;> rfl
    simp only [imagePixel, hbyte]
    simp
  refine ⟨?_, rfl, rfl⟩
  change Frame.PanelBitmap.mk ⟨1920, 48, _⟩ 0 = ⟨⟨1920, 48, _⟩, 0⟩
  rw [← hblank]
  rfl

/-- Both bitmaps are resized, or neither is. -/
theorem resize_image (b : PanelBitmap) (width height : UInt32) :
    let r := (Frame.PanelBitmap.mk b.image b.generation).resize width.toNat height.toNat
    r.buffer.width = (b.resize width height).width.toNat ∧
      r.buffer.height = (b.resize width height).height.toNat ∧
      r.generation = (b.resize width height).generation := by
  have hsame : (b.width.toNat = width.toNat ∧ b.height.toNat = height.toNat) ↔
      (b.width = width ∧ b.height = height) := by
    rw [UInt32.toNat_inj, UInt32.toNat_inj]
  rw [Frame.PanelBitmap.resize, PanelBitmap.resize]
  dsimp only [PanelBitmap.image]
  simp only [hsame]
  split
  · exact ⟨rfl, rfl, rfl⟩
  · exact ⟨rfl, rfl, rfl⟩

theorem render_image {p : Frame.PanelBitmap} {b : PanelBitmap}
    (hwidth : p.buffer.width = b.width.toNat) (hheight : p.buffer.height = b.height.toNat)
    (hgeneration : p.generation + 1 = b.generation) :
    p.render b.image.pixel = ⟨b.image, b.generation⟩ := by
  rw [Frame.PanelBitmap.render, ← hgeneration]
  change Frame.PanelBitmap.mk ⟨p.buffer.width, p.buffer.height, _⟩ _ = _
  rw [hwidth, hheight]
  rfl

theorem image_memory {b : PanelBitmap} (hwidth : b.width.toInt32.toInt = b.width.toNat)
    (hheight : b.height.toInt32.toInt = b.height.toNat) : b.memory.image = b.image := by
  rw [MemoryRenderBuffer.image, PanelBitmap.memory]
  dsimp only
  rw [hwidth, hheight, Int.toNat_natCast, Int.toNat_natCast]
  rfl

namespace PanelOverlay.Rendered

variable {me t : PanelOverlay} {width : UInt32}

/-- What is painted after a resize, in the compositor's model. -/
theorem resize_render (h : (me.resize width).Rendered t) :
    ((Frame.PanelBitmap.mk me.bitmap.image me.bitmap.generation).resize width.toNat
      Frame.panelHeight).render t.bitmap.image.pixel =
      ⟨t.bitmap.image, t.bitmap.generation⟩ := by
  obtain ⟨hwidth, hheight, hgeneration⟩ := resize_image me.bitmap width panelHeight
  refine render_image ?_ ?_ ?_
  · rw [h.width]
    exact hwidth
  · rw [h.height]
    exact hheight
  · rw [h.generation]
    exact congrArg (· + 1) hgeneration

/-- The buffer has the size of the bitmap if `as i32` keeps the width. -/
theorem image_memory (h : (me.resize width).Rendered t)
    (hwidth : width.toInt32.toInt = width.toNat) : t.bitmap.memory.image = t.bitmap.image := by
  obtain ⟨hwidth', hheight⟩ := me.bitmap.size_resize width panelHeight
  refine Panel.image_memory ?_ ?_
  · rw [h.width.trans hwidth']
    exact hwidth
  · rw [h.height.trans hheight]
    rfl

end PanelOverlay.Rendered

/-- **A frame is that of the compositor's model**, for what the modules paint. -/
theorem Shows.updatePanelBitmap {s t : PanelState} {c : Frame.NullxesState} {f : FrameInput}
    (h : Shows s c)
    (hmode : f.modeWidth.map Int32.toInt = (c.primary.bind Frame.Output.currentMode).map Prod.fst)
    (ht : s.updatePanelBitmap f = some t) :
    Shows t (c.updatePanelBitmap t.overlay.bitmap.image.pixel) := by
  have hprimary : ((c.primary.bind Frame.Output.currentMode).map fun m => m.1.toNat).getD 1920 =
      f.primaryW.toNat := by
    rw [PanelState.toNat_primaryW, hmode, Option.map_map]
    rfl
  rw [PanelState.updatePanelBitmap] at ht
  obtain ⟨overlay, hrender, ht'⟩ := Option.bind_eq_some_iff.mp ht
  have hr := PanelOverlay.rendered_of_render hrender
  rw [Frame.NullxesState.updatePanelBitmap, hprimary]
  split at ht'
  next hnew =>
    obtain rfl := Option.some.inj ht'
    dsimp only
    rw [h.panel, hr.resize_render, h.gen, if_pos hnew]
    refine ⟨rfl, ?_, rfl⟩
    rw [Option.map_some, hr.image_memory (PanelState.toInt_toInt32_primaryW f)]
  next hsame =>
    obtain rfl := Option.some.inj ht'
    dsimp only
    rw [h.panel, hr.resize_render, h.gen, if_neg hsame]
    exact ⟨rfl, h.memory, rfl⟩

/-! ## The same frame again -/

namespace PanelState

variable {s t : PanelState} {f : FrameInput}

theorem Current.framed_twice (hs : s.Current) (ht : s.updatePanelBitmap f = some t) :
    t.Coherent ∧ ∃ u, t.updatePanelBitmap f = some u ∧
      u.overlay.bitmap.generation = t.overlay.bitmap.generation + 1 ∧
      u.uploads = t.uploads + 1 := by
  have hframed := framed_of_updatePanelBitmap hs ht
  exact ⟨hframed.coherent, hframed.exists_again (Option.isSome_iff_exists.mpr ⟨t, ht⟩)⟩

theorem Current.not_incremental (hs : s.Current) : ¬ s.Incremental f := by
  rintro ⟨t, ht, -, u, hu, -, huploads⟩
  obtain ⟨-, u', hu', -, huploads'⟩ := hs.framed_twice ht
  obtain rfl := Option.some.inj (hu.symm.trans hu')
  omega

end PanelState

/-- **What a frame, and the same frame again, do.** Whatever happened before, the buffer then shows
the bitmap; but the same frame again advances the generation, and makes one more buffer. -/
theorem coherent_not_incremental {s : PanelState} (hs : panel.Reachable s) (f : FrameInput) :
    (∀ t, s.updatePanelBitmap f = some t → t.Coherent ∧
      ∃ u, t.updatePanelBitmap f = some u ∧
        u.overlay.bitmap.generation = t.overlay.bitmap.generation + 1 ∧
        u.uploads = t.uploads + 1) ∧
      ¬ s.Incremental f := by
  have hcurrent := PanelState.current_of_reachable hs
  exact ⟨fun t ht => hcurrent.framed_twice ht, hcurrent.not_incremental⟩

/-- The first workspace on an output that is 1920 pixels wide, at noon. -/
def noon : FrameInput where
  modeWidth := some 1920
  nonneg w h := by
    obtain rfl := Option.some.inj h
    decide
  activeIndex := 0
  occupied := []
  now := "12:00"

theorem coherent_not_incremental_noon :
    (∀ t, (PanelState.new none).updatePanelBitmap noon = some t → t.Coherent ∧
      ∃ u, t.updatePanelBitmap noon = some u ∧
        u.overlay.bitmap.generation = t.overlay.bitmap.generation + 1 ∧
        u.uploads = t.uploads + 1) ∧
      ¬ (PanelState.new none).Incremental noon :=
  coherent_not_incremental (.init ⟨none, rfl⟩) noon

/-- Two frames at the start, without fonts. -/
theorem not_incremental_noon :
    panel.Reachable (.new none) ∧ ¬ (PanelState.new none).Incremental noon ∧
      ∃ t u, (PanelState.new none).updatePanelBitmap noon = some t ∧
        t.updatePanelBitmap noon = some u ∧ t.uploads = 1 ∧ u.uploads = 2 := by
  have hcurrent : (PanelState.new none).Current := rfl
  have hsome : ((PanelState.new none).updatePanelBitmap noon).isSome = true :=
    PanelState.isSome_updatePanelBitmap.mpr (.inl rfl)
  obtain ⟨t, ht⟩ := Option.isSome_iff_exists.mp hsome
  have huploads : t.uploads = 1 := (PanelState.framed_of_updatePanelBitmap hcurrent ht).uploads
  obtain ⟨-, u, hu, -, huploads'⟩ := hcurrent.framed_twice ht
  refine ⟨.init ⟨none, rfl⟩, hcurrent.not_incremental, t, u, ht, hu, huploads, ?_⟩
  rw [huploads', huploads]

end Panel

end Nullxes
