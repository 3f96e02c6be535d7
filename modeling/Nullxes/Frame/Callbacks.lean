import Nullxes.Frame.LockedFrame
import Nullxes.Frame.Stacking

/-!
# Frame callbacks

A client draws its next frame when it is told that the last one was shown. After a frame
`send_frames_after_render` goes through the windows of the active workspace; `collect_elements` goes
through the layers of the output, those windows and the lock surfaces. Whoever is in the second list
and not in the first is drawn once.

A surface stands for its tree here: smithay draws the surfaces of a tree together and calls them
back together. A window that is off the output is not drawn, and a layer that comes with the space
once more is still one surface.

## Main definitions

* `NullxesState.sendFramesAfterRender` — the surfaces that are called back
* `NullxesState.placements`, `NullxesState.drawnSurfaces` — the surfaces that are drawn, and where
* `NullxesState.OnlyWindows` — nothing but windows is drawn, and every window is

## Main results

* `NullxesState.mem_collectElements_iff` — the collected elements are those of the placements
* `callbacks_iff` — when the surfaces called back are those drawn
-/

namespace Nullxes

namespace Frame

namespace NullxesState

variable (s : NullxesState) (o : Output)

/-- `send_frames_after_render`: the surfaces that are sent a frame callback. One that is gone is
sent nothing. -/
def sendFramesAfterRender : List WlSurface :=
  match s.primary with
  | none => []
  | some _ => (s.activeSpace.entries.filterMap fun e => e.1.wlSurface).filter
      (· ∈ s.compositorState.alive)

/-! ## What is drawn -/

/-- The surfaces of a layer, where they are put. -/
def layerPlacements (l : Layer) : List (WlSurface × Point ℤ) :=
  (o.layersOn l).map fun layer => (layer.wlSurface, (s.surfaceData layer.wlSurface).layerLoc)

/-- The surfaces of mapped windows. -/
def windowPlacements (es : List (Window × Point ℤ)) : List (WlSurface × Point ℤ) :=
  es.filterMap fun e => e.1.wlSurface.map fun surface => (surface, e.2)

/-- The lock surfaces. -/
def lockPlacements : List (WlSurface × Point ℤ) :=
  match s.lock with
  | none => []
  | some lock => lock.surfaces.map fun surf => (surf.wlSurface, (0, 0))

/-- The surfaces that `collect_elements` goes through for an output, in its order. -/
def placements : List (WlSurface × Point ℤ) :=
  s.layerPlacements o .background ++ s.layerPlacements o .bottom ++
    windowPlacements (s.activeSpace.entries.reverse.filter (s.onOutput o)) ++
    s.layerPlacements o .top ++ s.layerPlacements o .overlay ++ s.lockPlacements

/-- The elements of a surface at a place. -/
def elementsAt (p : WlSurface × Point ℤ) : List RenderElement :=
  (s.surfaceData p.1).renderElements p.2

/-- The surfaces whose elements are put on an output. -/
def drawnSurfaces : List WlSurface :=
  ((s.placements o).filter fun p => !(s.elementsAt p).isEmpty).map Prod.fst

variable {s o}

theorem mem_layerPlacements {l : Layer} {p : WlSurface × Point ℤ} :
    p ∈ s.layerPlacements o l ↔ ∃ layer ∈ o.layerMap, layer.layer = l ∧
      (layer.wlSurface, (s.surfaceData layer.wlSurface).layerLoc) = p := by
  simp [layerPlacements, Output.layersOn, and_assoc]

theorem mem_windowPlacements {es : List (Window × Point ℤ)} {p : WlSurface × Point ℤ} :
    p ∈ windowPlacements es ↔ ∃ e ∈ es, (e.1.toplevelSurface.wlSurface, e.2) = p := by
  simp [windowPlacements]

theorem mem_lockPlacements {p : WlSurface × Point ℤ} :
    p ∈ s.lockPlacements ↔
      ∃ lock, s.lock = some lock ∧ ∃ surf ∈ lock.surfaces, (surf.wlSurface, (0, 0)) = p := by
  rw [lockPlacements]
  cases s.lock <;> simp

/-- The layers of the output, the windows on it, and the lock surfaces. -/
theorem mem_placements {p : WlSurface × Point ℤ} :
    p ∈ s.placements o ↔
      (∃ layer ∈ o.layerMap,
          (layer.wlSurface, (s.surfaceData layer.wlSurface).layerLoc) = p) ∨
        (∃ e ∈ s.activeSpace.entries, s.onOutput o e ∧
          (e.1.toplevelSurface.wlSurface, e.2) = p) ∨
        p ∈ s.lockPlacements := by
  have hlayer : (∃ layer ∈ o.layerMap,
      (layer.wlSurface, (s.surfaceData layer.wlSurface).layerLoc) = p) ↔
      ∃ l, p ∈ s.layerPlacements o l := by
    simp only [mem_layerPlacements]
    constructor
    · rintro ⟨layer, hmem, hp⟩
      exact ⟨layer.layer, layer, hmem, rfl, hp⟩
    · rintro ⟨l, layer, hmem, -, hp⟩
      exact ⟨layer, hmem, hp⟩
  have hwindow : (∃ e ∈ s.activeSpace.entries, s.onOutput o e ∧
      (e.1.toplevelSurface.wlSurface, e.2) = p) ↔
      p ∈ windowPlacements (s.activeSpace.entries.reverse.filter (s.onOutput o)) := by
    simp [mem_windowPlacements, and_assoc]
  rw [hlayer, hwindow]
  simp only [placements, List.mem_append]
  constructor
  · rintro (((((h | h) | h) | h) | h) | h)
    · exact .inl ⟨_, h⟩
    · exact .inl ⟨_, h⟩
    · exact .inr (.inl h)
    · exact .inl ⟨_, h⟩
    · exact .inl ⟨_, h⟩
    · exact .inr (.inr h)
  · rintro (⟨l, h⟩ | h | h)
    · cases l with
      | background => exact .inl (.inl (.inl (.inl (.inl h))))
      | bottom => exact .inl (.inl (.inl (.inl (.inr h))))
      | top => exact .inl (.inl (.inr h))
      | overlay => exact .inl (.inr h)
    · exact .inl (.inl (.inl (.inr h)))
    · exact .inr h

theorem elementsAt_ne_nil {p : WlSurface × Point ℤ} : s.elementsAt p ≠ [] ↔ s.Draws p.1 :=
  s.renderElements_ne_nil

/-- What is drawn has anything to draw, and is a layer of the output, a window on it or a lock
surface. -/
theorem mem_drawnSurfaces {x : WlSurface} :
    x ∈ s.drawnSurfaces o ↔ s.Draws x ∧
      ((∃ layer ∈ o.layerMap, layer.wlSurface = x) ∨
        (∃ e ∈ s.activeSpace.entries, e.1.toplevelSurface.wlSurface = x ∧ s.onOutput o e) ∨
        ∃ lock, s.lock = some lock ∧ ∃ surf ∈ lock.surfaces, surf.wlSurface = x) := by
  simp only [drawnSurfaces, List.mem_map, List.mem_filter, Bool.not_eq_true',
    List.isEmpty_eq_false_iff, elementsAt_ne_nil, mem_placements, mem_lockPlacements]
  constructor
  · rintro ⟨p, ⟨hp, hd⟩, rfl⟩
    refine ⟨hd, ?_⟩
    rcases hp with ⟨layer, hmem, rfl⟩ | ⟨e, he, hon, rfl⟩ | ⟨lock, hl, surf, hmem, rfl⟩
    · exact .inl ⟨layer, hmem, rfl⟩
    · exact .inr (.inl ⟨e, he, rfl, hon⟩)
    · exact .inr (.inr ⟨lock, hl, surf, hmem, rfl⟩)
  · rintro ⟨hd, ⟨layer, hmem, rfl⟩ | ⟨e, he, rfl, hon⟩ | ⟨lock, hl, surf, hmem, rfl⟩⟩
    · exact ⟨_, ⟨.inl ⟨layer, hmem, rfl⟩, hd⟩, rfl⟩
    · exact ⟨_, ⟨.inr (.inl ⟨e, he, hon, rfl⟩), hd⟩, rfl⟩
    · exact ⟨_, ⟨.inr (.inr ⟨lock, hl, surf, hmem, rfl⟩), hd⟩, rfl⟩

theorem map_layerElements (l : Layer) :
    (s.layerElements o l).map RenderElementVariant.element =
      (s.layerPlacements o l).flatMap s.elementsAt := by
  simp [layerElements, layerPlacements, List.map_flatMap, List.flatMap_map,
    RenderElementVariant.element, elementsAt, Function.comp_def]

theorem map_spaceWindowElements (space : Space) :
    (s.spaceWindowElements o space).map RenderElementVariant.element =
      (windowPlacements (space.entries.reverse.filter (s.onOutput o))).flatMap s.elementsAt := by
  have hmap : ∀ es : List (Window × Point ℤ),
      windowPlacements es = es.map fun e => (e.1.toplevelSurface.wlSurface, e.2) := by
    intro es
    simp [windowPlacements]
  rw [hmap, List.flatMap_map]
  simp [spaceWindowElements, List.map_flatMap, RenderElementVariant.element, elementsAt,
    Function.comp_def]

/-- With the space come no elements of a layer but those that are pushed for it. -/
theorem map_spaceLayerElements_subset (l : Layer) :
    (s.spaceLayerElements o l).map RenderElementVariant.element ⊆
      (s.layerPlacements o l).flatMap s.elementsAt := by
  intro r hr
  obtain ⟨v, hv, rfl⟩ := List.mem_map.mp hr
  obtain ⟨layer, hlayer, hv⟩ := List.mem_flatMap.mp hv
  obtain ⟨e, he, rfl⟩ := List.mem_map.mp hv
  have hmem : layer ∈ o.layersOn l := List.mem_reverse.mp (List.mem_filter.mp hlayer).1
  exact List.mem_flatMap.mpr ⟨_, List.mem_map.mpr ⟨layer, hmem, rfl⟩, he⟩

theorem map_lockElements :
    s.lockElements.map RenderElementVariant.element = s.lockPlacements.flatMap s.elementsAt := by
  rw [lockElements, lockPlacements]
  cases s.lock with
  | none => rfl
  | some lock =>
    simp [List.map_flatMap, List.flatMap_map, RenderElementVariant.element, elementsAt,
      Function.comp_def]

/-- **The collected elements are those of the placements**, beside the panel's. -/
theorem mem_collectElements_iff {r : RenderElement} :
    r ∈ (s.collectElements o).map RenderElementVariant.element ↔
      (∃ p ∈ s.placements o, r ∈ s.elementsAt p) ∨
        r ∈ (s.panelElements o).map RenderElementVariant.element := by
  have hlayer : ∀ l, (r ∈ (s.spaceLayerElements o l).map RenderElementVariant.element ∨
      ∃ p ∈ s.layerPlacements o l, r ∈ s.elementsAt p) ↔
      ∃ p ∈ s.layerPlacements o l, r ∈ s.elementsAt p := fun l =>
    or_iff_right_of_imp fun hr => List.mem_flatMap.mp (map_spaceLayerElements_subset l hr)
  simp only [collectElements, spaceElements, placements, List.map_append, List.mem_append,
    map_layerElements, map_spaceWindowElements, map_lockElements, List.mem_flatMap, or_and_right,
    exists_or]
  rw [← hlayer .background, ← hlayer .bottom, ← hlayer .top, ← hlayer .overlay]
  exact Eq.to_iff (by ac_rfl)

/-! ## Who is called back -/

/-- Only windows are drawn, and every window is whose surface is there. -/
structure OnlyWindows (s : NullxesState) (o : Output) : Prop where
  layers : ∀ layer ∈ o.layerMap, ¬ s.Draws layer.wlSurface
  locks : ∀ lock, s.lock = some lock → ∀ surf ∈ lock.surfaces, ¬ s.Draws surf.wlSurface
  windows : ∀ w ∈ s.activeSpace, w.toplevelSurface.wlSurface ∈ s.compositorState.alive →
    s.Draws w.toplevelSurface.wlSurface ∧ ∃ e ∈ s.activeSpace.entries,
      e.1.toplevelSurface.wlSurface = w.toplevelSurface.wlSurface ∧ s.onOutput o e

theorem mem_sendFramesAfterRender (ho : s.primary = some o) {x : WlSurface} :
    x ∈ s.sendFramesAfterRender ↔
      x ∈ s.compositorState.alive ∧ ∃ w ∈ s.activeSpace, w.toplevelSurface.wlSurface = x := by
  simp only [sendFramesAfterRender, ho, List.mem_filter, List.mem_filterMap, Window.wlSurface_eq,
    Option.some.injEq, decide_eq_true_eq, ZStack.mem_iff_entry]
  constructor
  · rintro ⟨⟨e, he, rfl⟩, halive⟩
    exact ⟨halive, e.1, ⟨e.2, he⟩, rfl⟩
  · rintro ⟨halive, w, ⟨loc, he⟩, rfl⟩
    exact ⟨⟨(w, loc), he, rfl⟩, halive⟩

theorem SurfacesWf.alive_of_draws (h : s.SurfacesWf) {x : WlSurface} (hd : s.Draws x) :
    x ∈ s.compositorState.alive := by
  by_contra hdead
  refine hd ?_
  rw [h.dead x hdead]
  rfl

end NullxesState

/-- The surface of a window is no layer's, and no lock surface. -/
theorem World.window_ne {w : World} (hw : frame.Reachable w) {v : Window}
    (hv : v ∈ w.state.activeSpace) :
    (∀ o ∈ w.state.outputs, ∀ layer ∈ o.layerMap,
        v.toplevelSurface.wlSurface ≠ layer.wlSurface) ∧
      ∀ lock, w.state.lock = some lock → ∀ surf ∈ lock.surfaces,
        v.toplevelSurface.wlSurface ≠ surf.wlSurface := by
  have hwf := World.surfacesWf_of_reachable hw
  have hrole := World.role_window hw hv
  refine ⟨fun o ho layer hmem heq => ?_, fun lock hl surf hmem heq => ?_⟩
  · rw [heq, hwf.mapped o ho layer hmem] at hrole
    cases hrole
  · rw [heq, hwf.lock lock hl surf hmem] at hrole
    cases hrole

open NullxesState in
/-- **The surfaces called back are those drawn exactly if nothing but windows is drawn**, and no
window of the workspace is without content or off the output. -/
theorem callbacks_iff {w : World} (hw : frame.Reachable w) {o : Output}
    (ho : w.state.primary = some o) :
    (∀ x, x ∈ w.state.sendFramesAfterRender ↔ x ∈ w.state.drawnSurfaces o) ↔
      w.state.OnlyWindows o := by
  have hmapped := SurfacesWf.mem_outputs_of_primary ho
  constructor
  · intro h
    refine ⟨fun layer hmem hd => ?_, fun lock hl surf hmem hd => ?_, fun v hv halive => ?_⟩
    · have hdrawn : layer.wlSurface ∈ w.state.drawnSurfaces o :=
        mem_drawnSurfaces.mpr ⟨hd, .inl ⟨layer, hmem, rfl⟩⟩
      obtain ⟨-, v, hv, heq⟩ := (mem_sendFramesAfterRender ho).mp ((h _).mpr hdrawn)
      exact (World.window_ne hw hv).1 o hmapped layer hmem heq
    · have hdrawn : surf.wlSurface ∈ w.state.drawnSurfaces o :=
        mem_drawnSurfaces.mpr ⟨hd, .inr (.inr ⟨lock, hl, surf, hmem, rfl⟩)⟩
      obtain ⟨-, v, hv, heq⟩ := (mem_sendFramesAfterRender ho).mp ((h _).mpr hdrawn)
      exact (World.window_ne hw hv).2 lock hl surf hmem heq
    · have hcalled := (mem_sendFramesAfterRender ho).mpr ⟨halive, v, hv, rfl⟩
      obtain ⟨hd, hplace⟩ := mem_drawnSurfaces.mp ((h _).mp hcalled)
      refine ⟨hd, ?_⟩
      rcases hplace with ⟨layer, hmem, heq⟩ | hwindow | ⟨lock, hl, surf, hmem, heq⟩
      · exact absurd heq.symm ((World.window_ne hw hv).1 o hmapped layer hmem)
      · exact hwindow
      · exact absurd heq.symm ((World.window_ne hw hv).2 lock hl surf hmem)
  · intro h x
    rw [mem_sendFramesAfterRender ho, mem_drawnSurfaces]
    constructor
    · rintro ⟨halive, v, hv, rfl⟩
      obtain ⟨hd, hwindow⟩ := h.windows v hv halive
      exact ⟨hd, .inr (.inl hwindow)⟩
    · rintro ⟨hd, hplace⟩
      refine ⟨(World.surfacesWf_of_reachable hw).alive_of_draws hd, ?_⟩
      rcases hplace with ⟨layer, hmem, rfl⟩ | ⟨e, he, heq, -⟩ | ⟨lock, hl, surf, hmem, rfl⟩
      · exact absurd hd (h.layers layer hmem)
      · exact ⟨e.1, ZStack.mem_iff_entry.mpr ⟨e.2, he⟩, heq⟩
      · exact absurd hd (h.locks lock hl surf hmem)

/-- The first surface a client makes. -/
def firstSurface : WlSurface := ⟨0, 12, 0⟩

/-- A plain buffer on it. -/
def paintFirst : Event := .commit firstSurface (plate (4, 4) ⟨1, 1, 1, 1⟩)

/-- A window is opened and drawn. -/
def openWindow : List Event := [.createSurface 0 12, .newToplevel firstSurface, paintFirst]

theorem callbacks_iff_openWindow :
    ∃ o, (frame.run World.desktop openWindow).state.primary = some o ∧
      ∀ x, x ∈ (frame.run World.desktop openWindow).state.sendFramesAfterRender ↔
        x ∈ (frame.run World.desktop openWindow).state.drawnSurfaces o := by
  have hreachable : frame.Reachable (frame.run World.desktop openWindow) :=
    (EventMachine.Reachable.init init_desktop).run (by decide)
  refine ⟨⟨0, some (1920, 1080), []⟩, rfl,
    (callbacks_iff hreachable rfl).mpr ⟨nofun, nofun, fun w hw _ => ?_⟩⟩
  have hentries : (frame.run World.desktop openWindow).state.activeSpace.entries =
    [(⟨⟨0, firstSurface⟩⟩, (480, 270))] := rfl
  obtain ⟨loc, hentry⟩ := ZStack.mem_iff_entry.mp hw
  rw [hentries, List.mem_singleton] at hentry
  cases hentry
  exact ⟨List.cons_ne_nil _ _, _, by rw [hentries]; exact List.mem_cons_self, rfl, rfl⟩

/-- A layer surface is opened and drawn. -/
def openLayer : List Event :=
  [.createSurface 0 12, .newLayerSurface firstSurface .top none, paintFirst]

/-- It is on the screen, and nobody is called back. -/
theorem not_callbacks :
    frame.Init World.desktop ∧ frame.Legal World.desktop openLayer ∧
      (frame.run World.desktop openLayer).state.primary =
        some ⟨0, some (1920, 1080), [⟨0, firstSurface, .top⟩]⟩ ∧
      (frame.run World.desktop openLayer).state.sendFramesAfterRender = [] ∧
      (frame.run World.desktop openLayer).state.drawnSurfaces
        ⟨0, some (1920, 1080), [⟨0, firstSurface, .top⟩]⟩ = [firstSurface] := by
  exact ⟨init_desktop, by decide, rfl, rfl, rfl⟩

end Frame

end Nullxes
