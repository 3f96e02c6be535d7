import Nullxes.Frame.World

/-!
# Stacking order

`render_output` draws the first element of a list topmost. The order FRAME documents is, from the
top: lock surfaces, overlay layers, the panel, top layers, the windows of the active workspace in
their own order, bottom layers, background layers. `collect_elements` pushes the groups in the
opposite order, except that the overlay layers precede the panel. In the place of the windows comes
what smithay returns for the space, which has the layers of the output around the windows, in the
documented order.

Each element of the list is labelled with its group here, windows also with their distance from the
top of their space. A list is stacked when every element comes before all it must be drawn above.

## Main results

* `NullxesState.map_snd_labelledElements` — the labelled list is the collected one
* `NullxesState.stacked_iff` — it is stacked when no two groups but those two have content
-/

namespace Nullxes

namespace Frame

/-- The groups of elements, topmost first. -/
inductive Stratum
  | lock
  | overlay
  | panel
  | top
  | windows
  | bottom
  | background
  deriving DecidableEq, Repr

/-- How many groups are to be drawn above this one. -/
def Stratum.rank : Stratum → ℕ
  | .lock => 0
  | .overlay => 1
  | .panel => 2
  | .top => 3
  | .windows => 4
  | .bottom => 5
  | .background => 6

/-- A part of the list: what FRAME pushes of a group itself, or what smithay returns of it with the
space. -/
inductive Part
  | pushed (g : Stratum)
  | ofSpace (g : Stratum)
  deriving DecidableEq, Repr

def Part.group : Part → Stratum
  | .pushed g | .ofSpace g => g

/-- The part that has whatever a group has to draw. -/
def Stratum.main : Stratum → Part
  | .windows => .ofSpace .windows
  | g => .pushed g

/-- The parts in the order in which `collect_elements` has them. -/
def pushOrder : List Part :=
  [.pushed .background, .pushed .bottom, .ofSpace .overlay, .ofSpace .top, .ofSpace .windows,
    .ofSpace .bottom, .ofSpace .background, .pushed .top, .pushed .overlay, .pushed .panel,
    .pushed .lock]

/-- Where an element belongs: its group, and for a window the number of windows above it. -/
structure Label where
  group : Stratum
  depth : ℕ := 0
  deriving DecidableEq, Repr

/-- An element with the first label must be drawn above one with the second. -/
def Label.Above (a b : Label) : Prop :=
  a.group.rank < b.group.rank ∨
    a.group = .windows ∧ b.group = .windows ∧ a.depth < b.depth

instance (a b : Label) : Decidable (a.Above b) := inferInstanceAs (Decidable (_ ∨ _))

theorem Label.not_above_self (a : Label) : ¬ a.Above a := by
  rintro (h | ⟨-, -, h⟩) <;> exact Nat.lt_irrefl _ h

theorem Label.not_above_of_group_eq {a b : Label} (h : a.group = b.group)
    (hd : b.depth ≤ a.depth) : ¬ a.Above b := by
  rintro (hlt | ⟨-, -, hlt⟩)
  · rw [h] at hlt
    exact Nat.lt_irrefl _ hlt
  · exact Nat.not_lt.mpr hd hlt

namespace NullxesState

variable (s : NullxesState) (o : Output)

/-- The elements of a window of the active space, `depth` windows below the top. -/
def windowElements (e : (Window × Point ℤ) × ℕ) : List (Label × RenderElementVariant) :=
  match e.1.1.wlSurface with
  | some surface =>
    ((s.surfaceData surface).renderElements e.1.2).map fun r => (⟨.windows, e.2⟩, .space r)
  | none => []

/-- The elements of a part that is not the windows. -/
def plainElements : Part → List RenderElementVariant
  | .pushed .lock => s.lockElements
  | .pushed .overlay => s.layerElements o .overlay
  | .pushed .panel => s.panelElements o
  | .pushed .top => s.layerElements o .top
  | .pushed .bottom => s.layerElements o .bottom
  | .pushed .background => s.layerElements o .background
  | .ofSpace .overlay => s.spaceLayerElements o .overlay
  | .ofSpace .top => s.spaceLayerElements o .top
  | .ofSpace .bottom => s.spaceLayerElements o .bottom
  | .ofSpace .background => s.spaceLayerElements o .background
  | _ => []

/-- The elements of one part, labelled. -/
def partElements : Part → List (Label × RenderElementVariant)
  | .ofSpace .windows =>
    (s.activeSpace.entries.reverse.filter (s.onOutput o)).zipIdx.flatMap s.windowElements
  | p => (s.plainElements o p).map fun e => (⟨p.group, 0⟩, e)

/-- The list of `collect_elements` with its labels. -/
def labelledElements : List (Label × RenderElementVariant) := pushOrder.flatMap (s.partElements o)

theorem map_snd_windows : (s.partElements o (.ofSpace .windows)).map Prod.snd =
    s.spaceWindowElements o s.activeSpace := by
  have hwindow : ∀ e : (Window × Point ℤ) × ℕ, (s.windowElements e).map Prod.snd =
      ((s.surfaceData e.1.1.toplevelSurface.wlSurface).renderElements e.1.2).map .space := by
    intro e
    simp [windowElements, Function.comp_def]
  have hzip : s.activeSpace.entries.reverse.filter (s.onOutput o) =
      (s.activeSpace.entries.reverse.filter (s.onOutput o)).zipIdx.map Prod.fst := by simp
  rw [partElements, List.map_flatMap, spaceWindowElements, hzip, List.flatMap_map]
  simp only [hwindow, Window.wlSurface_eq, ← hzip]

/-- The labelled list is the list that is drawn. -/
theorem map_snd_labelledElements : (s.labelledElements o).map Prod.snd = s.collectElements o := by
  have hgroup : ∀ g (es : List RenderElementVariant),
      (es.map fun e => ((⟨g, 0⟩ : Label), e)).map Prod.snd = es := by
    intro g es
    simp [Function.comp_def]
  rw [labelledElements, List.map_flatMap, pushOrder]
  simp only [List.flatMap_cons, List.flatMap_nil, s.map_snd_windows o, List.append_nil]
  simp only [partElements, plainElements, hgroup, collectElements, spaceElements,
    List.append_assoc]

/-- Every element comes before all it must be drawn above. -/
def Stacked : Prop :=
  ∀ i j (hi : i < (s.labelledElements o).length) (hj : j < (s.labelledElements o).length),
    (s.labelledElements o)[i].1.Above (s.labelledElements o)[j].1 → i < j

/-- A surface draws something. -/
def Draws (surface : WlSurface) : Prop := (s.surfaceData surface).tree ≠ []

/-- A group has something to draw on the output. -/
def Shows : Stratum → Prop
  | .lock => ∃ lock, s.lock = some lock ∧ ∃ surf ∈ lock.surfaces, s.Draws surf.wlSurface
  | .overlay => ∃ layer ∈ o.layersOn .overlay, s.Draws layer.wlSurface
  | .panel => s.panelMemory.isSome
  | .top => ∃ layer ∈ o.layersOn .top, s.Draws layer.wlSurface
  | .windows => ∃ e ∈ s.activeSpace.entries, s.onOutput o e ∧
      s.Draws e.1.toplevelSurface.wlSurface
  | .bottom => ∃ layer ∈ o.layersOn .bottom, s.Draws layer.wlSurface
  | .background => ∃ layer ∈ o.layersOn .background, s.Draws layer.wlSurface

/-- No two groups have something to draw, unless they are the overlay layers and the panel. -/
def GroupsApart : Prop :=
  ∀ g h, s.Shows o g → s.Shows o h → g ≠ h →
    (g = .overlay ∨ g = .panel) ∧ (h = .overlay ∨ h = .panel)

theorem renderElements_ne_nil {surface : WlSurface} {loc : Point ℤ} :
    (s.surfaceData surface).renderElements loc ≠ [] ↔ s.Draws surface := by
  simp [SurfaceData.renderElements, Draws]

theorem layerElements_ne_nil {l : Layer} :
    s.layerElements o l ≠ [] ↔ ∃ layer ∈ o.layersOn l, s.Draws layer.wlSurface := by
  simp only [layerElements, ne_eq, List.flatMap_eq_nil_iff, List.map_eq_nil_iff, not_forall,
    exists_prop]
  exact exists_congr fun layer => and_congr_right fun _ => s.renderElements_ne_nil

theorem draws_of_spaceLayerElements_ne_nil {l : Layer} (h : s.spaceLayerElements o l ≠ []) :
    ∃ layer ∈ o.layersOn l, s.Draws layer.wlSurface := by
  simp only [spaceLayerElements, ne_eq, List.flatMap_eq_nil_iff, List.map_eq_nil_iff, not_forall,
    exists_prop, List.mem_filter, List.mem_reverse] at h
  obtain ⟨layer, ⟨hmem, -⟩, hdraws⟩ := h
  exact ⟨layer, hmem, s.renderElements_ne_nil.mp hdraws⟩

theorem spaceWindowElements_ne_nil :
    s.spaceWindowElements o s.activeSpace ≠ [] ↔ s.Shows o .windows := by
  simp only [spaceWindowElements, Shows, ne_eq, List.flatMap_eq_nil_iff, Window.wlSurface_eq,
    List.map_eq_nil_iff, not_forall, exists_prop, List.mem_filter, List.mem_reverse, and_assoc]
  exact exists_congr fun e => and_congr_right fun _ => and_congr_right fun _ =>
    s.renderElements_ne_nil

theorem lockElements_ne_nil : s.lockElements ≠ [] ↔ s.Shows o .lock := by
  rw [lockElements, Shows]
  rcases s.lock with _ | lock
  · simp
  · simp only [ne_eq, List.flatMap_eq_nil_iff, List.map_eq_nil_iff, not_forall, exists_prop,
      Option.some.injEq, exists_eq_left']
    exact exists_congr fun surf => and_congr_right fun _ => s.renderElements_ne_nil

theorem partElements_of_ne {p : Part} (h : p ≠ .ofSpace .windows) :
    s.partElements o p = (s.plainElements o p).map fun e => (⟨p.group, 0⟩, e) := by
  rw [partElements]
  exact h

theorem partElements_ne_nil {p : Part} (h : p ≠ .ofSpace .windows) :
    s.partElements o p ≠ [] ↔ s.plainElements o p ≠ [] := by
  rw [s.partElements_of_ne o h]
  exact not_congr List.map_eq_nil_iff

theorem windows_ne_nil : s.partElements o (.ofSpace .windows) ≠ [] ↔ s.Shows o .windows := by
  rw [← s.spaceWindowElements_ne_nil o, ← s.map_snd_windows o]
  exact (not_congr List.map_eq_nil_iff).symm

/-- The main part of a group has elements exactly when the group has something to draw. -/
theorem main_ne_nil {g : Stratum} : s.partElements o g.main ≠ [] ↔ s.Shows o g := by
  cases g with
  | windows => exact s.windows_ne_nil o
  | lock => exact (s.partElements_ne_nil o (by decide)).trans (s.lockElements_ne_nil o)
  | panel =>
    refine (s.partElements_ne_nil o (by decide)).trans ?_
    show s.panelElements o ≠ [] ↔ s.panelMemory.isSome
    rw [panelElements]
    rcases s.panelMemory with _ | buf <;> simp
  | _ => exact (s.partElements_ne_nil o (by decide)).trans (s.layerElements_ne_nil o)

/-- Any part that has elements is of a group that has something to draw. -/
theorem shows_of_ne_nil {p : Part} (h : s.partElements o p ≠ []) : s.Shows o p.group := by
  rcases p with g | g
  · cases g with
    | windows => exact absurd rfl h
    | _ => exact (s.main_ne_nil o).mp h
  · cases g with
    | windows => exact (s.windows_ne_nil o).mp h
    | lock => exact absurd rfl h
    | panel => exact absurd rfl h
    | _ =>
      have hplain := (s.partElements_ne_nil o (by decide)).mp h
      exact s.draws_of_spaceLayerElements_ne_nil o hplain

theorem group_of_mem {p : Part} {x : Label × RenderElementVariant}
    (hx : x ∈ s.partElements o p) : x.1.group = p.group := by
  by_cases hp : p = .ofSpace .windows
  · subst hp
    obtain ⟨e, -, he⟩ := List.mem_flatMap.mp hx
    simp only [windowElements, Window.wlSurface_eq, List.mem_map] at he
    obtain ⟨r, -, rfl⟩ := he
    rfl
  · rw [s.partElements_of_ne o hp] at hx
    obtain ⟨e, -, rfl⟩ := List.mem_map.mp hx
    rfl

/-- Within a part no element comes after one that it must be drawn above: windows are collected
from the top of their space down. -/
theorem pairwise_partElements (p : Part) :
    (s.partElements o p).Pairwise fun a b => ¬ b.1.Above a.1 := by
  have hdepth : (s.partElements o p).Pairwise fun a b => a.1.depth ≤ b.1.depth := by
    by_cases hp : p = .ofSpace .windows
    · subst hp
      have hmem : ∀ e, ∀ x ∈ s.windowElements e, x.1.depth = e.2 := by
        intro e x hx
        simp only [windowElements, Window.wlSurface_eq, List.mem_map] at hx
        obtain ⟨r, -, rfl⟩ := hx
        rfl
      refine List.pairwise_flatMap.mpr ⟨fun e _ => ?_, ?_⟩
      · refine List.pairwise_of_forall_mem_list fun a ha b hb => ?_
        rw [hmem e a ha, hmem e b hb]
      · have hsorted : ((s.activeSpace.entries.reverse.filter (s.onOutput o)).zipIdx.map
            Prod.snd).Pairwise (· < ·) := by
          rw [List.zipIdx_map_snd, ← List.range_eq_range']
          exact List.pairwise_lt_range
        refine (List.pairwise_map.mp hsorted).imp fun {e e'} hlt a ha b hb => ?_
        rw [hmem e a ha, hmem e' b hb]
        exact Nat.le_of_lt hlt
    · rw [s.partElements_of_ne o hp]
      exact List.pairwise_map.mpr (List.pairwise_of_forall fun _ _ => Nat.le_refl 0)
  refine hdepth.imp_of_mem fun {a b} ha hb hle => ?_
  exact Label.not_above_of_group_eq ((s.group_of_mem o hb).trans (s.group_of_mem o ha).symm) hle

theorem stacked_iff_pairwise :
    s.Stacked o ↔ (s.labelledElements o).Pairwise fun a b => ¬ b.1.Above a.1 := by
  rw [List.pairwise_iff_getElem]
  constructor
  · intro h i j hi hj hlt habove
    exact Nat.lt_asymm hlt (h j i hj hi habove)
  · intro h i j hi hj habove
    rcases Nat.lt_trichotomy i j with hlt | heq | hlt
    · exact hlt
    · subst heq
      exact absurd habove (Label.not_above_self _)
    · exact absurd habove (h j i hj hi hlt)

/-- Two parts come in the right order, or one of them has nothing to draw. -/
theorem across_iff {p q : Part} (h : ¬ (p.group = .windows ∧ q.group = .windows)) :
    (∀ x ∈ s.partElements o p, ∀ y ∈ s.partElements o q, ¬ y.1.Above x.1) ↔
      (q.group.rank < p.group.rank → s.partElements o p ≠ [] → ¬ s.partElements o q ≠ []) := by
  constructor
  · intro hall hrank hp hq
    obtain ⟨x, hx⟩ := List.exists_mem_of_ne_nil _ hp
    obtain ⟨y, hy⟩ := List.exists_mem_of_ne_nil _ hq
    refine hall x hx y hy (.inl ?_)
    rwa [s.group_of_mem o hx, s.group_of_mem o hy]
  · rintro hrank x hx y hy (habove | ⟨hy', hx', -⟩)
    · rw [s.group_of_mem o hx, s.group_of_mem o hy] at habove
      exact hrank habove (List.ne_nil_of_mem hx) (List.ne_nil_of_mem hy)
    · rw [s.group_of_mem o hx] at hx'
      rw [s.group_of_mem o hy] at hy'
      exact h ⟨hx', hy'⟩

/-- Of the main parts of two groups the one that comes first has the higher rank, unless the groups
are overlay and panel. -/
theorem pushOrder_cases {g h : Stratum} (hne : g ≠ h) :
    ((g = .overlay ∨ g = .panel) ∧ (h = .overlay ∨ h = .panel)) ∨
      ([g.main, h.main].Sublist pushOrder ∧ h.rank < g.rank) ∨
      ([h.main, g.main].Sublist pushOrder ∧ g.rank < h.rank) := by
  revert hne
  cases g <;> cases h <;> decide

/-- The order of the parts is the required one upside down, overlay layers and panel apart. What
comes with the space adds no pair to those of the main parts. -/
theorem pairwise_pushOrder_iff {has : Part → Prop} {shows : Stratum → Prop}
    (hmain : ∀ g, has g.main ↔ shows g) (hshows : ∀ p, has p → shows p.group) :
    (pushOrder.Pairwise fun p q => q.group.rank < p.group.rank → has p → ¬ has q) ↔
      ∀ g h, shows g → shows h → g ≠ h →
        (g = .overlay ∨ g = .panel) ∧ (h = .overlay ∨ h = .panel) := by
  have hgroup : ∀ g : Stratum, g.main.group = g := by
    intro g
    cases g <;> rfl
  constructor
  · intro hpush g h hg hh hne
    rw [List.pairwise_iff_forall_sublist] at hpush
    rw [← hmain] at hg hh
    rcases pushOrder_cases hne with hboth | ⟨hgh, hlt⟩ | ⟨hhg, hlt⟩
    · exact hboth
    · exact absurd hh (hpush hgh (by rwa [hgroup, hgroup]) hg)
    · exact absurd hg (hpush hhg (by rwa [hgroup, hgroup]) hh)
  · intro hpairs
    have hbad : ∀ p q : Part, q.group.rank < p.group.rank → has p → has q →
        (p.group = .overlay ∨ p.group = .panel) ∧ (q.group = .overlay ∨ q.group = .panel) :=
      fun p q hlt hp hq => hpairs _ _ (hshows p hp) (hshows q hq) fun heq =>
        Nat.lt_irrefl _ (heq ▸ hlt)
    have hfine : pushOrder.Pairwise fun p q => ¬ (q.group.rank < p.group.rank ∧
        (p.group = .overlay ∨ p.group = .panel) ∧ (q.group = .overlay ∨ q.group = .panel)) := by
      decide
    exact hfine.imp fun {p q} hno hlt hp hq => hno ⟨hlt, hbad p q hlt hp hq⟩

/-- **Stacking order.** What is collected for an output is stacked as documented if and only if no
two groups have something to draw on it, the overlay layers and the panel apart. -/
theorem stacked_iff :
    (s.labelledElements o).map Prod.snd = s.collectElements o ∧
      (s.Stacked o ↔ s.GroupsApart o) := by
  refine ⟨s.map_snd_labelledElements o, ?_⟩
  have hwindows : pushOrder.Pairwise fun p q => ¬ (p.group = .windows ∧ q.group = .windows) := by
    decide
  rw [stacked_iff_pairwise, labelledElements, List.pairwise_flatMap, GroupsApart,
    ← pairwise_pushOrder_iff (fun _ => s.main_ne_nil o) (fun _ => s.shows_of_ne_nil o)]
  constructor
  · rintro ⟨-, hacross⟩
    exact (hacross.and hwindows).imp fun {p q} hpq => (s.across_iff o hpq.2).mp hpq.1
  · intro hpush
    refine ⟨fun p _ => s.pairwise_partElements o p, ?_⟩
    exact (hpush.and hwindows).imp fun {p q} hpq => (s.across_iff o hpq.2).mpr hpq.1

end NullxesState

/-! ## A run -/

/-- A client opens a window and draws one opaque pixel, and a frame is drawn. -/
def windowAndPanel : List Event :=
  [.createSurface 0 12, .newToplevel ⟨0, 12, 0⟩,
    .commit ⟨0, 12, 0⟩
      { SurfaceData.initial with
        tree := [((0, 0), ⟨1, 1, fun _ _ => ⟨1, 1, 1, 1⟩⟩)], bbox := ⟨(0, 0), (1, 1)⟩ },
    .redraw fun _ _ => ⟨0, 0, 0, 1⟩]

/-- The window comes before the panel, which must be drawn above it. -/
theorem windowAndPanel_not_stacked :
    frame.Init World.desktop ∧ frame.Legal World.desktop windowAndPanel ∧
      ∃ o ∈ (frame.run World.desktop windowAndPanel).state.outputs,
        ¬ (frame.run World.desktop windowAndPanel).state.Stacked o := by
  refine ⟨init_desktop, by decide +kernel, ⟨0, some (1920, 1080), []⟩, by decide +kernel, ?_⟩
  rw [NullxesState.stacked_iff_pairwise]
  decide +kernel

end Frame

end Nullxes
