import Mathlib.Algebra.Group.Prod
import Nullxes.Frame.Callbacks

/-!
# Hit testing

Which surface is under the pointer, and where its origin is, in three coordinate systems: a layer
surface and a window are asked about a point of their own, and the origin they answer with is their
own too. The branch of `surface_under` for layers subtracts the layer's location and adds it again.
The branch for windows does neither, and asks the window about its *location*, as if that were a
point inside it: the pointer does not matter beyond which window it is on.

What it should answer is `windowHit`. Moving the windows and the pointer together moves that answer
along (`windowHit_mapPlaces`).

## Main definitions

* `NullxesState.windowHit` — the surface of the topmost window under a point, with its origin
* `SurfaceData.OneOrigin` — a surface of a tree is in one place
* `NullxesState.AtCorner` — when the answer is right all the same

## Main results

* `NullxesState.windowHit_mapPlaces` — hit testing moves with the windows
* `surfaceUnder_iff` — when `surface_under` answers what it should
-/

namespace Nullxes

namespace Frame

/-- Every surface of the tree has one origin. -/
def SurfaceData.OneOrigin (d : SurfaceData) : Prop :=
  ∀ p q x o o', d.under p = some (x, o) → d.under q = some (x, o') → o = o'

theorem toF64_add (p q : Point ℤ) : toF64 (p + q) = toF64 p + toF64 q := by
  simp [toF64]

@[simp] theorem toF64_zero : toF64 0 = 0 := rfl

namespace NullxesState

variable {s : NullxesState}

/-- The surface of the topmost window that takes input at a point, chosen by the window's own point,
with its global origin. -/
def windowHit (s : NullxesState) (space : Space) (loc : Point ℚ) : PointerFocus :=
  (s.elementUnder space loc).bind fun e =>
    (s.windowSurfaceUnder e.1 (loc - toF64 e.2)).map fun r => (r.1, r.2 + e.2)

/-- **Hit testing moves with the windows.** -/
theorem windowHit_mapPlaces (s : NullxesState) (space : Space) (v : Point ℤ) (loc : Point ℚ) :
    s.windowHit (space.mapPlaces (· + v)) (loc + toF64 v) =
      (s.windowHit space loc).map fun r => (r.1, r.2 + v) := by
  have hlocal : ∀ p : Point ℤ, loc + toF64 v - toF64 (p + v) = loc - toF64 p := fun p => by
    rw [toF64_add, add_sub_add_right_eq_sub]
  rw [windowHit, windowHit, elementUnder, ZStack.topmost_mapPlaces]
  simp only [hlocal]
  rw [← elementUnder]
  cases s.elementUnder space loc with
  | none => rfl
  | some e => simp [hlocal, Function.comp_def, add_assoc]

/-- The topmost window that takes input at the point is at the origin, and the surface there takes
input at the window's corner too. -/
def AtCorner (s : NullxesState) (loc : Point ℚ) : Prop :=
  ∀ e, s.elementUnder s.activeSpace loc = some e → e.2 = 0 ∧
    (s.windowSurfaceUnder e.1 0).map Prod.fst = (s.windowSurfaceUnder e.1 loc).map Prod.fst

end NullxesState

/-- **`surface_under` answers for windows what it should exactly at their corners**, once no layer
surface is hit. -/
theorem surfaceUnder_iff {s : NullxesState} {loc : Point ℚ}
    (hone : ∀ w ∈ s.activeSpace, (s.surfaceData w.toplevelSurface.wlSurface).OneOrigin)
    (hlayer : (s.primary.bind fun o => s.layerSurfaceUnder o loc) = none) :
    s.surfaceUnder loc = s.windowHit s.activeSpace loc ↔ s.AtCorner loc := by
  rw [NullxesState.surfaceUnder, hlayer, NullxesState.windowHit, NullxesState.AtCorner]
  rcases helement : s.elementUnder s.activeSpace loc with _ | ⟨w, place⟩
  · simp
  -- the window takes input at the point
  have htakes : (s.windowSurfaceUnder w (loc - toF64 place)).isSome :=
    ZStack.prop_of_topmost helement
  obtain ⟨⟨x, o⟩, hx⟩ := Option.isSome_iff_exists.mp htakes
  have hone := hone w (ZStack.mem_of_topmost helement)
  simp only [Option.bind_some, hx, Option.map_some, Option.some.injEq, forall_eq']
  constructor
  · intro hanswer
    have hplace : o + place = o := hone _ _ x _ _ hanswer hx
    obtain rfl : place = 0 := by simpa using hplace
    rw [toF64_zero, sub_zero] at hx
    rw [toF64_zero, add_zero] at hanswer
    exact ⟨rfl, by rw [hanswer, hx]⟩
  · rintro ⟨rfl, hfst⟩
    rw [toF64_zero, sub_zero] at hx
    rw [hx] at hfst
    obtain ⟨⟨y, o'⟩, hy, rfl⟩ := Option.map_eq_some_iff.mp hfst
    obtain rfl := hone _ _ y _ _ hy hx
    rw [toF64_zero, hy, add_zero]

/-- A surface of a size that takes input all over. -/
def boxed (surface : WlSurface) (size : Point ℤ) : SurfaceData where
  tree := [((0, 0), .plain size ⟨1, 1, 1, 1⟩)]
  under p := if Rect.contains ⟨(0, 0), size⟩ p then some (surface, (0, 0)) else none
  bbox := ⟨(0, 0), size⟩
  layerLoc := (0, 0)

theorem oneOrigin_boxed (surface : WlSurface) (size : Point ℤ) :
    (boxed surface size).OneOrigin := by
  have horigin : ∀ p x o, (boxed surface size).under p = some (x, o) → o = (0, 0) := by
    intro p x o h
    simp only [boxed, Option.ite_none_right_eq_some, Option.some.injEq, Prod.mk.injEq] at h
    exact h.2.2.symm
  intro p q x o o' hp hq
  rw [horigin p x o hp, horigin q x o' hq]

/-- A window of 100×100 is opened. -/
def openBoxed : List Event :=
  [.createSurface 0 12, .newToplevel firstSurface,
    .commit firstSurface (boxed firstSurface (100, 100))]

/-- On a screen so small that windows are opened at the origin. -/
def tinyDesktop : NullxesState := (frame.run (World.boot {} [(3, 3)] true) openBoxed).state

theorem surfaceUnder_iff_tiny :
    tinyDesktop.surfaceUnder (2, 1) = tinyDesktop.windowHit tinyDesktop.activeSpace (2, 1) := by
  have hentries : tinyDesktop.activeSpace.entries = [(⟨⟨0, firstSurface⟩⟩, 0)] := rfl
  refine (surfaceUnder_iff (fun w hw => ?_) rfl).mpr fun e he => ?_
  · obtain ⟨place, hentry⟩ := ZStack.mem_iff_entry.mp hw
    rw [hentries, List.mem_singleton] at hentry
    cases hentry
    exact oneOrigin_boxed firstSurface (100, 100)
  · have hentry := ZStack.entry_of_topmost he
    rw [hentries, List.mem_singleton] at hentry
    cases hentry
    exact ⟨rfl, by decide +kernel⟩

/-- On a screen of 1920×1080 it is opened at (480, 270). -/
def wideDesktop : NullxesState := (frame.run World.desktop openBoxed).state

/-- A point of the window has nothing under it there. With the window at the origin it has the
window's surface under it. -/
theorem not_surfaceUnder :
    frame.Legal World.desktop openBoxed ∧
      (wideDesktop.primary.bind fun o => wideDesktop.layerSurfaceUnder o (490, 280)) = none ∧
      wideDesktop.surfaceUnder (490, 280) = none ∧
      wideDesktop.windowHit wideDesktop.activeSpace (490, 280) =
        some (firstSurface, (480, 270)) ∧
      (wideDesktop.activeSpaceMut fun space =>
        space.mapPlaces (· + (-480, -270))).surfaceUnder (10, 10) = some (firstSurface, 0) := by
  refine ⟨by decide, rfl, ?_, ?_, ?_⟩ <;> decide +kernel

end Frame

end Nullxes
