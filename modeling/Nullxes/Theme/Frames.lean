import Nullxes.Theme.Painting
import Nullxes.Wlcommon.Contents

/-!
# The bytes of a frame

The models of the clients draw pictures: what is in a buffer is what `render::paint` was last given
for it. Here are the bytes. A mapping is zero where nothing was written; a buffer that was released
is painted over as it is, and one renderer writes into the buffers of all surfaces.

Whatever a client does with its pools, as long as their sizes can be addressed, what it hands to
the compositor is the picture of the model, painted on zeros by a new renderer: no frame shows
anything of another one. Beyond that a stride wraps around, and painting can leave the buffer.

## Main definitions

* `Mapping` — the memory of a buffer
* `Painter.pictures`, `Painter.client` — a client that draws pictures, and one that paints them
* `Painter.Exact` — the second does what the first does

## Main results

* `Painter.exact` — every painter is exact
-/

namespace Nullxes

namespace Theme

open Wlcommon Loops

/-- The memory of a buffer. -/
structure Mapping where
  bytes : ℕ → UInt8

instance : Inhabited Mapping := ⟨⟨fun _ => 0⟩⟩

namespace Mapping

variable (m : Mapping) {n : ℕ}

/-- Its first bytes. -/
def slice (n : ℕ) : Vector UInt8 n := .ofFn fun i => m.bytes i

/-- Its first bytes are written. -/
def write (v : Vector UInt8 n) : Mapping := ⟨fun j => if h : j < n then v[j] else m.bytes j⟩

theorem slice_write (v : Vector UInt8 n) : (m.write v).slice n = v := by
  refine Vector.ext fun j hj => ?_
  rw [slice, Vector.getElem_ofFn]
  exact dif_pos hj

end Mapping

namespace Painter

variable {Picture : Type} (P : Painter Picture)

/-- The picture was made for a buffer like this. -/
def Made (picture : Picture) (stride : ℕ) (w h : UInt32) : Prop :=
  P.stride picture = stride ∧ P.width picture = w ∧ P.height picture = h

/-- The closure of a redraw: it is given the whole mapping, and the renderer that was taken. -/
def closure (picture : Picture) (m : Mapping) (text : Option TextRenderer) :
    Option (Mapping × Option TextRenderer) :=
  let n := ShmDoubleBuffer.size (P.width picture) (P.height picture)
  (P.paint picture ⟨⟨m.slice n, []⟩, text⟩).map fun d => (m.write d.pixels.pixels, d.text)

/-- A client that paints, with these fonts if they were found. -/
def client (fonts : Option Fonts) :
    EventMachine (Client Mapping (Option TextRenderer)) (ClientEvent Picture) :=
  Wlcommon.client P.closure P.Made (fonts.map .new)

/-- A client that draws pictures. -/
def pictures : EventMachine (Client (Option Picture) Unit) (ClientEvent Picture) :=
  Wlcommon.client (fun picture _ _ => some (some picture, ())) P.Made ()

/-- The bytes are those of the picture, if there is one. -/
def Shows (fonts : Option Fonts) (m : Mapping) (drawn : Option Picture) : Prop :=
  ∀ picture ∈ drawn, P.render fonts (ShmDoubleBuffer.size (P.width picture) (P.height picture))
    picture = some (m.slice _)

/-- The two clients have drawn into the same buffers, the one a picture and the other its bytes. -/
def Drawn (fonts : Option Fonts) (s : Client Mapping (Option TextRenderer))
    (t : Client (Option Picture) Unit) : Prop :=
  List.Forall₂ (fun d d' => d.wlBuf = d'.wlBuf ∧ ∃ picture, d'.pixels = some picture ∧
    (P.width picture = d.w ∧ P.height picture = d.h) ∧
    P.render fonts (ShmDoubleBuffer.size d.w d.h) picture = some (d.pixels.slice _))
    s.frames t.frames

/-- **Exact.** In every run with addressable sizes no painting panics, and the frames are the bytes
of the pictures that the client of the model draws in the same run. -/
def Exact : Prop :=
  ∀ (fonts : Option Fonts) (s : Client Mapping (Option TextRenderer))
    (es : List (ClientEvent Picture)),
    (P.client fonts).Init s → (P.client fonts).Legal s es →
      ((P.client fonts).run s es).panicked = false ∧
        ∃ t, P.pictures.Init t ∧ P.pictures.Legal t es ∧
          P.Drawn fonts ((P.client fonts).run s es) (P.pictures.run t es)

/-! ## The closures -/

variable {P}

/-- A buffer of an addressable size is that of a picture that was made for it. -/
theorem fits_of_made {picture : Picture} {w h : UInt32}
    (haddr : ShmDoubleBuffer.Addressable w h) (hmade : P.Made picture (4 * w.toNat) w h) :
    P.Fits (ShmDoubleBuffer.size (P.width picture) (P.height picture)) picture := by
  obtain ⟨hstride, rfl, rfl⟩ := hmade
  exact ⟨hstride, by rw [ShmDoubleBuffer.size_eq haddr, hstride]⟩

/-- **The closures are in lockstep.** -/
theorem lockstep (fonts : Option Fonts) :
    Lockstep (P.Shows fonts) (fun text _ => Faithful fonts text) P.Made P.closure
      fun picture _ _ => some (some picture, ()) := by
  intro picture w h haddr hmade m _ text _ _ htext
  obtain ⟨d, hd, hrender, htext'⟩ := paint_eq_render (fits_of_made haddr hmade)
    (m.slice (ShmDoubleBuffer.size (P.width picture) (P.height picture))) htext
  rw [closure, hd]
  refine .some ⟨fun picture' hpicture' => ?_, htext'⟩
  obtain rfl := Option.some.inj hpicture'
  show _ = some ((m.write d.pixels.pixels).slice _)
  rw [Mapping.slice_write]
  exact hrender.symm

/-- A buffer that nothing was drawn into shows nothing. -/
theorem shows_default (fonts : Option Fonts) :
    P.Shows fonts Inhabited.default Inhabited.default := nofun

/-! ## The pictures -/

variable (P) in
/-- Nothing panicked, and what was drawn is a picture that was made for its buffer. -/
structure Pictured (t : Client (Option Picture) Unit) : Prop where
  panicked : t.panicked = false
  frames : ∀ d ∈ t.frames, ∃ picture, d.pixels = some picture ∧
    P.width picture = d.w ∧ P.height picture = d.h

/-- A redraw of a client that draws pictures is that of its model: `draw` with a closure that paints
the picture, whatever was there. -/
theorem draw_eq (t : Client (Option Picture) Unit) (i : ℕ) (pool : ShmDoubleBuffer (Option Picture))
    (picture : ℕ → UInt32 → UInt32 → Picture) :
    t.draw (fun picture _ _ => some (some picture, ())) i pool picture =
      match pool.draw t.shm fun _ stride w h => some (picture stride w h) with
      | (.error _, shm) => { t with shm := shm }
      | (.ok (pool, drawn), shm) =>
        { t with pools := t.pools.set i pool, shm := shm, frames := t.frames ++ [drawn] } := by
  rw [Client.draw, ShmDoubleBuffer.drawWith_some]
  rcases pool.draw t.shm fun _ stride w h => some (picture stride w h) with ⟨e | r, shm⟩
  · rfl
  · rfl

theorem pictured_draw {t : Client (Option Picture) Unit} (h : P.Pictured t) (i : ℕ)
    {pool : ShmDoubleBuffer (Option Picture)}
    (hsize : ∀ b ∈ pool.buffers, b.w = pool.w ∧ b.h = pool.h)
    {picture : ℕ → UInt32 → UInt32 → Picture}
    (hmade : ∀ stride w h, P.Made (picture stride w h) stride w h) :
    P.Pictured (t.draw (fun picture _ _ => some (some picture, ())) i pool picture) := by
  rw [Client.draw]
  split
  next hd =>
    rw [ShmDoubleBuffer.drawWith_some] at hd
    cases hd
  next => exact ⟨h.panicked, h.frames⟩
  next hd =>
    refine ⟨h.panicked, fun d hmem => ?_⟩
    rcases List.mem_append.mp hmem with hold | hnew
    · exact h.frames d hold
    · obtain rfl := List.mem_singleton.mp hnew
      obtain ⟨⟨pixels, stride, heq⟩, -⟩ := ShmDoubleBuffer.drawWith_ok hsize hd
      obtain ⟨-, hw, hh⟩ := hmade stride d.w d.h
      exact ⟨picture stride d.w d.h, (Prod.ext_iff.mp (Option.some.inj heq)).1.symm, hw, hh⟩

theorem pictured_step {t : Client (Option Picture) Unit} (h : P.Pictured t) (hsized : t.Sized)
    {e : ClientEvent Picture} (he : e.Proper P.Made) : P.Pictured (P.pictures.step t e) := by
  show P.Pictured (t.step _ e)
  cases e with
  | create w height =>
    rw [Client.step]
    split
    · exact ⟨h.panicked, h.frames⟩
    · exact ⟨h.panicked, h.frames⟩
  | drop i => exact ⟨h.panicked, h.frames⟩
  | draw i picture =>
    rw [Client.step]
    split
    next => exact h
    next hpool => exact pictured_draw h i (hsized _ (List.mem_of_getElem? hpool)).2 he
  | resize i w height =>
    rw [Client.step]
    split
    · exact ⟨h.panicked, h.frames⟩
    · exact ⟨h.panicked, h.frames⟩
  | release i wlBuf =>
    rw [Client.step]
    split
    · exact ⟨h.panicked, h.frames⟩
    · exact ⟨h.panicked, h.frames⟩

theorem pictured_run {t : Client (Option Picture) Unit} (h : P.Pictured t) (hsized : t.Sized)
    {es : List (ClientEvent Picture)} (hl : P.pictures.Legal t es) :
    P.Pictured (P.pictures.run t es) := by
  induction es generalizing t with
  | nil => exact h
  | cons e es ih =>
    obtain ⟨⟨-, he⟩, hrest⟩ := hl
    exact ih (pictured_step h hsized he) (hsized.step he) hrest

/-! ## The run -/

/-- **Every painter is exact.** -/
theorem exact (P : Painter Picture) : P.Exact := by
  rintro fonts ⟨pools, shm, text, frames, panicked⟩ es ⟨rfl, rfl, rfl, rfl⟩ hl
  let t : Client (Option Picture) Unit := ⟨[], shm, (), [], false⟩
  have halike : Client.Alike (P.Shows fonts) (fun text _ => Faithful fonts text)
      ⟨[], shm, fonts.map .new, [], false⟩ t :=
    ⟨.nil, rfl, faithful_new fonts, .nil, rfl⟩
  have hsized : t.Sized := nofun
  obtain ⟨hlegal, hrun⟩ := halike.run (shows_default fonts) (lockstep fonts) hsized ()
    hl
  have hstart : P.Pictured t := ⟨rfl, fun d hd => nomatch hd⟩
  have hpictured := pictured_run hstart hsized hlegal
  refine ⟨hrun.panicked.trans hpictured.panicked, t, ⟨rfl, rfl, rfl, rfl⟩, hlegal, ?_⟩
  refine List.forall₂_iff_get.mpr ⟨hrun.frames.length_eq, fun i hi hi' => ?_⟩
  have hframe := hrun.frames.get hi hi'
  obtain ⟨picture, hpixels, hw, hh⟩ := hpictured.frames _ (List.get_mem _ ⟨i, hi'⟩)
  have hshows := hframe.pixels picture hpixels
  have hw' := hw.trans hframe.w.symm
  have hh' := hh.trans hframe.h.symm
  rw [hw', hh'] at hshows
  exact ⟨hframe.wlBuf, picture, hpixels, ⟨hw', hh'⟩, hshows⟩

end Painter

end Theme

end Nullxes
