import Mathlib.Algebra.Order.Floor.Defs
import Mathlib.Data.Rat.Floor
import Nullxes.Library.Compositing
import Nullxes.Library.ZStack

/-!
# What FRAME uses of smithay

FRAME is written against smithay: surfaces, windows, spaces, outputs, seats and the session-lock
objects are smithay's. This module has the part of them that FRAME's own functions read or write,
following the documented behaviour; nothing here is FRAME's code.

## Representation

* `i32` logical coordinates are integers and `f64` ones are rationals, so there is no rounding
  except where the source rounds.
* A client's surface is the identity smithay compares (`WlSurface`). What the client has
  committed to it, and which point of it takes input, is `SurfaceData`, looked up by surface.
* A space is a `ZStack` of windows: `Space::map_element` is `place`, `unmap_elem` is `remove`,
  `raise_element` is `raise`, and `elements()` runs bottom to top.
* Objects that smithay identifies by an allocation carry a number that is never reused.
* `wl_pointer.frame` closes a group of pointer events and carries nothing, so it is not logged.
-/

namespace Nullxes

namespace Frame

/-! ## Geometry -/

/-- A point, or a vector, with `x` and `y`. -/
abbrev Point (α : Type) := α × α

/-- `Point::<i32>::to_f64`. -/
def toF64 (p : Point ℤ) : Point ℚ := (p.1, p.2)

/-- `f64::round`: to the nearest integer, halves away from zero. -/
def roundF64 (q : ℚ) : ℤ := if 0 ≤ q then (q + 1 / 2).floor else -(-q + 1 / 2).floor

/-- `Point::<f64>::to_i32_round`. -/
def toI32Round (p : Point ℚ) : Point ℤ := (roundF64 p.1, roundF64 p.2)

/-- `f64::clamp`. -/
def clampF64 (x lo hi : ℚ) : ℚ := max lo (min x hi)

/-- `Rectangle<i32>`. -/
structure Rect where
  loc : Point ℤ
  size : Point ℤ
  deriving DecidableEq, Repr

/-- `Rectangle::to_f64().contains(point)`: half-open on the right and at the bottom. -/
def Rect.contains (r : Rect) (p : Point ℚ) : Bool :=
  r.loc.1 ≤ p.1 ∧ p.1 < r.loc.1 + r.size.1 ∧ r.loc.2 ≤ p.2 ∧ p.2 < r.loc.2 + r.size.2

/-! ## Colours and render elements -/

/-- A premultiplied colour. -/
structure Rgba where
  r : ℚ
  g : ℚ
  b : ℚ
  a : ℚ
  deriving DecidableEq, Repr

/-- Premultiplied source-over. -/
def Rgba.over (src dst : Rgba) : Rgba where
  r := src.r + (1 - src.a) * dst.r
  g := src.g + (1 - src.a) * dst.g
  b := src.b + (1 - src.a) * dst.b
  a := src.a + (1 - src.a) * dst.a

/-- The pixels of a buffer. -/
structure Buffer where
  width : ℕ
  height : ℕ
  pixel : ℕ → ℕ → Rgba

/-- A buffer at a physical location of the output. -/
structure RenderElement where
  location : Point ℤ
  buffer : Buffer

/-- The element's buffer has a pixel at `p`. -/
def RenderElement.Covers (e : RenderElement) (p : Point ℤ) : Prop :=
  0 ≤ p.1 - e.location.1 ∧ p.1 - e.location.1 < e.buffer.width ∧
    0 ≤ p.2 - e.location.2 ∧ p.2 - e.location.2 < e.buffer.height

instance (e : RenderElement) (p : Point ℤ) : Decidable (e.Covers p) :=
  inferInstanceAs (Decidable (_ ∧ _ ∧ _ ∧ _))

/-- Drawing an element over what is behind it. -/
def RenderElement.ink (e : RenderElement) : Compositing.Ink (Point ℤ) Rgba := fun p c =>
  if e.Covers p then
    (e.buffer.pixel (p.1 - e.location.1).toNat (p.2 - e.location.2).toNat).over c
  else c

/-! ## Surfaces -/

abbrev ClientId := ℕ

/-- A `wl_surface`. `protocol_id` is the number the client chose, unique only among that client's
live objects; `generation` is what makes two uses of one number different objects. -/
structure WlSurface where
  client : ClientId
  protocolId : UInt32
  generation : ℕ
  deriving DecidableEq, Repr

/-- The role a `wl_surface` was given; it never changes once set. -/
inductive Role
  | toplevel
  | layer
  | lock
  deriving DecidableEq, Repr

/-- What a client has committed to a surface. -/
structure SurfaceData where
  /-- The surface tree front to back: buffers with their offsets from the root. -/
  tree : List (Point ℤ × Buffer)
  /-- `surface_under`: the surface of the tree that takes input at a root-local point, and its
  root-local origin. -/
  under : Point ℚ → Option (WlSurface × Point ℤ)
  /-- The bounding box of the tree. -/
  bbox : Rect
  /-- For a layer surface, where `LayerMap::arrange` puts it. -/
  layerLoc : Point ℤ

/-- A surface nothing was committed to. -/
def SurfaceData.initial : SurfaceData := ⟨[], fun _ => none, ⟨(0, 0), (0, 0)⟩, (0, 0)⟩

/-- `AsRenderElements::render_elements` of a surface tree placed at `location`. -/
def SurfaceData.renderElements (d : SurfaceData) (location : Point ℤ) : List RenderElement :=
  d.tree.map fun t => ⟨location + t.1, t.2⟩

/-- `CompositorState` and the per-surface data smithay keeps. -/
structure CompositorState where
  alive : List WlSurface
  data : WlSurface → SurfaceData
  role : WlSurface → Option Role
  nextGeneration : ℕ

/-- An `xdg_toplevel` with its surface; `uid` is the identity of the protocol object. -/
structure ToplevelSurface where
  uid : ℕ
  wlSurface : WlSurface
  deriving DecidableEq, Repr

/-- `XdgShellState`: the toplevels that exist. -/
structure XdgShellState where
  toplevels : List ToplevelSurface
  nextUid : ℕ

/-- `desktop::Window` made by `Window::new_wayland_window`. One window is made for each toplevel,
so two windows are the same allocation exactly when their toplevels are the same object. -/
structure Window where
  toplevelSurface : ToplevelSurface
  deriving DecidableEq, Repr

/-- `Window::new_wayland_window`. -/
def Window.newWaylandWindow (t : ToplevelSurface) : Window := ⟨t⟩

/-- `Window::wl_surface`. It is `None` only for X11 windows, which FRAME never puts in a space. -/
def Window.wlSurface (w : Window) : Option WlSurface := some w.toplevelSurface.wlSurface

/-- `Window::toplevel`. -/
def Window.toplevel (w : Window) : Option ToplevelSurface := some w.toplevelSurface

@[simp] theorem Window.wlSurface_eq (w : Window) :
    w.wlSurface = some w.toplevelSurface.wlSurface := rfl

/-- `desktop::Space<Window>`. -/
abbrev Space := ZStack Window (Point ℤ)

/-! ## Layers and outputs -/

inductive Layer
  | background
  | bottom
  | top
  | overlay
  deriving DecidableEq, Repr

/-- A `zwlr_layer_surface_v1` with its surface and layer. -/
structure LayerSurface where
  uid : ℕ
  wlSurface : WlSurface
  layer : Layer
  deriving DecidableEq, Repr

/-- `WlrLayerShellState`: the layer surfaces that exist. -/
structure WlrLayerShellState where
  layers : List LayerSurface
  nextUid : ℕ

abbrev OutputId := ℕ

/-- An output with a global: its current mode and its `LayerMap`, in mapping order. The scale is
never changed from its default of one, and every output sits at `(0, 0)` of every space. -/
structure Output where
  id : OutputId
  currentMode : Option (Point ℤ)
  layerMap : List LayerSurface
  deriving DecidableEq, Repr

/-- `LayerMap::layers_on`. -/
def Output.layersOn (o : Output) (l : Layer) : List LayerSurface :=
  o.layerMap.filter fun s => s.layer = l

/-- `Space::output_geometry` of an output mapped at `(0, 0)`. -/
def Output.geometry (o : Output) : Option Rect := o.currentMode.map fun size => ⟨(0, 0), size⟩

/-! ## Session lock objects -/

/-- `SessionLocker`: the pending `ext_session_lock_v1` of a client. -/
structure SessionLocker where
  client : ClientId
  uid : ℕ
  deriving DecidableEq, Repr

/-- `LockSurface`. -/
structure LockSurface where
  wlSurface : WlSurface
  deriving DecidableEq, Repr

/-! ## What smithay sends -/

/-- Events that leave the compositor, and the two kinds of processes it starts. -/
inductive Effect
  | keyboardEnter (surface : WlSurface)
  | keyboardLeave (surface : WlSurface)
  /-- A key forwarded to the focused client. -/
  | key (surface : WlSurface) (keysym : ℕ) (pressed : Bool)
  | pointerEnter (surface : WlSurface)
  | pointerLeave (surface : WlSurface)
  | pointerMotion (surface : WlSurface)
  | pointerButton (surface : WlSurface) (button : ℕ) (pressed : Bool)
  | pointerAxis (surface : WlSurface)
  /-- The key filter intercepted a key: a compositor shortcut ran. -/
  | intercepted (keysym : ℕ)
  /-- `xdg_toplevel.close`. -/
  | sendClose (toplevel : ToplevelSurface)
  /-- A binary spawned detached. -/
  | spawned (bin : String)
  /-- `zwlr_layer_surface_v1.closed`. -/
  | layerClosed (surface : WlSurface)
  /-- `ext_session_lock_surface_v1.configure`. -/
  | lockConfigure (surface : LockSurface) (size : Point ℤ)
  /-- `ext_session_lock_v1.locked`, sent by `SessionLocker::lock`. -/
  | locked (locker : SessionLocker)
  /-- `ext_session_lock_v1.finished`, sent when a `SessionLocker` is dropped. -/
  | finished (locker : SessionLocker)
  deriving DecidableEq, Repr

/-- The surface an input event is delivered to. -/
def Effect.inputTarget : Effect → Option WlSurface
  | .keyboardEnter s | .keyboardLeave s | .key s _ _ => some s
  | .pointerEnter s | .pointerLeave s | .pointerMotion s | .pointerButton s _ _
  | .pointerAxis s => some s
  | _ => none

/-! ## Seat -/

abbrev Serial := ℕ

/-- `KeyboardHandle`: the surface with keyboard focus. -/
structure KeyboardHandle where
  focus : Option WlSurface
  deriving DecidableEq, Repr

/-- The surface under the pointer with its global origin. -/
abbrev PointerFocus := Option (WlSurface × Point ℤ)

/-- `GrabStartData`. -/
structure GrabStartData where
  focus : PointerFocus
  button : ℕ
  location : Point ℚ
  deriving DecidableEq

/-- The active pointer grab: smithay's own `ClickGrab`, or one the compositor defines. -/
inductive PointerGrab (G : Type)
  | click (startData : GrabStartData)
  | custom (startData : GrabStartData) (grab : G)

def PointerGrab.startData {G : Type} : PointerGrab G → GrabStartData
  | .click d => d
  | .custom d _ => d

/-- `PointerHandle`. -/
structure PointerHandle (G : Type) where
  location : Point ℚ
  focus : PointerFocus
  /-- The focus last passed to `motion`, restored when a grab ends. -/
  pendingFocus : PointerFocus
  pressed : List ℕ
  grab : Option (Serial × PointerGrab G)

namespace PointerHandle

variable {G : Type}

/-- A pointer nothing has happened to. -/
def initial : PointerHandle G := ⟨(0, 0), none, none, [], none⟩

/-- A grab whose start focus is no longer alive is discarded before it is used. -/
def dropDeadGrab (ptr : PointerHandle G) (alive : List WlSurface) : PointerHandle G :=
  match ptr.grab with
  | some (_, g) =>
    match g.startData.focus with
    | some (f, _) => if f ∈ alive then ptr else { ptr with grab := none }
    | none => ptr
  | none => ptr

theorem grab_dropDeadGrab (ptr : PointerHandle G) (alive : List WlSurface) :
    (ptr.dropDeadGrab alive).grab = ptr.grab ∨ (ptr.dropDeadGrab alive).grab = none := by
  rw [dropDeadGrab]
  split
  · split
    · split
      · exact .inl rfl
      · exact .inr rfl
    · exact .inl rfl
  · exact .inl rfl

/-- Whether a grab is discarded does not depend on the pending focus. -/
theorem grab_dropDeadGrab_pendingFocus (ptr : PointerHandle G) (f : PointerFocus)
    (alive : List WlSurface) :
    ({ ptr with pendingFocus := f }.dropDeadGrab alive).grab = (ptr.dropDeadGrab alive).grab := by
  simp only [dropDeadGrab]
  rcases hg : ptr.grab with _ | ⟨serial, g⟩
  · simp [hg]
  · rcases hf : g.startData.focus with _ | ⟨f', origin⟩
    · simp [hf, hg]
    · by_cases ha : f' ∈ alive <;> simp [hf, hg, ha]

/-- `PointerInnerHandle::motion`: move the pointer and its focus, and tell the clients. -/
def innerMotion (ptr : PointerHandle G) (focus : PointerFocus) (location : Point ℚ) :
    PointerHandle G × List Effect :=
  ({ ptr with location := location, focus := focus },
    if ptr.focus.map Prod.fst = focus.map Prod.fst then
      (focus.map fun f => Effect.pointerMotion f.1).toList
    else
      (ptr.focus.map fun f => Effect.pointerLeave f.1).toList ++
        (focus.map fun f => Effect.pointerEnter f.1).toList)

/-- `PointerInnerHandle::button`. -/
def innerButton (ptr : PointerHandle G) (button : ℕ) (pressed : Bool) : List Effect :=
  (ptr.focus.map fun f => Effect.pointerButton f.1 button pressed).toList

/-- `PointerInnerHandle::unset_grab` with the focus restored. -/
def unsetGrab (ptr : PointerHandle G) : PointerHandle G × List Effect :=
  { ptr with grab := none }.innerMotion ptr.pendingFocus ptr.location

/-- `DefaultGrab::button`: a press starts a click grab. -/
def defaultGrabButton (ptr : PointerHandle G) (button : ℕ) (pressed : Bool) (serial : Serial) :
    PointerHandle G × List Effect :=
  let start := ⟨ptr.focus, button, ptr.location⟩
  (if pressed then { ptr with grab := some (serial, .click start) } else ptr,
    ptr.innerButton button pressed)

/-- `ClickGrab::button`: the grab ends when no button is held. -/
def clickGrabButton (ptr : PointerHandle G) (button : ℕ) (pressed : Bool) :
    PointerHandle G × List Effect :=
  let sent := ptr.innerButton button pressed
  if ptr.pressed.isEmpty then (ptr.unsetGrab.1, sent ++ ptr.unsetGrab.2) else (ptr, sent)

/-- `PointerHandle::has_grab`. -/
def hasGrab (ptr : PointerHandle G) (serial : Serial) : Bool :=
  (ptr.grab.map Prod.fst) = some serial

/-- `PointerHandle::grab_start_data`. -/
def grabStartData (ptr : PointerHandle G) : Option GrabStartData :=
  ptr.grab.map fun g => g.2.startData

/-- `PointerHandle::set_grab` with `Focus::Clear`. -/
def setGrab (ptr : PointerHandle G) (grab : PointerGrab G) (serial : Serial) :
    PointerHandle G × List Effect :=
  { ptr with grab := some (serial, grab) }.innerMotion none ptr.location

end PointerHandle

end Frame

end Nullxes
