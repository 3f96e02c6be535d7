import Nullxes.Frame.IpcServer
import Nullxes.Frame.Render

/-!
# The compositor as a reaction to events

`NullxesState.react` is one turn of FRAME's event loop: a request of a client, an input event, a
control request, a signal or a frame. `NullxesState.Possible` says which events smithay can deliver
in a state. It is what the Wayland protocol guarantees and nothing more: objects are used while
they exist, a surface keeps its role, and a client's protocol ids are unique among its own live
objects and may be reused afterwards. `unlock` can come at any time: smithay calls it for the
`unlock_and_destroy` of any client, also of one whose lock was refused.

Two histories are not in the state: which toplevels were destroyed, and for which window each focus
slot was set. They are carried along beside it in `Nullxes.Frame.Desk`.
-/

namespace Nullxes

namespace Frame

/-- What the event loop reacts to. -/
inductive Event
  /-- A client makes a `wl_surface`. -/
  | createSurface (client : ClientId) (protocolId : UInt32)
  /-- A client commits new content. -/
  | commit (surface : WlSurface) (data : SurfaceData)
  /-- A `wl_surface` is gone, by request or with its client. -/
  | destroySurface (surface : WlSurface)
  | newToplevel (surface : WlSurface)
  /-- An `xdg_toplevel` is gone; its surface may live on. -/
  | toplevelDestroyed (toplevel : ToplevelSurface)
  | moveRequest (toplevel : ToplevelSurface) (serial : Serial)
  | newLayerSurface (surface : WlSurface) (layer : Layer) (wlOutput : Option OutputId)
  | layerDestroyed (surface : LayerSurface)
  | lock (client : ClientId)
  | newLockSurface (surface : WlSurface) (wlOutput : OutputId)
  | unlock
  | input (ev : NullxesState.InputEvent)
  /-- A control request; `disk` is the configuration found on disk. -/
  | ipc (req : Request) (disk : FrameConfig)
  /-- The winit window was resized. -/
  | resized (size : Point ℤ)
  /-- SIGTERM, SIGINT or SIGHUP. -/
  | signal
  /-- The session is paused, which clears the shutdown reason. -/
  | pauseSession
  | xwm (ready : Bool)
  /-- A frame is drawn; `painted` is what the panel modules paint. -/
  | redraw (painted : ℕ → ℕ → Rgba)

namespace NullxesState

variable (s : NullxesState)

/-! ## Smithay's bookkeeping -/

/-- The `wl_surface` the next `createSurface` makes. -/
def freshSurface (client : ClientId) (protocolId : UInt32) : WlSurface :=
  ⟨client, protocolId, s.compositorState.nextGeneration⟩

def createSurface (client : ClientId) (protocolId : UInt32) : NullxesState :=
  { s with
    compositorState :=
      { s.compositorState with
        alive := s.freshSurface client protocolId :: s.compositorState.alive
        nextGeneration := s.compositorState.nextGeneration + 1 } }

def commit (surface : WlSurface) (data : SurfaceData) : NullxesState :=
  { s with
    compositorState :=
      { s.compositorState with data := Function.update s.compositorState.data surface data } }

/-- A dead surface draws nothing, and a focus on it is reset. -/
def destroySurface (surface : WlSurface) : NullxesState :=
  let keep (f : PointerFocus) : PointerFocus :=
    if f.map Prod.fst = some surface then none else f
  { s with
    compositorState :=
      { s.compositorState with
        alive := s.compositorState.alive.filter (· ≠ surface)
        data := Function.update s.compositorState.data surface SurfaceData.initial }
    seat :=
      { keyboard := s.seat.keyboard.map fun k =>
          ⟨if k.focus = some surface then none else k.focus⟩
        pointer := s.seat.pointer.map fun p =>
          { p with focus := keep p.focus, pendingFocus := keep p.pendingFocus } } }

def setRole (surface : WlSurface) (role : Role) : NullxesState :=
  { s with
    compositorState :=
      { s.compositorState with role := Function.update s.compositorState.role surface (some role) } }

/-- The toplevel the next `newToplevel` makes. -/
def freshToplevel (surface : WlSurface) : ToplevelSurface := ⟨s.xdgShellState.nextUid, surface⟩

/-- Smithay registers a toplevel before it calls the handler. -/
def registerToplevel (surface : WlSurface) : NullxesState :=
  { s.setRole surface .toplevel with
    xdgShellState :=
      ⟨s.freshToplevel surface :: s.xdgShellState.toplevels, s.xdgShellState.nextUid + 1⟩ }

def forgetToplevel (t : ToplevelSurface) : NullxesState :=
  { s with
    xdgShellState := { s.xdgShellState with
      toplevels := s.xdgShellState.toplevels.filter (· ≠ t) } }

/-- The layer surface the next `newLayerSurface` makes. -/
def freshLayer (surface : WlSurface) (layer : Layer) : LayerSurface :=
  ⟨s.layerShellState.nextUid, surface, layer⟩

def registerLayer (surface : WlSurface) (layer : Layer) : NullxesState :=
  { s.setRole surface .layer with
    layerShellState :=
      ⟨s.freshLayer surface layer :: s.layerShellState.layers, s.layerShellState.nextUid + 1⟩ }

def forgetLayer (l : LayerSurface) : NullxesState :=
  { s with
    layerShellState := { s.layerShellState with
      layers := s.layerShellState.layers.filter (· ≠ l) } }

/-- The winit backend changes the mode of the primary output. -/
def resized (size : Point ℤ) : NullxesState :=
  match s.primary with
  | none => s
  | some o => s.setOutput { o with currentMode := some size }

/-! ## One turn of the event loop -/

/-- What FRAME does with an event. -/
def react : Event → NullxesState
  | .createSurface client protocolId => s.createSurface client protocolId
  | .commit surface data => s.commit surface data
  | .destroySurface surface => s.destroySurface surface
  | .newToplevel surface => (s.registerToplevel surface).newToplevel (s.freshToplevel surface)
  | .toplevelDestroyed t => (s.forgetToplevel t).toplevelDestroyed t
  | .moveRequest t serial => s.moveRequest t serial
  | .newLayerSurface surface layer wlOutput =>
    (s.registerLayer surface layer).newLayerSurface (s.freshLayer surface layer) wlOutput
  | .layerDestroyed l => (s.forgetLayer l).layerDestroyed l
  | .lock client =>
    { s with nextLocker := s.nextLocker + 1 }.lockSession ⟨client, s.nextLocker⟩
  | .newLockSurface surface wlOutput => (s.setRole surface .lock).newLockSurface ⟨surface⟩ wlOutput
  | .unlock => s.unlockSession
  | .input ev => s.processInputEvent ev
  | .ipc req disk => (s.handleRequestOnMain req disk).1
  | .resized size => s.resized size
  | .signal => { s with shutdownReason := true, stopped := true }
  | .pauseSession => { s with shutdownReason := false }
  | .xwm ready => { s with xwmReady := ready }
  | .redraw painted => s.updatePanelBitmap painted

/-- The surface can take this role: it exists and has no other role. -/
def CanTakeRole (surface : WlSurface) (role : Role) : Prop :=
  surface ∈ s.compositorState.alive ∧
    (s.compositorState.role surface = none ∨ s.compositorState.role surface = some role)

instance (surface : WlSurface) (role : Role) : Decidable (s.CanTakeRole surface role) :=
  inferInstanceAs (Decidable (_ ∧ _))

/-- No live object of the client uses the protocol id for a surface. -/
def IdFree (client : ClientId) (protocolId : UInt32) : Prop :=
  (∀ surface ∈ s.compositorState.alive,
      surface.client = client → surface.protocolId ≠ protocolId) ∧
    ∀ t ∈ s.xdgShellState.toplevels,
      t.wlSurface.client = client → t.wlSurface.protocolId ≠ protocolId

instance (client : ClientId) (protocolId : UInt32) : Decidable (s.IdFree client protocolId) :=
  inferInstanceAs (Decidable (_ ∧ _))

/-- Smithay can deliver the event in this state. -/
def Possible : Event → Prop
  | .createSurface client protocolId => s.IdFree client protocolId
  | .commit surface _ => surface ∈ s.compositorState.alive
  | .destroySurface surface => surface ∈ s.compositorState.alive
  | .newToplevel surface =>
    s.CanTakeRole surface .toplevel ∧ ∀ t ∈ s.xdgShellState.toplevels, t.wlSurface ≠ surface
  | .toplevelDestroyed t => t ∈ s.xdgShellState.toplevels
  | .moveRequest t _ => t ∈ s.xdgShellState.toplevels
  | .newLayerSurface surface _ _ =>
    s.CanTakeRole surface .layer ∧ ∀ l ∈ s.layerShellState.layers, l.wlSurface ≠ surface
  | .layerDestroyed l => l ∈ s.layerShellState.layers
  | .newLockSurface surface _ => s.CanTakeRole surface .lock
  | _ => True

instance (e : Event) : Decidable (s.Possible e) :=
  match e with
  | .createSurface client protocolId => inferInstanceAs (Decidable (s.IdFree client protocolId))
  | .commit surface _ => inferInstanceAs (Decidable (surface ∈ s.compositorState.alive))
  | .destroySurface surface => inferInstanceAs (Decidable (surface ∈ s.compositorState.alive))
  | .newToplevel surface =>
    inferInstanceAs (Decidable (s.CanTakeRole surface .toplevel ∧
      ∀ t ∈ s.xdgShellState.toplevels, t.wlSurface ≠ surface))
  | .toplevelDestroyed t => inferInstanceAs (Decidable (t ∈ s.xdgShellState.toplevels))
  | .moveRequest t _ => inferInstanceAs (Decidable (t ∈ s.xdgShellState.toplevels))
  | .newLayerSurface surface _ _ =>
    inferInstanceAs (Decidable (s.CanTakeRole surface .layer ∧
      ∀ l ∈ s.layerShellState.layers, l.wlSurface ≠ surface))
  | .layerDestroyed l => inferInstanceAs (Decidable (l ∈ s.layerShellState.layers))
  | .newLockSurface surface _ => inferInstanceAs (Decidable (s.CanTakeRole surface .lock))
  | .lock _ | .unlock | .input _ | .ipc _ _ | .resized _ | .signal | .pauseSession | .xwm _
  | .redraw _ => inferInstanceAs (Decidable True)

end NullxesState

end Frame

end Nullxes
