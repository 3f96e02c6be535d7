import Nullxes.Frame.Workspace

/-!
# The compositor state

`state.rs`: `NullxesState` is the single record every handler reads and writes. It holds smithay's
protocol state, the layout, the lock, the panel and the seat. `effects` is the list of what has
left the compositor so far, in order; a handler only ever appends to it.

The fields of `FrameConfig` are the ones the modelled handlers read. A panel is its bitmap: what
its modules paint into it is an input of the frame that paints it.
-/

namespace Nullxes

namespace Frame

/-! ## Configuration -/

/-- `WorkspaceConfig`. -/
structure WorkspaceConfig where
  count : UInt8 := 9
  wrap : Bool := false
  deriving DecidableEq, Repr

/-- `KeybindingConfig`. -/
structure KeybindingConfig where
  launcherBinary : String := "nullxes-launcher"
  lockBinary : String := "nullxes-lock"
  deriving DecidableEq, Repr

/-- `FrameConfig`. -/
structure FrameConfig where
  workspace : WorkspaceConfig := {}
  keybindings : KeybindingConfig := {}
  deriving DecidableEq, Repr

/-! ## Session lock -/

/-- `LockSession`. -/
structure LockSession where
  locker : SessionLocker
  surfaces : List LockSurface
  deriving DecidableEq, Repr

/-! ## Panel -/

/-- `theme::spacing::height::PANEL`. -/
def panelHeight : ℕ := 48

/-- `PanelBitmap`; the `dirty` flag is written and never read. -/
structure PanelBitmap where
  buffer : Buffer
  generation : UInt64

/-- A buffer of the given size with every byte zero. -/
def Buffer.zero (width height : ℕ) : Buffer := ⟨width, height, fun _ _ => ⟨0, 0, 0, 0⟩⟩

/-- `PanelBitmap::resize`. -/
def PanelBitmap.resize (b : PanelBitmap) (width height : ℕ) : PanelBitmap :=
  if b.buffer.width = width ∧ b.buffer.height = height then b
  else ⟨Buffer.zero width height, b.generation + 1⟩

/-- `PanelOverlay::render` followed by nothing else touching the bitmap: every pixel is repainted
and the generation advances. `painted` is what the panel and its modules paint. -/
def PanelBitmap.render (b : PanelBitmap) (painted : ℕ → ℕ → Rgba) : PanelBitmap :=
  ⟨{ b.buffer with pixel := painted }, b.generation + 1⟩

/-! ## Seat -/

/-- `MoveSurfaceGrab` of `input/move_grab.rs`; its `start_data` is the pointer grab's. -/
structure MoveSurfaceGrab where
  window : Window
  initialWindowLocation : Point ℤ
  deriving DecidableEq, Repr

/-- `Seat`: the keyboard is missing when `add_keyboard` failed. -/
structure Seat where
  keyboard : Option KeyboardHandle
  pointer : Option (PointerHandle MoveSurfaceGrab)

/-! ## The state -/

/-- `NullxesState`. -/
structure NullxesState where
  compositorState : CompositorState
  xdgShellState : XdgShellState
  layerShellState : WlrLayerShellState
  workspaces : Workspaces
  workspaceMgr : WorkspaceManager
  /-- Every output with a global, in creation order. -/
  outputs : List Output
  primaryOutput : Option OutputId
  lock : Option LockSession
  /-- `xwm.wm.is_some()`. -/
  xwmReady : Bool
  panel : PanelBitmap
  /-- `PANEL_MEMORY`. -/
  panelMemory : Option Buffer
  /-- `PANEL_GEN`. -/
  panelGen : UInt64
  config : FrameConfig
  /-- `loop_signal.stop()` was called. -/
  stopped : Bool
  seat : Seat
  /-- `shutdown_reason.is_some()`. -/
  shutdownReason : Bool
  /-- `SERIAL_COUNTER`. -/
  serial : Serial
  /-- The number of `ext_session_lock_v1` objects made so far. -/
  nextLocker : ℕ
  effects : List Effect

namespace NullxesState

/-- `NullxesState::new` with the outputs the backend brings up, all of them mapped in every space,
the last one primary, and with or without a keyboard. -/
def new (config : FrameConfig) (modes : List (Point ℤ)) (keyboard : Bool) : NullxesState where
  compositorState := ⟨[], fun _ => SurfaceData.initial, fun _ => none, 0⟩
  xdgShellState := ⟨[], 0⟩
  layerShellState := ⟨[], 0⟩
  workspaces := Workspaces.new config.workspace.count
  workspaceMgr := WorkspaceManager.new config.workspace.count
  outputs := modes.zipIdx.map fun m => ⟨m.2, some m.1, []⟩
  primaryOutput := if modes = [] then none else some (modes.length - 1)
  lock := none
  xwmReady := false
  panel := ⟨Buffer.zero 1920 panelHeight, 0⟩
  panelMemory := none
  panelGen := 0
  config := config
  stopped := false
  seat := ⟨if keyboard then some ⟨none⟩ else none, some PointerHandle.initial⟩
  shutdownReason := false
  serial := 0
  nextLocker := 0
  effects := []

variable (s : NullxesState)

/-- `Output::from_resource`. -/
def output (id : OutputId) : Option Output := s.outputs.find? fun o => o.id = id

/-- `primary_output.as_ref()`. -/
def primary : Option Output := s.primaryOutput.bind s.output

/-- Replace an output's record. -/
def setOutput (o : Output) : NullxesState :=
  { s with outputs := s.outputs.map fun o' => if o'.id = o.id then o else o' }

/-- `active_space`. -/
def activeSpace : Space := s.workspaces.active s.workspaceMgr.activeIndex

/-- `active_space_mut` followed by a change of the space it returns. -/
def activeSpaceMut (f : Space → Space) : NullxesState :=
  { s with workspaces := s.workspaces.activeMut s.workspaceMgr.activeIndex f }

/-- `primary_output` and then `output_geometry`, with the fallback every caller uses. -/
def primaryGeometry : Rect :=
  (s.primary.bind Output.geometry).getD ⟨(0, 0), (1920, 1080)⟩

/-- Something leaves the compositor. -/
def emit (es : List Effect) : NullxesState := { s with effects := s.effects ++ es }

/-- `SERIAL_COUNTER.next_serial()`. -/
def nextSerial : NullxesState := { s with serial := s.serial + 1 }

theorem seat_nextSerial : s.nextSerial.seat = s.seat := rfl

/-- Store the pointer after one of smithay's inner operations, with what it sent. -/
def setPointer (r : PointerHandle MoveSurfaceGrab × List Effect) : NullxesState :=
  { s with seat := { s.seat with pointer := some r.1 }, effects := s.effects ++ r.2 }

/-- The keyboard focus; `none` without a keyboard. -/
def keyboardFocus : Option WlSurface := s.seat.keyboard.bind KeyboardHandle.focus

/-- `if let Some(kbd) = self.seat.get_keyboard() { kbd.set_focus(self, focus, serial) }`: the old
focus gets `leave`, the new one `enter`, and nothing is sent when the focus stays. -/
def setKeyboardFocus (focus : Option WlSurface) : NullxesState :=
  match s.seat.keyboard with
  | none => s
  | some kbd =>
    { s with
      seat := { s.seat with keyboard := some ⟨focus⟩ }
      effects := s.effects ++
        if kbd.focus = focus then []
        else (kbd.focus.map Effect.keyboardLeave).toList ++
          (focus.map Effect.keyboardEnter).toList }

/-- What the client has committed to a surface. -/
def surfaceData (surface : WlSurface) : SurfaceData := s.compositorState.data surface

/-- `Window::surface_under` at a window-local point. -/
def windowSurfaceUnder (w : Window) (p : Point ℚ) : Option (WlSurface × Point ℤ) :=
  w.wlSurface.bind fun surface => (s.surfaceData surface).under p

/-- `Space::element_under`: the topmost window that takes input at the point, and its location. -/
def elementUnder (space : Space) (p : Point ℚ) : Option (Window × Point ℤ) :=
  space.topmost fun e => (s.windowSurfaceUnder e.1 (p - toF64 e.2)).isSome

end NullxesState

end Frame

end Nullxes
