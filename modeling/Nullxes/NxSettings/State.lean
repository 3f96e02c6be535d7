import Nullxes.Ipc.Client
import Nullxes.NxSettings.Conf
import Nullxes.Wlcommon.Keymap
import Nullxes.Wlcommon.Shm

/-!
# The settings window

`nx-settings/src/state.rs`. `SettingsState` is what the window keeps; `handleAction` is what keys
do, `dispatch` the `Dispatch` implementations, one branch for each interface that does anything.

`Enter` starts a task that asks FRAME to reload its configuration and then writes to the status
line, which the window shares with it. What the tasks are doing is in `tasks`, in the order in which
they were started; the steps of a task are in `Reloads`.

What is in a buffer is a `Picture`: what `render::paint` was last given for it. The lines of a
section are read from the file of the configuration whenever the window is painted, so what
`load_frame` returns comes with the event.
-/

namespace Nullxes

namespace Frame

/-- `Display`. -/
def IpcError.display : IpcError → String
  | .versionMismatch supported =>
    s!"protocol version mismatch (server supports {supported.map UInt8.toNat})"
  | .busy => "server is busy; try again later"
  | .invalidRequest message => s!"invalid request: {message}"
  | .unknownKind => "unknown request kind"
  | .internal message => s!"internal compositor error: {message}"
  | .notImplemented => "not implemented"

end Frame

namespace NxSettings

open Wlcommon

/-! ## What is shown -/

/-- `Section`. -/
inductive Section
  | theme
  | input
  | idle
  | about
  deriving DecidableEq, Repr

namespace Section

/-- `Section::label`. -/
def label : Section → String
  | theme => "Theme"
  | input => "Input"
  | idle => "Idle"
  | about => "About"

/-- `Section::title`. -/
def title : Section → String
  | theme => "Theme"
  | input => "Input"
  | idle => "Idle & Lock"
  | about => "About"

def up : Section → Section
  | theme => about
  | input => theme
  | idle => input
  | about => idle

def down : Section → Section
  | theme => input
  | input => idle
  | idle => about
  | about => theme

end Section

/-- `UiState`. -/
structure UiState where
  /-- `section`. -/
  sect : Section
  status : Option String
  deriving DecidableEq, Repr

/-- What the lines of a section quote of its surroundings: the paths, the version, and `{:?}` of a
string. -/
structure Context where
  themePath : String
  socketPath : String
  version : String
  debug : String → String

/-- `UiState::body_lines`. -/
def UiState.bodyLines (ui : UiState) (ctx : Context) (cfg : FrameConfFile) : List String :=
  match ui.sect with
  | .theme =>
    [s!"Theme file: {ctx.themePath}", "Edit theme.toml to change accent and surface colours.",
      "After saving, press Enter to push reload to FRAME."]
  | .input =>
    [s!"xkb_layout      = {ctx.debug cfg.input.xkbLayout}",
      s!"xkb_variant     = {ctx.debug cfg.input.xkbVariant}",
      s!"repeat_delay_ms = {cfg.input.repeatDelay.toInt}",
      s!"repeat_rate_hz  = {cfg.input.repeatRate.toInt}",
      s!"natural_scroll  = {cfg.input.naturalScroll}",
      s!"tap_to_click    = {cfg.input.tapToClick}"]
  | .idle =>
    [s!"dim_ms     = {cfg.idle.dimMs.toNat}", s!"lock_ms    = {cfg.idle.lockMs.toNat}",
      s!"suspend_ms = {cfg.idle.suspendMs.toNat}",
      "(Edit values in frame.toml then press Enter to reload.)"]
  | .about =>
    [s!"NX-SETTINGS {ctx.version}", s!"FRAME socket: {ctx.socketPath}",
      "Press Enter to ping FRAME for state."]

/-- What `render::paint` was last given for a buffer. -/
structure Picture where
  stride : ℕ
  width : UInt32
  height : UInt32
  ui : UiState
  lines : List String
  deriving DecidableEq, Repr

/-! ## Reloading -/

/-- `RECONNECT_INITIAL_MS`. -/
def reconnectInitialMs : ℕ := 100

/-- `RECONNECT_CAP_MS`. -/
def reconnectCapMs : ℕ := 5000

/-- `RECONNECT_MAX_TRIES`. -/
def reconnectMaxTries : ℕ := 32

/-- What `reload_frame` fails with: the context of the call that failed, or what FRAME answered. -/
inductive ReloadError
  | connect
  | send
  | server (error : Frame.IpcError)
  deriving DecidableEq, Repr

/-- `Display` of it. -/
def ReloadError.display : ReloadError → String
  | connect => "connect to FRAME ipc"
  | send => "send ReloadConfig"
  | server error => error.display

/-- `reload_frame` from what `request` returns. -/
def reloadFrame : Except Ipc.ClientError Frame.Response → Except ReloadError Unit
  | .ok (.ok _) => .ok ()
  | .ok (.err error) => .error (.server error)
  | .error _ => .error .send

/-- The status that `Enter` sets. -/
def reloading : String := "Reloading FRAME…"

/-- The status that the task sets. -/
def reloaded : Except ReloadError Unit → String
  | .ok _ => "FRAME reloaded"
  | .error e => s!"FRAME reload failed: {e.display}"

/-- Where a task is. -/
inductive ReloadStep
  /-- In `Client::connect`: the number of the attempt, and how long it sleeps when it fails. -/
  | connecting (attempt delayMs : ℕ)
  /-- In `request`. -/
  | requesting
  /-- `reload_frame` has returned. -/
  | reporting (result : Except ReloadError Unit)
  | finished (result : Except ReloadError Unit)
  /-- It was dropped when the process ended. -/
  | aborted
  deriving DecidableEq, Repr

/-- A task that `Enter` has started, with the number of its connection once it has one. -/
structure ReloadTask where
  conn : Option ℕ
  step : ReloadStep
  deriving DecidableEq, Repr

/-- `reload_frame` up to the first attempt to connect. -/
def ReloadTask.spawned : ReloadTask := ⟨none, .connecting 1 reconnectInitialMs⟩

/-! ## The state -/

/-- `render::W`. -/
def width : UInt32 := 720

/-- `render::H`. -/
def height : UInt32 := 520

/-- What the window asks of the compositor, once it has its globals. -/
inductive WlRequest
  /-- `init_surface`. -/
  | surface
  | ackConfigure (serial : UInt32)
  | getKeyboard
  | pong (serial : UInt32)
  | attachAndCommit (buffer : DrawnBuffer (Option Picture))
  | shm (r : ShmRequest)
  deriving DecidableEq, Repr

/-- `SettingsState`. -/
structure SettingsState where
  shm : Shm
  /-- `surface.is_some()`. -/
  surface : Bool
  /-- `keyboard.is_some()`. -/
  keyboard : Bool
  keymap : KeyboardState
  buffer : Option (ShmDoubleBuffer (Option Picture))
  width : UInt32
  height : UInt32
  configured : Bool
  shouldClose : Bool
  ui : UiState
  tasks : List ReloadTask
  sent : List WlRequest

/-- What the compositor tells the window, of what any branch of `dispatch` looks at; `disk` is what
`load_frame` returns if the window is painted. -/
inductive WindowEvent
  /-- `xdg_wm_base.ping`. -/
  | ping (serial : UInt32)
  /-- `xdg_surface.configure`. -/
  | configure (serial : UInt32) (disk : FrameConfFile)
  /-- `xdg_toplevel.close`. -/
  | close
  /-- `wl_seat.capabilities`. -/
  | capabilities (keyboard : Bool)
  /-- `wl_keyboard.keymap`, with what its descriptor gives. -/
  | keymap (xkbV1 : Bool) (loaded : Option Keymap)
  | modifiers (mods : ModifierMasks)
  | key (key : UInt32) (pressed : Bool) (disk : FrameConfFile)
  /-- `wl_buffer.release`. -/
  | release (wlBuf : ℕ)
  | other

namespace SettingsState

/-- `SettingsState::new`. -/
def new (failure : ℕ → Option String) : SettingsState where
  shm := ⟨0, failure, []⟩
  surface := false
  keyboard := false
  keymap := .new
  buffer := none
  width := NxSettings.width
  height := NxSettings.height
  configured := false
  shouldClose := false
  ui := ⟨.theme, none⟩
  tasks := []
  sent := []

variable (ctx : Context) (s : SettingsState)

/-- A request is made. -/
def request (r : WlRequest) : SettingsState := { s with sent := s.sent ++ [r] }

/-- `init_surface`. -/
def initSurface : SettingsState := { s.request .surface with surface := true }

/-- What the closure of `redraw` paints, whatever was there. -/
def picture (disk : FrameConfFile) (_ : Option Picture) (stride : ℕ) (w h : UInt32) :
    Option Picture :=
  some ⟨stride, w, h, s.ui, s.ui.bodyLines ctx disk⟩

/-- Store what `ShmDoubleBuffer` left of the `wl_shm` global; what it requested was requested. -/
def setShm (shm : Shm) : SettingsState :=
  { s with shm := { shm with sent := [] }, sent := s.sent ++ shm.sent.map .shm }

/-- The pool, made when there is none yet. -/
def pool : Option (ShmDoubleBuffer (Option Picture)) × Shm :=
  match s.buffer with
  | some pool => (some pool, s.shm)
  | none =>
    match ShmDoubleBuffer.new s.shm s.width s.height with
    | (.ok b, shm) => (some b, shm)
    | (.error _, shm) => (none, shm)

/-- `redraw`. -/
def redraw (disk : FrameConfFile) : SettingsState :=
  if !s.configured then s
  else
    let (buffer, shm) := s.pool
    let s := { s.setShm shm with buffer := buffer }
    match buffer with
    | none => s
    | some pool =>
      let (drawn, shm) := pool.draw s.shm (s.picture ctx disk)
      let s := s.setShm shm
      match drawn with
      | .error _ => s
      | .ok (pool, drawn) =>
        let s := { s with buffer := some pool }
        if s.surface then s.request (.attachAndCommit drawn) else s

/-- What `handle_action` does before it redraws. -/
def act (action : Action) : SettingsState :=
  match action with
  | .up => { s with ui := { s.ui with sect := s.ui.sect.up } }
  | .down => { s with ui := { s.ui with sect := s.ui.sect.down } }
  | .enter =>
    { s with ui := { s.ui with status := some reloading }, tasks := s.tasks ++ [.spawned] }
  | .escape => { s with shouldClose := true }
  | _ => s

/-- `handle_action`. -/
def handleAction (action : Action) (disk : FrameConfFile) : SettingsState :=
  (s.act action).redraw ctx disk

/-- `Dispatch<WlSeat>`. -/
def dispatchCapabilities (keyboard : Bool) : SettingsState :=
  if keyboard && !s.keyboard then { s.request .getKeyboard with keyboard := true } else s

/-- `Dispatch<WlKeyboard>`, `key`. -/
def dispatchKey (key : UInt32) (pressed : Bool) (disk : FrameConfFile) : SettingsState :=
  if pressed then
    match s.keymap.processKey key with
    | .action a => s.handleAction ctx a disk
    | _ => s
  else s

/-- The `Dispatch` implementations. -/
def dispatch : WindowEvent → SettingsState
  | .ping serial => s.request (.pong serial)
  | .configure serial disk =>
    redraw ctx { s.request (.ackConfigure serial) with configured := true } disk
  | .close => { s with shouldClose := true }
  | .capabilities keyboard => s.dispatchCapabilities keyboard
  | .keymap xkbV1 loaded =>
    if xkbV1 then { s with keymap := s.keymap.applyKeymap loaded } else s
  | .modifiers mods => { s with keymap := s.keymap.updateModifiers mods }
  | .key key pressed disk => s.dispatchKey ctx key pressed disk
  | .release wlBuf => { s with buffer := s.buffer.map fun b => b.markReleased wlBuf }
  | .other => s

end SettingsState

end NxSettings

end Nullxes
