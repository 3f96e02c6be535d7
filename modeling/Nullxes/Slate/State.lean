import Nullxes.Wlcommon.Keymap
import Nullxes.Wlcommon.Shm

/-!
# The terminal emulator

`slate/src/state.rs`, `term.rs` and the cell grid of `render.rs`. `SlateState` is what the Wayland
thread keeps; `dispatch` are the `Dispatch` implementations, one branch for each interface that
does anything, and `drain` is what the main loop does after them.

## Representation

* The grid of the `Term` is shared under a lock and resized on the spot. The PTY belongs to the
  event loop, a thread of its own: `Notifier` puts messages on its channel, and it takes one at a
  time, in `work`.
* Starting a session can fail; `Tty.failure` says how the next attempts go.
* `sent` is every request to the compositor. `wl_surface` requests come in one group from
  `attach_and_commit`, those of `wl_shm` from `ShmDoubleBuffer`.
* Of the grid only its size is modelled, neither its cells nor its cursor. The text renderer and the
  blinking are not modelled.
-/

namespace Nullxes

namespace Slate

open Wlcommon

/-! ## Cells -/

/-- `CELL_W`. -/
def cellW : UInt32 := 8

/-- `CELL_H`. -/
def cellH : UInt32 := 18

/-- `PADDING`. -/
def padding : UInt32 := 8

/-- `u32::saturating_sub`. -/
def saturatingSub (a b : UInt32) : UInt32 := if a ≤ b then 0 else a - b

/-- `cell_grid_for_window`: columns and rows. -/
def cellGridForWindow (windowW windowH : UInt32) : UInt16 × UInt16 :=
  let cols := (max (saturatingSub windowW (2 * padding) / cellW) 1).toUInt16
  let rows := (max (saturatingSub windowH (2 * padding) / cellH) 1).toUInt16
  (cols, rows)

/-! ## The terminal session -/

/-- `WindowSize`. -/
structure WindowSize where
  numCols : UInt16
  numLines : UInt16
  cellWidth : UInt16
  cellHeight : UInt16
  deriving DecidableEq, Repr

/-- `AlacDims`. -/
structure AlacDims where
  cols : ℕ
  rows : ℕ
  deriving DecidableEq, Repr

/-- `AlacMsg`: what the event loop of the PTY is sent. -/
inductive AlacMsg
  | input (bytes : List UInt8)
  | resize (size : WindowSize)
  deriving DecidableEq, Repr

/-- `tty::Pty`: its size, and what was written to it. -/
structure Pty where
  winsize : WindowSize
  written : List UInt8
  deriving DecidableEq, Repr

/-- What the event loop does with a message. -/
def Pty.handle (pty : Pty) : AlacMsg → Pty
  | .input bytes => { pty with written := pty.written ++ bytes }
  | .resize size => { pty with winsize := size }

/-- `TerminalSession`: the size of the grid, the PTY, and what is on the channel to it. -/
structure TerminalSession where
  term : AlacDims
  pty : Pty
  channel : List AlacMsg
  deriving DecidableEq, Repr

namespace TerminalSession

/-- `TerminalSession::new`, when it succeeds. -/
def new (cols rows : UInt16) (cellW cellH : UInt32) : TerminalSession where
  term := ⟨cols.toNat, rows.toNat⟩
  pty := ⟨⟨cols, rows, cellW.toUInt16, cellH.toUInt16⟩, []⟩
  channel := []

variable (t : TerminalSession)

/-- A message is put on the channel. -/
def send (msg : AlacMsg) : TerminalSession := { t with channel := t.channel ++ [msg] }

/-- `write`; nothing is sent for no bytes. -/
def write (bytes : List UInt8) : TerminalSession :=
  if bytes.isEmpty then t else t.send (.input bytes)

/-- `resize`. -/
def resize (cols rows : UInt16) (cellW cellH : UInt32) : TerminalSession :=
  { t.send (.resize ⟨cols, rows, cellW.toUInt16, cellH.toUInt16⟩) with
    term := ⟨cols.toNat, rows.toNat⟩ }

/-- The event loop takes a message from the channel. -/
def work : TerminalSession :=
  match t.channel with
  | [] => t
  | msg :: rest => { t with pty := t.pty.handle msg, channel := rest }

end TerminalSession

/-- Starting sessions: how many were attempted, and how each attempt fails if it does. -/
structure Tty where
  attempted : ℕ
  failure : ℕ → Option String

/-! ## The state -/

/-- What `render::paint` was last given for a buffer; without a session the grid has no rows. -/
structure Picture where
  stride : ℕ
  width : UInt32
  height : UInt32
  grid : Option AlacDims
  deriving DecidableEq, Repr

/-- What the terminal asks of the compositor, once its surface is there. -/
inductive WlRequest
  /-- `init_surface`. -/
  | surface
  | ackConfigure (serial : UInt32)
  | pong (serial : UInt32)
  | getKeyboard
  | attachAndCommit (buffer : DrawnBuffer (Option Picture))
  | shm (r : ShmRequest)
  deriving DecidableEq, Repr

/-- `SlateState`. -/
structure SlateState where
  shm : Shm
  tty : Tty
  /-- `surface.is_some()`. -/
  surface : Bool
  /-- `keyboard.is_some()`. -/
  keyboard : Bool
  keymap : KeyboardState
  buffer : Option (ShmDoubleBuffer (Option Picture))
  width : UInt32
  height : UInt32
  configured : Bool
  shouldClose : Bool
  term : Option TerminalSession
  /-- How many notifications wait in `dirty_rx`, once it is there. -/
  dirtyRx : Option ℕ
  sent : List WlRequest

/-- What the compositor tells the terminal, of what any branch of `dispatch` looks at. -/
inductive ServerEvent
  /-- `xdg_wm_base.ping`. -/
  | ping (serial : UInt32)
  /-- `xdg_surface.configure`. -/
  | configure (serial : UInt32)
  /-- `xdg_toplevel.configure`. -/
  | toplevelConfigure (width height : Int32)
  /-- `xdg_toplevel.close`. -/
  | close
  /-- `wl_seat.capabilities`. -/
  | capabilities (keyboard : Bool)
  /-- `wl_keyboard.keymap`, with what its descriptor gives. -/
  | keymap (xkbV1 : Bool) (loaded : Option Keymap)
  | modifiers (mods : ModifierMasks)
  | key (key : UInt32) (pressed : Bool)
  /-- `wl_buffer.release`. -/
  | release (wlBuf : ℕ)
  | other

/-- `DEFAULT_W`. -/
def defaultW : UInt32 := 800

/-- `DEFAULT_H`. -/
def defaultH : UInt32 := 500

/-- The bytes of `handle_action`. -/
def actionBytes : Action → List UInt8
  | .enter => [0x0d]
  | .backspace => [0x7f]
  | .delete => [0x1b, 0x5b, 0x33, 0x7e]
  | .tab => [0x09]
  | .up => [0x1b, 0x5b, 0x41]
  | .down => [0x1b, 0x5b, 0x42]
  | .right => [0x1b, 0x5b, 0x43]
  | .left => [0x1b, 0x5b, 0x44]
  | .home => [0x1b, 0x5b, 0x48]
  | .end => [0x1b, 0x5b, 0x46]
  | .pageUp => [0x1b, 0x5b, 0x35, 0x7e]
  | .pageDown => [0x1b, 0x5b, 0x36, 0x7e]
  | .escape => [0x1b]

namespace SlateState

/-- `SlateState::new`. -/
def new (failure ptyFailure : ℕ → Option String) : SlateState where
  shm := ⟨0, failure, []⟩
  tty := ⟨0, ptyFailure⟩
  surface := false
  keyboard := false
  keymap := .new
  buffer := none
  width := defaultW
  height := defaultH
  configured := false
  shouldClose := false
  term := none
  dirtyRx := none
  sent := []

variable (s : SlateState)

/-- A request is made. -/
def request (r : WlRequest) : SlateState := { s with sent := s.sent ++ [r] }

/-- `init_surface`. -/
def initSurface : SlateState := { s.request .surface with surface := true }

/-- `ensure_term`. -/
def ensureTerm : SlateState :=
  if s.term.isSome then s
  else
    let (cols, rows) := cellGridForWindow s.width s.height
    let failed := s.tty.failure s.tty.attempted
    let s := { s with tty := { s.tty with attempted := s.tty.attempted + 1 } }
    match failed with
    | some _ => s
    | none => { s with term := some (.new cols rows cellW cellH), dirtyRx := some 0 }

/-- What the closure of `redraw` paints, whatever was there. -/
def paint (_ : Option Picture) (stride : ℕ) (w h : UInt32) : Option Picture :=
  some ⟨stride, w, h, s.term.map TerminalSession.term⟩

/-- Store what `ShmDoubleBuffer` left of the `wl_shm` global; what it requested was requested. -/
def setShm (shm : Shm) : SlateState :=
  { s with shm := { shm with sent := [] }, sent := s.sent ++ shm.sent.map .shm }

/-- The pool, made when there is none yet. -/
def pool : Option (ShmDoubleBuffer (Option Picture)) × Shm :=
  match s.buffer with
  | some pool => (some pool, s.shm)
  | none =>
    match ShmDoubleBuffer.new s.shm s.width s.height with
    | (.ok b, shm) => (some b, shm)
    | (.error _, shm) => (none, shm)

/-- `redraw` from `pool.draw` on. -/
def drawInto (pool : ShmDoubleBuffer (Option Picture)) : SlateState :=
  let (drawn, shm) := pool.draw s.shm s.paint
  let s := s.setShm shm
  match drawn with
  | .error _ => s
  | .ok (pool, drawn) =>
    let s := { s with buffer := some pool }
    if s.surface then s.request (.attachAndCommit drawn) else s

/-- `redraw` from its pool on. -/
def redrawPool : SlateState :=
  let (buffer, shm) := s.pool
  let s := { s.setShm shm with buffer := buffer }
  match buffer with
  | none => s
  | some pool => s.drawInto pool

/-- `redraw`. -/
def redraw : SlateState := if !s.configured then s else s.ensureTerm.redrawPool

/-- `handle_action`. -/
def handleAction (action : Action) : SlateState :=
  { s with term := s.term.map fun t => t.write (actionBytes action) }

/-- `handle_text`. -/
def handleText (text : String) : SlateState :=
  { s with term := s.term.map fun t => t.write text.toUTF8.toList }

/-- `Dispatch<XdgSurface>`. -/
def dispatchConfigure (serial : UInt32) : SlateState :=
  { s.request (.ackConfigure serial) with configured := true }.redraw

/-- The pool resized; an error is only logged. -/
def resizeBuffer (w h : UInt32) : SlateState :=
  match s.buffer with
  | none => s
  | some b =>
    let (_, b, shm) := b.resize s.shm w h
    { s.setShm shm with buffer := some b }

/-- The session resized. -/
def resizeTerm (w h : UInt32) : SlateState :=
  let (cols, rows) := cellGridForWindow w h
  { s with term := s.term.map fun t => t.resize cols rows cellW cellH }

/-- `Dispatch<XdgToplevel>`, `configure`. -/
def dispatchToplevel (width height : Int32) : SlateState :=
  let newW := if 0 < width then width.toUInt32 else defaultW
  let newH := if 0 < height then height.toUInt32 else defaultH
  if newW ≠ s.width ∨ newH ≠ s.height then
    ({ s with width := newW, height := newH }.resizeBuffer newW newH).resizeTerm newW newH
  else s

/-- `Dispatch<WlSeat>`. -/
def dispatchCapabilities (keyboard : Bool) : SlateState :=
  if keyboard && !s.keyboard then { s.request .getKeyboard with keyboard := true } else s

/-- `Dispatch<WlKeyboard>`, `key`. -/
def dispatchKey (key : UInt32) (pressed : Bool) : SlateState :=
  if pressed then
    match s.keymap.processKey key with
    | .action a => s.handleAction a
    | .text t => s.handleText t
    | .none => s
  else s

/-- The `Dispatch` implementations. -/
def dispatch : ServerEvent → SlateState
  | .ping serial => s.request (.pong serial)
  | .configure serial => s.dispatchConfigure serial
  | .toplevelConfigure width height => s.dispatchToplevel width height
  | .close => { s with shouldClose := true }
  | .capabilities keyboard => s.dispatchCapabilities keyboard
  | .keymap xkbV1 loaded =>
    if xkbV1 then { s with keymap := s.keymap.applyKeymap loaded } else s
  | .modifiers mods => { s with keymap := s.keymap.updateModifiers mods }
  | .key key pressed => s.dispatchKey key pressed
  | .release wlBuf => { s with buffer := s.buffer.map fun b => b.markReleased wlBuf }
  | .other => s

/-- What `run` does after the events are dispatched: take what waits in `dirty_rx`, and redraw if
anything did. -/
def drain : SlateState :=
  match s.dirtyRx with
  | some (_ + 1) => { s with dirtyRx := some 0 }.redraw
  | _ => s

/-- `TerminalEvents::send_event`, for the events it passes on. -/
def sendEvent : SlateState := { s with dirtyRx := s.dirtyRx.map (· + 1) }

/-- The event loop of the session takes a message. -/
def work : SlateState := { s with term := s.term.map .work }

end SlateState

/-- What happens to the terminal: a dispatched event, the main loop's turn, output of the shell, or
a turn of the event loop. -/
inductive Event
  | dispatch (e : ServerEvent)
  | drain
  | sendEvent
  | work

/-- A reaction. -/
def SlateState.react (s : SlateState) : Event → SlateState
  | .dispatch e => s.dispatch e
  | .drain => s.drain
  | .sendEvent => s.sendEvent
  | .work => s.work

end Slate

end Nullxes
