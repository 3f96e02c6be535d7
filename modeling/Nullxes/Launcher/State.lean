import Nullxes.Launcher.Apps
import Nullxes.Wlcommon.Keymap
import Nullxes.Wlcommon.Shm

/-!
# The launcher

`launcher/src/state.rs` and `draw.rs`. `LauncherState` is what the launcher keeps; `handleAction`
and `handleText` are what keys do, `dispatch` the `Dispatch` implementations, one branch for each
interface that does anything.

## Representation

* `sent` is every request to the compositor, `launched` every command that was given to
  `Command::spawn`, which the launcher does not wait for.
* `paint` is `draw::paint` as the calls that it makes, in order. Rows are few, and coordinates are
  integers.
* What is in a buffer is a `Picture`: what `draw::paint` was last given for it.
-/

namespace Nullxes

namespace Launcher

open Wlcommon

/-! ## Drawing -/

/-- The colours of `draw.rs`. -/
inductive Shade
  | surface3
  | surface4
  | divider
  | accent
  | selectionBg
  | textPrimary
  | textSecondary
  | textDisabled
  deriving DecidableEq, Repr

/-- A call of `draw::paint`. -/
inductive DrawOp
  | clear (color : Shade)
  | fillRect (x y : ℤ) (w h : ℕ) (color : Shade)
  | hline (y x0 x1 : ℤ) (color : Shade)
  /-- Of this size in pixels. -/
  | drawText (x y : ℤ) (text : String) (px : ℕ) (color : Shade)
  deriving DecidableEq, Repr

/-- `draw::W`. -/
def width : UInt32 := 600

/-- `draw::H`. -/
def height : UInt32 := 400

/-- `ROW_H`. -/
def rowH : ℕ := 44

/-- `SEARCH_H`. -/
def searchH : ℕ := 52

/-- `PADDING`. -/
def padding : ℕ := 20

/-- `ICON_SZ`. -/
def iconSz : ℕ := 24

/-- `ry`. -/
def rowY (i : ℕ) : ℤ := searchH + i * rowH

/-- The rectangles of one row, of `count`. -/
def paintRow (count selected i : ℕ) : List DrawOp :=
  (if i = selected then
    [.fillRect 0 (rowY i) width.toNat rowH .selectionBg, .fillRect 0 (rowY i) 2 rowH .accent]
  else []) ++
  if i + 1 < count then
    [.hline (rowY i + rowH - 1) padding (width.toNat - padding) .divider]
  else []

/-- The text of one row. -/
def paintLabel (selected : ℕ) (app : AppEntry) (i : ℕ) : List DrawOp :=
  let labelColor : Shade := if i = selected then .textPrimary else .textSecondary
  .drawText (padding + iconSz + 12) (rowY i + rowH / 2 + 5) app.name 14 labelColor ::
    match app.comment with
    | some comment =>
      if !comment.isEmpty then
        let trimmed := String.ofList (comment.toList.take 60)
        [.drawText (padding + iconSz + 12) (rowY i + rowH / 2 + 19) trimmed 11 .textDisabled]
      else []
    | none => []

/-- `draw::paint`; `text` says whether there is a renderer. -/
def paint (text : Bool) (query : String) (results : List AppEntry) (selected : ℕ) : List DrawOp :=
  let cursorX : ℤ := padding + 2
  [.clear .surface3,
    .fillRect 0 0 width.toNat searchH .surface4,
    .hline searchH 0 width.toNat .divider,
    .fillRect cursorX padding 2 (searchH - padding * 2) .accent] ++
  (List.range results.length).flatMap (paintRow results.length selected) ++
  if text then
    (if query.isEmpty then
      .drawText (cursorX + 8) (searchH / 2 + 6) "Type to search…" 14 .textDisabled
    else .drawText (cursorX + 8) (searchH / 2 + 6) query 14 .textPrimary) ::
    results.zipIdx.flatMap fun (app, i) => paintLabel selected app i
  else []

/-! ## The state -/

/-- What `draw::paint` was last given for a buffer. -/
structure Picture where
  stride : ℕ
  width : UInt32
  height : UInt32
  query : String
  results : List AppEntry
  selected : ℕ
  deriving DecidableEq, Repr

/-- What the launcher asks of the compositor, once it has its globals. -/
inductive WlRequest
  /-- `init_surface`. -/
  | surface
  | ackConfigure (serial : UInt32)
  | getKeyboard
  | attachAndCommit (buffer : DrawnBuffer (Option Picture))
  | shm (r : ShmRequest)
  deriving DecidableEq, Repr

/-- `LauncherState`. -/
structure LauncherState where
  shm : Shm
  /-- `surface.is_some()`. -/
  surface : Bool
  /-- `keyboard.is_some()`. -/
  keyboard : Bool
  keymap : KeyboardState
  buffer : Option (ShmDoubleBuffer (Option Picture))
  /-- `text.is_some()`. -/
  text : Bool
  query : String
  searcher : Searcher
  selected : ℕ
  configured : Bool
  shouldClose : Bool
  launched : List (String × List String)
  sent : List WlRequest

/-- What the compositor tells the launcher, of what any branch of `dispatch` looks at. -/
inductive ServerEvent
  /-- `zwlr_layer_surface_v1.configure`. -/
  | configure (serial : UInt32)
  /-- `zwlr_layer_surface_v1.closed`. -/
  | closed
  /-- `wl_seat.capabilities`. -/
  | capabilities (keyboard : Bool)
  /-- `wl_keyboard.keymap`, with what its descriptor gives. -/
  | keymap (xkbV1 : Bool) (loaded : Option Keymap)
  | modifiers (mods : ModifierMasks)
  | key (key : UInt32) (pressed : Bool)
  /-- `wl_buffer.release`. -/
  | release (wlBuf : ℕ)
  | other

namespace LauncherState

/-- `LauncherState::new`, with the applications that were found. -/
def new (failure : ℕ → Option String) (text : Bool) (searcher : Searcher) : LauncherState where
  shm := ⟨0, failure, []⟩
  surface := false
  keyboard := false
  keymap := .new
  buffer := none
  text := text
  query := ""
  searcher := searcher
  selected := 0
  configured := false
  shouldClose := false
  launched := []
  sent := []

variable (s : LauncherState)

/-- A request is made. -/
def request (r : WlRequest) : LauncherState := { s with sent := s.sent ++ [r] }

/-- `init_surface`. -/
def initSurface : LauncherState := { s.request .surface with surface := true }

/-- The results that are shown and searched. -/
def results : List AppEntry := s.searcher.query s.query 8

/-- What the closure of `redraw` paints, whatever was there. -/
def picture (_ : Option Picture) (stride : ℕ) (w h : UInt32) : Option Picture :=
  some ⟨stride, w, h, s.query, s.results, s.selected⟩

/-- Store what `ShmDoubleBuffer` left of the `wl_shm` global; what it requested was requested. -/
def setShm (shm : Shm) : LauncherState :=
  { s with shm := { shm with sent := [] }, sent := s.sent ++ shm.sent.map .shm }

/-- The pool, made when there is none yet. -/
def pool : Option (ShmDoubleBuffer (Option Picture)) × Shm :=
  match s.buffer with
  | some pool => (some pool, s.shm)
  | none =>
    match ShmDoubleBuffer.new s.shm width height with
    | (.ok b, shm) => (some b, shm)
    | (.error _, shm) => (none, shm)

/-- `redraw`. -/
def redraw : LauncherState :=
  if !s.configured then s
  else
    let (buffer, shm) := s.pool
    let s := { s.setShm shm with buffer := buffer }
    match buffer with
    | none => s
    | some pool =>
      let (drawn, shm) := pool.draw s.shm s.picture
      let s := s.setShm shm
      match drawn with
      | .error _ => s
      | .ok (pool, drawn) =>
        let s := { s with buffer := some pool }
        if s.surface then s.request (.attachAndCommit drawn) else s

/-- `split_first` of an argument vector. -/
def splitFirst : List String → Option (String × List String)
  | [] => none
  | cmd :: args => some (cmd, args)

/-- `launch_selected`. -/
def launchSelected : LauncherState :=
  match s.results[s.selected]? with
  | none => s
  | some app =>
    match splitFirst app.argv with
    | none => s
    | some command => { s with launched := s.launched ++ [command] }

/-- `handle_action`. -/
def handleAction (action : Action) : LauncherState :=
  match action with
  | .escape => { s with shouldClose := true }
  | .enter => { s.launchSelected with shouldClose := true }
  | .backspace => { s with query := String.ofList s.query.toList.dropLast, selected := 0 }.redraw
  | .up => if 0 < s.selected then { s with selected := s.selected - 1 }.redraw else s
  | .down =>
    let max := s.results.length - 1
    if s.selected < max then { s with selected := s.selected + 1 }.redraw else s
  | _ => s

/-- `handle_text`. -/
def handleText (text : String) : LauncherState :=
  { s with query := s.query ++ text, selected := 0 }.redraw

/-- `Dispatch<ZwlrLayerSurfaceV1>`, `configure`. -/
def dispatchConfigure (serial : UInt32) : LauncherState :=
  { s.request (.ackConfigure serial) with configured := true }.redraw

/-- `Dispatch<WlSeat>`. -/
def dispatchCapabilities (keyboard : Bool) : LauncherState :=
  if keyboard && !s.keyboard then { s.request .getKeyboard with keyboard := true } else s

/-- `Dispatch<WlKeyboard>`, `key`. -/
def dispatchKey (key : UInt32) (pressed : Bool) : LauncherState :=
  if pressed then
    match s.keymap.processKey key with
    | .action a => s.handleAction a
    | .text t => s.handleText t
    | .none => s
  else s

/-- The `Dispatch` implementations. -/
def dispatch : ServerEvent → LauncherState
  | .configure serial => s.dispatchConfigure serial
  | .closed => { s with shouldClose := true }
  | .capabilities keyboard => s.dispatchCapabilities keyboard
  | .keymap xkbV1 loaded =>
    if xkbV1 then { s with keymap := s.keymap.applyKeymap loaded } else s
  | .modifiers mods => { s with keymap := s.keymap.updateModifiers mods }
  | .key key pressed => s.dispatchKey key pressed
  | .release wlBuf => { s with buffer := s.buffer.map fun b => b.markReleased wlBuf }
  | .other => s

end LauncherState

end Launcher

end Nullxes
