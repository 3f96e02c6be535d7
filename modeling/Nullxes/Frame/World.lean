import Nullxes.Frame.Compositor
import Nullxes.Frame.Desk

/-!
# FRAME as an event machine

`World` is a compositor state with the two histories a desk has: which toplevels were destroyed,
and for which window each focus slot was last set. Neither is in the code, and `World.step` only
carries them along; the state component is exactly `NullxesState.react`.

`NullxesState.deskAct` names what an event does to the desk, read off the state before it. That
this is all the event does there is proved in `Nullxes.Frame.Refines`.
-/

namespace Nullxes

namespace Frame

/-- A state with its two histories. -/
structure World where
  state : NullxesState
  destroyed : List ToplevelSurface
  owner : ℕ → Option Window

namespace NullxesState

variable (s : NullxesState)

/-- The desk a state shows, given the histories. -/
def desk (destroyed : List ToplevelSurface) (owner : ℕ → Option Window) : Desk where
  count := s.workspaceMgr.count
  active := s.workspaceMgr.active
  space := s.workspaces.space
  slot := s.workspaceMgr.slot
  toplevels := s.xdgShellState.toplevels
  hasKeyboard := s.seat.keyboard.isSome
  focus := s.keyboardFocus
  lock := s.lock
  destroyed := destroyed
  owner := owner

/-- What a shortcut does to the desk. -/
def keybindAct (mods : ModifiersState) (keysym : ℕ) : DeskAct :=
  if !mods.logo then .idle
  else if KeySyms.key1 ≤ keysym ∧ keysym ≤ KeySyms.key9 then
    if mods.shift then .move (keysym - KeySyms.key1) else .switch (keysym - KeySyms.key1)
  else if keysym = KeySyms.keyRight then
    if s.workspaceMgr.active + 1 < s.workspaceMgr.count then .switch (s.workspaceMgr.active + 1)
    else if s.config.workspace.wrap then .switch 0
    else .idle
  else if keysym = KeySyms.keyLeft then
    if s.workspaceMgr.active > 0 then .switch (s.workspaceMgr.active - 1)
    else if s.config.workspace.wrap then .switch (s.workspaceMgr.count - 1)
    else .idle
  else .idle

/-- What a key does to the desk. -/
def keyAct (ev : KeyboardKeyEvent) : DeskAct :=
  if s.seat.keyboard.isNone ∨ s.lock.isSome ∨ s.shutdownReason then .idle
  else s.keybindAct ev.mods ev.keysym

/-- What moving the pointer to a location does to the desk: only an interactive move does
anything, and one whose start focus has died is over. -/
def motionAct (location : Point ℚ) : DeskAct :=
  match s.seat.pointer with
  | none => .idle
  | some ptr =>
    match (ptr.dropDeadGrab s.compositorState.alive).grab with
    | some (_, .custom start grab) =>
      .drag grab.window (grab.initialWindowLocation + toI32Round (location - start.location))
    | _ => .idle

/-- What an input event does to the desk. -/
def inputAct : InputEvent → DeskAct
  | .keyboard ev => s.keyAct ev
  | .pointerMotion delta =>
    match s.lock, s.seat.pointer with
    | none, some ptr => s.motionAct (s.clampPointer (ptr.location + delta))
    | _, _ => .idle
  | .pointerMotionAbsolute pos =>
    if s.lock.isSome then .idle
    else
      let geo := s.primaryGeometry
      s.motionAct (pos.1 * geo.size.1 + geo.loc.1, pos.2 * geo.size.2 + geo.loc.2)
  | .pointerButton _ pressed =>
    match s.lock, s.seat.pointer, pressed with
    | none, some ptr, true => .press ((s.elementUnder s.activeSpace ptr.location).map Prod.fst)
    | _, _, _ => .idle
  | .pointerAxis => .idle
  | .other => .idle

/-- What an event does to the desk. -/
def deskAct : Event → DeskAct
  | .newToplevel surface =>
    let geo := s.primaryGeometry
    .create (s.freshToplevel surface)
      (geo.loc.1 + geo.size.1.tdiv 4, geo.loc.2 + geo.size.2.tdiv 4)
  | .toplevelDestroyed t => .destroy t
  | .destroySurface surface => .vanish surface
  | .lock client => .lock ⟨client, s.nextLocker⟩
  | .newLockSurface surface _ => .lockSurface ⟨surface⟩
  | .unlock => .unlock
  | .input ev => s.inputAct ev
  | .ipc (.switchWorkspace idx) _ => .switch idx
  | .ipc (.moveFocused target) _ => .move target
  | _ => .idle

end NullxesState

namespace World

variable (w : World)

/-- The desk of a world. -/
def desk : Desk := w.state.desk w.destroyed w.owner

/-- What an event does to the desk. -/
def deskAct (e : Event) : DeskAct := w.state.deskAct e

/-- One turn of the event loop; the histories follow the desk. -/
def step (e : Event) : World where
  state := w.state.react e
  destroyed := (w.desk.apply (w.deskAct e)).destroyed
  owner := (w.desk.apply (w.deskAct e)).owner

/-- The state FRAME enters its event loop in. -/
def boot (config : FrameConfig) (modes : List (Point ℤ)) (keyboard : Bool) : World :=
  ⟨NullxesState.new config modes keyboard, [], fun _ => none⟩

/-- The default configuration, one output and a keyboard. -/
def desktop : World := boot {} [(1920, 1080)] true

end World

/-- FRAME as an event machine. -/
def frame : EventMachine World Event where
  Init w := ∃ config modes keyboard, w = World.boot config modes keyboard
  Enabled w e := w.state.Possible e
  step := World.step

theorem init_desktop : frame.Init World.desktop := ⟨{}, [(1920, 1080)], true, rfl⟩

instance (w : World) (e : Event) : Decidable (frame.Enabled w e) :=
  inferInstanceAs (Decidable (w.state.Possible e))

end Frame

end Nullxes
