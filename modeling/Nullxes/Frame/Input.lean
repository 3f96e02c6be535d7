import Nullxes.Frame.State

/-!
# Input dispatch

`input/mod.rs`, `input/keybind.rs` and `input/move_grab.rs`: what FRAME does with keyboard and
pointer events. Smithay's handles call back into FRAME, so a pointer event is dispatched on the
active grab here: none, smithay's own click grab, or `MoveSurfaceGrab`.

A key event calls the filter once, for a press and for a release alike; what the filter does not
intercept goes to the surface with keyboard focus, and to nobody when there is none.
-/

namespace Nullxes

namespace Frame

/-! ## Shortcuts -/

/-- The two modifiers FRAME looks at. -/
structure ModifiersState where
  logo : Bool
  shift : Bool
  deriving DecidableEq, Repr

/-- `FilterResult`. -/
inductive FilterResult
  | forward
  | intercept
  deriving DecidableEq, Repr

namespace KeySyms

def key1 : ℕ := 0x31
def key9 : ℕ := 0x39
def keyRight : ℕ := 0xff53
def keyLeft : ℕ := 0xff51
def keyQLower : ℕ := 0x71
def keyQUpper : ℕ := 0x51
def keyLLower : ℕ := 0x6c
def keyLUpper : ℕ := 0x4c
def keyReturn : ℕ := 0xff0d
def keyKpEnter : ℕ := 0xff8d
def keySuperL : ℕ := 0xffeb
def keySuperR : ℕ := 0xffec

end KeySyms

namespace NullxesState

variable (s : NullxesState)

/-- `spawn_detached`; whether the binary exists does not come back to the caller. -/
def spawnDetached (bin : String) : NullxesState := s.emit [.spawned bin]

/-- `move_window_between_workspaces`. -/
def moveWindowBetweenWorkspaces (src target : ℕ) (id : WindowId) : NullxesState :=
  match s.workspaces.get src with
  | none => s
  | some srcSpace =>
    match srcSpace.find fun w =>
        (w.wlSurface.map fun surf => decide (surf.protocolId.toUInt64 = id.raw)).getD false with
    | none => s
    | some focusedWindow =>
      let loc := (srcSpace.location focusedWindow).getD (0, 0)
      let ws := s.workspaces.modify src fun sp => sp.remove focusedWindow
      { s with workspaces := ws.modify target fun sp => sp.place focusedWindow loc }

/-- `close_focused_window`. -/
def closeFocusedWindow : NullxesState :=
  match s.workspaceMgr.focusedId with
  | none => s
  | some focusedId =>
    match s.workspaces.get s.workspaceMgr.activeIndex with
    | none => s
    | some space =>
      match space.find fun w =>
          decide ((w.wlSurface.map fun surf => surf.protocolId.toUInt64).getD 0 =
            focusedId.raw) with
      | none => s
      | some w =>
        match w.toplevel with
        | none => s
        | some top => s.emit [.sendClose top]

/-- The move of `Super+Shift+N` and of `Move.Focused`: plan it, and carry it out if it was
planned. -/
def moveFocused (target : ℕ) : NullxesState × Bool :=
  let plan := s.workspaceMgr.planMoveFocused target
  let s := { s with workspaceMgr := plan.1 }
  match plan.2 with
  | some (src, tgt, id) => (s.moveWindowBetweenWorkspaces src tgt id, true)
  | none => (s, false)

/-- Closing a window asks its client, or does nothing. -/
theorem closeFocusedWindow_cases {P : NullxesState → Prop} (hsame : P s)
    (hclose : ∀ top, P (s.emit [.sendClose top])) : P s.closeFocusedWindow := by
  rw [closeFocusedWindow]
  split
  · exact hsame
  split
  · exact hsame
  split
  · exact hsame
  · exact hclose _

/-- A move changes the layout, not the number of workspaces, and nothing else. -/
theorem moveFocused_cases {P : NullxesState → Prop} (target : ℕ)
    (hmove : ∀ ws mgr, ws.count = s.workspaces.count →
      P { s with workspaces := ws, workspaceMgr := mgr }) : P (s.moveFocused target).1 := by
  simp only [moveFocused]
  split
  · rw [moveWindowBetweenWorkspaces]
    split
    · exact hmove _ _ rfl
    split
    · exact hmove _ _ rfl
    · exact hmove _ _ (by simp)
  · exact hmove _ _ rfl

/-- `handle_keybind`. -/
def handleKeybind (mods : ModifiersState) (keysym : ℕ) : NullxesState × FilterResult :=
  if !mods.logo then (s, .forward)
  else if KeySyms.key1 ≤ keysym ∧ keysym ≤ KeySyms.key9 then
    let idx := keysym - KeySyms.key1
    if mods.shift then ((s.moveFocused idx).1, .intercept)
    else ({ s with workspaceMgr := (s.workspaceMgr.switchTo idx).1 }, .intercept)
  else if keysym = KeySyms.keyRight then
    ({ s with workspaceMgr := (s.workspaceMgr.switchNext s.config.workspace.wrap).1 }, .intercept)
  else if keysym = KeySyms.keyLeft then
    ({ s with workspaceMgr := (s.workspaceMgr.switchPrev s.config.workspace.wrap).1 }, .intercept)
  else if keysym = KeySyms.keyQLower ∨ keysym = KeySyms.keyQUpper then
    (s.closeFocusedWindow, .intercept)
  else if keysym = KeySyms.keyLLower ∨ keysym = KeySyms.keyLUpper then
    (s.spawnDetached s.config.keybindings.lockBinary, .intercept)
  else if keysym = KeySyms.keyReturn ∨ keysym = KeySyms.keyKpEnter then
    (s.spawnDetached "nullxes-slate", .intercept)
  else if keysym = KeySyms.keySuperL ∨ keysym = KeySyms.keySuperR then
    (s.spawnDetached s.config.keybindings.launcherBinary, .intercept)
  else (s, .forward)

/-- Whatever holds of the state as it is, and of what each shortcut makes of it, holds after
`handle_keybind`. -/
theorem handleKeybind_cases {P : NullxesState → Prop} (mods : ModifiersState) (keysym : ℕ)
    (hsame : P s) (hmove : ∀ idx, P (s.moveFocused idx).1)
    (hswitch : ∀ m, P { s with workspaceMgr := m }) (hclose : P s.closeFocusedWindow)
    (hspawn : ∀ bin, P (s.spawnDetached bin)) : P (s.handleKeybind mods keysym).1 := by
  rw [handleKeybind]
  split
  · exact hsame
  split
  · simp only
    split
    · exact hmove _
    · exact hswitch _
  split
  · exact hswitch _
  split
  · exact hswitch _
  split
  · exact hclose
  split
  · exact hspawn _
  split
  · exact hspawn _
  split
  · exact hspawn _
  · exact hsame

/-! ## Keyboard -/

/-- A key event: its keysym and the modifiers xkb reports with it. -/
structure KeyboardKeyEvent where
  keysym : ℕ
  mods : ModifiersState
  pressed : Bool
  deriving DecidableEq, Repr

/-- The filter closure of `handle_keyboard`. -/
def keyboardFilter (ev : KeyboardKeyEvent) (locked : Bool) : NullxesState × FilterResult :=
  if locked then (s, .forward)
  else if s.shutdownReason then (s, .forward)
  else if s.lock.isSome then (s, .forward)
  else s.handleKeybind ev.mods ev.keysym

/-- The filter passes a key on or takes it for a shortcut. -/
theorem keyboardFilter_cases {P : NullxesState → Prop} (ev : KeyboardKeyEvent) (locked : Bool)
    (hsame : P s) (hkeybind : P (s.handleKeybind ev.mods ev.keysym).1) :
    P (s.keyboardFilter ev locked).1 := by
  rw [keyboardFilter]
  split
  · exact hsame
  split
  · exact hsame
  split
  · exact hsame
  · exact hkeybind

/-- `KeyboardHandle::input_forward`: a key with no focus reaches nobody. -/
def forwardKey (ev : KeyboardKeyEvent) : NullxesState :=
  match s.keyboardFocus with
  | some f => s.emit [.key f ev.keysym ev.pressed]
  | none => s

/-- `handle_keyboard`. -/
def handleKeyboard (ev : KeyboardKeyEvent) (locked : Bool) : NullxesState :=
  let s := s.nextSerial
  match s.seat.keyboard with
  | none => s
  | some _ =>
    match s.keyboardFilter ev locked with
    | (s, .forward) => s.forwardKey ev
    | (s, .intercept) => s.emit [.intercepted ev.keysym]

/-- A key goes through the filter, and then to the focus or no further. -/
theorem handleKeyboard_cases {P : NullxesState → Prop} (ev : KeyboardKeyEvent) (locked : Bool)
    (hnone : P s.nextSerial)
    (hforward : P ((s.nextSerial.keyboardFilter ev locked).1.forwardKey ev))
    (hintercept : P ((s.nextSerial.keyboardFilter ev locked).1.emit [.intercepted ev.keysym])) :
    P (s.handleKeyboard ev locked) := by
  simp only [handleKeyboard]
  split
  · exact hnone
  · split
    next hf =>
      rw [hf] at hforward
      exact hforward
    next hf =>
      rw [hf] at hintercept
      exact hintercept

/-! ## Hit testing -/

/-- `LayerMap::layer_under`. -/
def layerUnder (o : Output) (l : Layer) (loc : Point ℚ) : Option LayerSurface :=
  (o.layersOn l).reverse.find? fun layer =>
    let d := s.surfaceData layer.wlSurface
    d.bbox.contains (loc - toF64 d.layerLoc)

/-- The layer part of `surface_under`: the overlay layer, or else the top layer, and then the
surface of it that takes input. -/
def layerSurfaceUnder (o : Output) (loc : Point ℚ) : PointerFocus :=
  match (s.layerUnder o .overlay loc).or (s.layerUnder o .top loc) with
  | none => none
  | some layer =>
    let d := s.surfaceData layer.wlSurface
    (d.under (loc - toF64 d.layerLoc)).map fun r => (r.1, r.2 + d.layerLoc)

/-- `surface_under`. -/
def surfaceUnder (loc : Point ℚ) : PointerFocus :=
  match s.primary.bind fun o => s.layerSurfaceUnder o loc with
  | some f => some f
  | none =>
    (s.elementUnder s.activeSpace loc).bind fun e => s.windowSurfaceUnder e.1 (toF64 e.2)

/-- `clamp_pointer`. -/
def clampPointer (loc : Point ℚ) : Point ℚ :=
  match s.primary.bind Output.geometry with
  | none => loc
  | some geo =>
    (clampF64 loc.1 geo.loc.1 (geo.loc.1 + geo.size.1),
      clampF64 loc.2 geo.loc.2 (geo.loc.2 + geo.size.2))

/-! ## Pointer grabs -/

/-- `MoveSurfaceGrab::motion`: the pointer loses its focus and the window is mapped, at its new
location, in the space that is active now. -/
def moveGrabMotion (ptr : PointerHandle MoveSurfaceGrab) (start : GrabStartData)
    (grab : MoveSurfaceGrab) (location : Point ℚ) : NullxesState :=
  let s := s.setPointer (ptr.innerMotion none location)
  let delta := location - start.location
  let newLoc := grab.initialWindowLocation + toI32Round delta
  s.activeSpaceMut fun space => space.place grab.window newLoc

/-- `PointerHandle::motion`, dispatched on the active grab. -/
def pointerMotion (focus : PointerFocus) (location : Point ℚ) : NullxesState :=
  match s.seat.pointer with
  | none => s
  | some ptr =>
    let ptr := { ptr with pendingFocus := focus }.dropDeadGrab s.compositorState.alive
    match ptr.grab with
    | none => s.setPointer (ptr.innerMotion focus location)
    | some (_, .click start) => s.setPointer (ptr.innerMotion start.focus location)
    | some (_, .custom start grab) => s.moveGrabMotion ptr start grab location

/-- `MoveSurfaceGrab::button`: the grab ends on the release of a button that is no longer held. -/
def moveGrabButton (ptr : PointerHandle MoveSurfaceGrab) (button : ℕ) (pressed : Bool) :
    PointerHandle MoveSurfaceGrab × List Effect :=
  let sent := ptr.innerButton button pressed
  if !pressed ∧ button ∉ ptr.pressed then (ptr.unsetGrab.1, sent ++ ptr.unsetGrab.2)
  else (ptr, sent)

/-- `PointerHandle::button`, dispatched on the active grab. -/
def pointerButton (button : ℕ) (pressed : Bool) (serial : Serial) : NullxesState :=
  match s.seat.pointer with
  | none => s
  | some ptr =>
    let held := if pressed then ptr.pressed ++ [button] else ptr.pressed.filter (· ≠ button)
    let ptr := { ptr with pressed := held }.dropDeadGrab s.compositorState.alive
    s.setPointer <| match ptr.grab with
      | none => ptr.defaultGrabButton button pressed serial
      | some (_, .click _) => ptr.clickGrabButton button pressed
      | some (_, .custom _ _) => moveGrabButton ptr button pressed

/-- `PointerHandle::axis`: every grab passes the frame on to the current focus. -/
def pointerAxis : NullxesState :=
  match s.seat.pointer with
  | none => s
  | some ptr =>
    let ptr := ptr.dropDeadGrab s.compositorState.alive
    s.setPointer (ptr, (ptr.focus.map fun f => Effect.pointerAxis f.1).toList)

/-! ## Pointer -/

/-- `handle_pointer_motion`. -/
def handlePointerMotion (delta : Point ℚ) : NullxesState :=
  let s := s.nextSerial
  match s.seat.pointer with
  | none => s
  | some ptr =>
    let loc := s.clampPointer (ptr.location + delta)
    s.pointerMotion (s.surfaceUnder loc) loc

/-- `handle_pointer_motion_absolute`; `pos` is the event's position as a fraction of the area it
is transformed to. -/
def handlePointerMotionAbsolute (pos : Point ℚ) : NullxesState :=
  let s := s.nextSerial
  let geo := s.primaryGeometry
  let loc : Point ℚ := (pos.1 * geo.size.1 + geo.loc.1, pos.2 * geo.size.2 + geo.loc.2)
  s.pointerMotion (s.surfaceUnder loc) loc

/-- The press part of `handle_pointer_button`: raise and focus the window under the pointer, or
clear the focus. -/
def pressAt (loc : Point ℚ) : NullxesState :=
  match s.elementUnder s.activeSpace loc with
  | some (window, _) =>
    (s.activeSpaceMut fun space => space.raise window).setKeyboardFocus window.wlSurface
  | none => s.setKeyboardFocus none

/-- `handle_pointer_button`. -/
def handlePointerButton (button : ℕ) (pressed : Bool) : NullxesState :=
  let s := s.nextSerial
  match s.seat.pointer with
  | none => s
  | some ptr =>
    let serial := s.serial
    let s := if pressed then s.pressAt ptr.location else s
    s.pointerButton button pressed serial

/-- `handle_pointer_axis`. -/
def handlePointerAxis : NullxesState := s.pointerAxis

/-! ## Dispatch -/

/-- `InputEvent`; `other` stands for the touch, tablet and gesture events FRAME ignores. -/
inductive InputEvent
  | keyboard (ev : KeyboardKeyEvent)
  | pointerMotion (delta : Point ℚ)
  | pointerMotionAbsolute (pos : Point ℚ)
  | pointerButton (button : ℕ) (pressed : Bool)
  | pointerAxis
  | other

/-- `process_input_event`. -/
def processInputEvent (ev : InputEvent) : NullxesState :=
  let locked := s.lock.isSome
  match ev with
  | .keyboard ev => s.handleKeyboard ev locked
  | .pointerMotion delta => if !locked then s.handlePointerMotion delta else s
  | .pointerMotionAbsolute pos => if !locked then s.handlePointerMotionAbsolute pos else s
  | .pointerButton button pressed => if !locked then s.handlePointerButton button pressed else s
  | .pointerAxis => if !locked then s.handlePointerAxis else s
  | .other => s

/-- Whatever holds of the state as it is, and of what each handler makes of it, holds after an input
event. -/
theorem processInputEvent_cases {P : NullxesState → Prop} (ev : InputEvent) (hsame : P s)
    (hkeyboard : ∀ ev, P (s.handleKeyboard ev s.lock.isSome))
    (hmotion : ∀ delta, P (s.handlePointerMotion delta))
    (habsolute : ∀ pos, P (s.handlePointerMotionAbsolute pos))
    (hbutton : ∀ button pressed, P (s.handlePointerButton button pressed))
    (haxis : P s.handlePointerAxis) : P (s.processInputEvent ev) := by
  have hguard : ∀ {s' : NullxesState}, P s' → P (if !s.lock.isSome then s' else s) := by
    intro s' hs'
    split
    · exact hs'
    · exact hsame
  cases ev with
  | keyboard ev => exact hkeyboard ev
  | pointerMotion delta => exact hguard (hmotion delta)
  | pointerMotionAbsolute pos => exact hguard (habsolute pos)
  | pointerButton button pressed => exact hguard (hbutton button pressed)
  | pointerAxis => exact hguard haxis
  | other => exact hsame

end NullxesState

end Frame

end Nullxes
