import Nullxes.Frame.World

/-!
# What handlers leave alone

Input events, control requests and the toplevel handlers rearrange the layout and the seat, and a
control request may also reload the configuration or stop the loop. The objects smithay keeps, the
outputs, the lock and the panel are not theirs to change. `Rearranges` states that for one handler,
together with the two facts about what it does change that runs need: the number of workspaces
stays, and no interactive move begins.

## Main results

* `NullxesState.rearranges_processInputEvent`, `NullxesState.rearranges_handleRequestOnMain`
* `NullxesState.footprint_react` — what an event does to the parts of the state not on the desk
-/

namespace Nullxes

namespace Frame

namespace PointerHandle

variable {G : Type} (ptr : PointerHandle G)

/-- The compositor's own grab, while one is active. -/
def customGrab : Option G :=
  match ptr.grab with
  | some (_, .custom _ g) => some g
  | _ => none

theorem customGrab_dropDeadGrab {alive : List WlSurface} {g : G}
    (h : (ptr.dropDeadGrab alive).customGrab = some g) : ptr.customGrab = some g := by
  rcases ptr.grab_dropDeadGrab alive with heq | heq
  · rwa [customGrab, heq] at h
  · rw [customGrab, heq] at h
    cases h

theorem customGrab_defaultGrabButton {button : ℕ} {pressed : Bool} {serial : Serial} {g : G}
    (h : (ptr.defaultGrabButton button pressed serial).1.customGrab = some g) :
    ptr.customGrab = some g := by
  cases pressed with
  | false => exact h
  | true => cases h

theorem customGrab_clickGrabButton {button : ℕ} {pressed : Bool} {g : G}
    (h : (ptr.clickGrabButton button pressed).1.customGrab = some g) :
    ptr.customGrab = some g := by
  simp only [clickGrabButton] at h
  split at h
  · cases h
  · exact h

end PointerHandle

namespace NullxesState

variable {s s' : NullxesState}

/-- The window an interactive move has hold of. -/
def grabbed (s : NullxesState) : Option Window :=
  (s.seat.pointer.bind PointerHandle.customGrab).map MoveSurfaceGrab.window

/-- `s'` differs from `s` at most in the layout, the seat, the serial, the log, the configuration
and the stop flag; it has as many workspaces, and no interactive move began. -/
structure Rearranges (s s' : NullxesState) : Prop where
  rest : s' = { s with
    workspaces := s'.workspaces
    workspaceMgr := s'.workspaceMgr
    seat := s'.seat
    serial := s'.serial
    effects := s'.effects
    config := s'.config
    stopped := s'.stopped }
  count : s'.workspaces.count = s.workspaces.count
  grab : ∀ w, s'.grabbed = some w → s.grabbed = some w

namespace Rearranges

theorem refl (s : NullxesState) : Rearranges s s := ⟨rfl, rfl, fun _ h => h⟩

theorem trans {s'' : NullxesState} (h : Rearranges s s') (h' : Rearranges s' s'') :
    Rearranges s s'' where
  rest := by
    rw [h'.rest, h.rest]
  count := h'.count.trans h.count
  grab w hw := h.grab w (h'.grab w hw)

variable (h : Rearranges s s')
include h

theorem compositorState_eq : s'.compositorState = s.compositorState := by rw [h.rest]

theorem xdgShellState_eq : s'.xdgShellState = s.xdgShellState := by rw [h.rest]

theorem layerShellState_eq : s'.layerShellState = s.layerShellState := by rw [h.rest]

theorem outputs_eq : s'.outputs = s.outputs := by rw [h.rest]

theorem lock_eq : s'.lock = s.lock := by rw [h.rest]

end Rearranges

theorem rearranges_nextSerial : Rearranges s s.nextSerial := ⟨rfl, rfl, fun _ h => h⟩

theorem rearranges_emit (es : List Effect) : Rearranges s (s.emit es) := ⟨rfl, rfl, fun _ h => h⟩

theorem rearranges_workspaceMgr (m : WorkspaceManager) :
    Rearranges s { s with workspaceMgr := m } := ⟨rfl, rfl, fun _ h => h⟩

theorem rearranges_activeSpaceMut (f : Space → Space) : Rearranges s (s.activeSpaceMut f) :=
  ⟨rfl, s.workspaces.count_activeMut _ _, fun _ h => h⟩

theorem rearranges_setKeyboardFocus (f : Option WlSurface) :
    Rearranges s (s.setKeyboardFocus f) := by
  rw [setKeyboardFocus]
  split
  · exact .refl s
  · exact ⟨rfl, rfl, fun _ h => h⟩

/-- Storing a pointer on which no interactive move began. -/
theorem rearranges_setPointer {ptr : PointerHandle MoveSurfaceGrab}
    {r : PointerHandle MoveSurfaceGrab × List Effect} (hptr : s.seat.pointer = some ptr)
    (hr : ∀ g, r.1.customGrab = some g → ptr.customGrab = some g) :
    Rearranges s (s.setPointer r) where
  rest := rfl
  count := rfl
  grab w hw := by
    have hw' : r.1.customGrab.map MoveSurfaceGrab.window = some w := hw
    obtain ⟨g, hg, rfl⟩ := Option.map_eq_some_iff.mp hw'
    simp [grabbed, hptr, hr g hg]

/-! ## Handlers -/

theorem rearranges_moveFocused (target : ℕ) : Rearranges s (s.moveFocused target).1 :=
  s.moveFocused_cases target fun _ _ hcount => ⟨rfl, hcount, fun _ h => h⟩

theorem rearranges_closeFocusedWindow : Rearranges s s.closeFocusedWindow :=
  s.closeFocusedWindow_cases (.refl s) fun _ => rearranges_emit _

theorem rearranges_handleKeybind (mods : ModifiersState) (keysym : ℕ) :
    Rearranges s (s.handleKeybind mods keysym).1 :=
  s.handleKeybind_cases mods keysym (.refl s) rearranges_moveFocused rearranges_workspaceMgr
    rearranges_closeFocusedWindow fun _ => rearranges_emit _

theorem rearranges_forwardKey (ev : KeyboardKeyEvent) : Rearranges s (s.forwardKey ev) := by
  rw [forwardKey]
  split
  · exact rearranges_emit _
  · exact .refl s

theorem rearranges_keyboardFilter (ev : KeyboardKeyEvent) (locked : Bool) :
    Rearranges s (s.keyboardFilter ev locked).1 :=
  s.keyboardFilter_cases ev locked (.refl s) (rearranges_handleKeybind _ _)

theorem rearranges_handleKeyboard (ev : KeyboardKeyEvent) (locked : Bool) :
    Rearranges s (s.handleKeyboard ev locked) := by
  have hfilter : Rearranges s (s.nextSerial.keyboardFilter ev locked).1 :=
    rearranges_nextSerial.trans (rearranges_keyboardFilter ev locked)
  exact s.handleKeyboard_cases ev locked rearranges_nextSerial
    (hfilter.trans (rearranges_forwardKey ev)) (hfilter.trans (rearranges_emit _))

theorem rearranges_pointerMotion (focus : PointerFocus) (loc : Point ℚ) :
    Rearranges s (s.pointerMotion focus loc) := by
  rw [pointerMotion]
  split
  · exact .refl s
  next ptr hptr =>
    have hdrop : ∀ g, ({ ptr with pendingFocus := focus }.dropDeadGrab
        s.compositorState.alive).customGrab = some g → ptr.customGrab = some g :=
      fun g => { ptr with pendingFocus := focus }.customGrab_dropDeadGrab
    simp only
    split
    · exact rearranges_setPointer hptr hdrop
    · exact rearranges_setPointer hptr hdrop
    · exact (rearranges_setPointer hptr hdrop).trans (rearranges_activeSpaceMut _)

theorem customGrab_moveGrabButton {ptr : PointerHandle MoveSurfaceGrab} {button : ℕ}
    {pressed : Bool} {g : MoveSurfaceGrab}
    (h : (moveGrabButton ptr button pressed).1.customGrab = some g) :
    ptr.customGrab = some g := by
  simp only [moveGrabButton] at h
  split at h
  · cases h
  · exact h

theorem rearranges_pointerButton (button : ℕ) (pressed : Bool) (serial : Serial) :
    Rearranges s (s.pointerButton button pressed serial) := by
  rw [pointerButton]
  split
  · exact .refl s
  next ptr hptr =>
    have hdrop : ∀ held g, ({ ptr with pressed := held }.dropDeadGrab
        s.compositorState.alive).customGrab = some g → ptr.customGrab = some g :=
      fun held g => { ptr with pressed := held }.customGrab_dropDeadGrab
    refine rearranges_setPointer hptr fun g hg => ?_
    split at hg
    · exact hdrop _ g (PointerHandle.customGrab_defaultGrabButton _ hg)
    · exact hdrop _ g (PointerHandle.customGrab_clickGrabButton _ hg)
    · exact hdrop _ g (customGrab_moveGrabButton hg)

theorem rearranges_pointerAxis : Rearranges s s.pointerAxis := by
  rw [pointerAxis]
  split
  · exact .refl s
  next ptr hptr =>
    exact rearranges_setPointer hptr fun g hg => PointerHandle.customGrab_dropDeadGrab _ hg

theorem rearranges_pressAt (loc : Point ℚ) : Rearranges s (s.pressAt loc) := by
  rw [pressAt]
  split
  · exact (rearranges_activeSpaceMut _).trans (rearranges_setKeyboardFocus _)
  · exact rearranges_setKeyboardFocus _

theorem rearranges_handlePointerButton (button : ℕ) (pressed : Bool) :
    Rearranges s (s.handlePointerButton button pressed) := by
  rw [handlePointerButton]
  simp only
  split
  · exact rearranges_nextSerial
  · refine rearranges_nextSerial.trans (.trans ?_ (rearranges_pointerButton _ _ _))
    split
    · exact rearranges_pressAt _
    · exact .refl _

theorem rearranges_handlePointerMotion (delta : Point ℚ) :
    Rearranges s (s.handlePointerMotion delta) := by
  simp only [handlePointerMotion]
  split
  · exact rearranges_nextSerial
  · exact rearranges_nextSerial.trans (rearranges_pointerMotion _ _)

/-- Input events rearrange. -/
theorem rearranges_processInputEvent (ev : InputEvent) : Rearranges s (s.processInputEvent ev) :=
  s.processInputEvent_cases ev (.refl s) (fun _ => rearranges_handleKeyboard _ _)
    rearranges_handlePointerMotion
    (fun _ => rearranges_nextSerial.trans (rearranges_pointerMotion _ _))
    rearranges_handlePointerButton rearranges_pointerAxis

theorem rearranges_newToplevel (t : ToplevelSurface) : Rearranges s (s.newToplevel t) :=
  (rearranges_activeSpaceMut _).trans (rearranges_workspaceMgr _)

theorem rearranges_toplevelDestroyed (t : ToplevelSurface) :
    Rearranges s (s.toplevelDestroyed t) := by
  rw [toplevelDestroyed_eq]
  exact ⟨rfl, length_unmapFirst _ _, fun _ h => h⟩

theorem rearranges_handleRequestOnMain (req : Request) (disk : FrameConfig) :
    Rearranges s (s.handleRequestOnMain req disk).1 :=
  s.handleRequestOnMain_cases req disk (.refl s) rearranges_workspaceMgr rearranges_moveFocused
    (fun _ => rearranges_emit _) ⟨rfl, rfl, fun _ h => h⟩ ⟨rfl, rfl, fun _ h => h⟩

/-! ## Events -/

/-- The surfaces that exist after an event. -/
def aliveAfter (s : NullxesState) : Event → List WlSurface
  | .createSurface client protocolId =>
    s.freshSurface client protocolId :: s.compositorState.alive
  | .destroySurface surface => s.compositorState.alive.filter (· ≠ surface)
  | _ => s.compositorState.alive

/-- The next toplevel's identity after an event. -/
def nextUidAfter (s : NullxesState) : Event → ℕ
  | .newToplevel _ => s.xdgShellState.nextUid + 1
  | _ => s.xdgShellState.nextUid

/-- What an event does to the parts of the state that are not on the desk. -/
structure Footprint (s : NullxesState) (e : Event) (s' : NullxesState) : Prop where
  count : s'.workspaces.count = s.workspaces.count
  alive : s'.compositorState.alive = s.aliveAfter e
  nextUid : s'.xdgShellState.nextUid = s.nextUidAfter e
  /-- An interactive move takes hold of a window of the active workspace. -/
  grabbed : ∀ w, s'.grabbed = some w → s.grabbed = some w ∨ w ∈ s.activeSpace

/-- After smithay's bookkeeping, a handler that rearranges adds nothing to it. -/
theorem Footprint.of_rearranges {s₁ : NullxesState} {e : Event} (h : Footprint s e s₁)
    (hr : Rearranges s₁ s') : Footprint s e s' where
  count := hr.count.trans h.count
  alive := hr.compositorState_eq ▸ h.alive
  nextUid := hr.xdgShellState_eq ▸ h.nextUid
  grabbed w hw := h.grabbed w (hr.grab w hw)

theorem footprint_moveRequest (t : ToplevelSurface) (serial : Serial) :
    Footprint s (.moveRequest t serial) (s.moveRequest t serial) := by
  rcases s.moveRequest_cases t serial with heq | ⟨ptr, start, window, loc, -, -, hmem, -, heq⟩
  · rw [heq]
    exact ⟨rfl, rfl, rfl, fun _ => .inl⟩
  · rw [heq]
    refine ⟨rfl, rfl, rfl, fun w hw => .inr ?_⟩
    have hw' : some window = some w := hw
    cases hw'
    exact hmem

theorem footprint_newLayerSurface (surface : WlSurface) (layer : Layer) (out : Option OutputId) :
    Footprint s (.newLayerSurface surface layer out)
      (s.react (.newLayerSurface surface layer out)) := by
  rcases out with _ | out
  · simp only [react, newLayerSurface]
    split <;> exact ⟨rfl, rfl, rfl, fun _ => .inl⟩
  · simp only [react, newLayerSurface]
    split <;> exact ⟨rfl, rfl, rfl, fun _ => .inl⟩

theorem footprint_destroySurface (surface : WlSurface) :
    Footprint s (.destroySurface surface) (s.destroySurface surface) := by
  refine ⟨rfl, rfl, rfl, fun w hw => .inl ?_⟩
  simp only [grabbed, destroySurface] at hw
  rw [grabbed]
  generalize s.seat.pointer = pointer at hw ⊢
  rcases pointer with _ | ptr <;> exact hw

/-- **What an event does off the desk.** -/
theorem footprint_react (e : Event) : Footprint s e (s.react e) := by
  cases e with
  | newToplevel surface =>
    have hreg : Footprint s (.newToplevel surface) (s.registerToplevel surface) :=
      ⟨rfl, rfl, rfl, fun _ => .inl⟩
    exact hreg.of_rearranges (rearranges_newToplevel _)
  | toplevelDestroyed t =>
    have hforget : Footprint s (.toplevelDestroyed t) (s.forgetToplevel t) :=
      ⟨rfl, rfl, rfl, fun _ => .inl⟩
    exact hforget.of_rearranges (rearranges_toplevelDestroyed _)
  | destroySurface surface => exact footprint_destroySurface surface
  | moveRequest t serial => exact footprint_moveRequest t serial
  | newLayerSurface surface layer out => exact footprint_newLayerSurface surface layer out
  | layerDestroyed l =>
    simp only [react, layerDestroyed]
    split <;> exact ⟨rfl, rfl, rfl, fun _ => .inl⟩
  | lock client =>
    simp only [react, lockSession]
    split
    · exact ⟨rfl, rfl, rfl, fun _ => .inl⟩
    · refine Footprint.of_rearranges ?_ (rearranges_setKeyboardFocus none)
      exact ⟨rfl, rfl, rfl, fun _ => .inl⟩
  | newLockSurface surface out =>
    simp only [react, newLockSurface]
    split <;> exact ⟨rfl, rfl, rfl, fun _ => .inl⟩
  | unlock =>
    simp only [react, unlockSession]
    split
    · refine Footprint.of_rearranges ?_ (rearranges_setKeyboardFocus _)
      exact ⟨rfl, rfl, rfl, fun _ => .inl⟩
    · exact ⟨rfl, rfl, rfl, fun _ => .inl⟩
  | input ev =>
    have hrefl : Footprint s (.input ev) s := ⟨rfl, rfl, rfl, fun _ => .inl⟩
    exact hrefl.of_rearranges (rearranges_processInputEvent ev)
  | ipc req disk =>
    have hrefl : Footprint s (.ipc req disk) s := ⟨rfl, rfl, rfl, fun _ => .inl⟩
    exact hrefl.of_rearranges (rearranges_handleRequestOnMain req disk)
  | resized size =>
    simp only [react, resized]
    split <;> exact ⟨rfl, rfl, rfl, fun _ => .inl⟩
  | redraw painted =>
    simp only [react, updatePanelBitmap]
    split <;> exact ⟨rfl, rfl, rfl, fun _ => .inl⟩
  | _ => exact ⟨rfl, rfl, rfl, fun _ => .inl⟩

end NullxesState

end Frame

end Nullxes
