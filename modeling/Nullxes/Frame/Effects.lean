import Nullxes.Frame.World

/-!
# What leaves the compositor

The log of effects only grows. `Sends P s s'` says that from `s` to `s'` it grew by effects
satisfying `P`. What the seat sends has a surface it is for (`Effect.inputTarget`); the other
effects name themselves, and one of them is never sent: no handler calls `SessionLocker::lock`, so
no event of the loop confirms a lock to the client that asked for it.

## Main results

* `NullxesState.sends_react` — no event sends `ext_session_lock_v1.locked`
-/

namespace Nullxes

namespace Frame

/-- `ext_session_lock_v1.locked`. -/
def Effect.Confirms (e : Effect) : Prop := ∃ locker, e = .locked locker

theorem Effect.not_confirms_of_inputTarget {e : Effect} (h : e.inputTarget.isSome) :
    ¬ e.Confirms := by
  rintro ⟨locker, rfl⟩
  cases h

theorem Effect.inputTarget_of_mem_toList {α : Type} {o : Option α} {mk : α → Effect} {e : Effect}
    (hmk : ∀ x, (mk x).inputTarget.isSome) (h : e ∈ (o.map mk).toList) : e.inputTarget.isSome := by
  obtain ⟨x, -, rfl⟩ := Option.mem_map.mp (Option.mem_toList.mp h)
  exact hmk x

namespace NullxesState

/-- From `s` to `s'` only effects satisfying `P` have left the compositor. -/
def Sends (P : Effect → Prop) (s s' : NullxesState) : Prop :=
  ∃ sent, s'.effects = s.effects ++ sent ∧ ∀ e ∈ sent, P e

variable {P : Effect → Prop} {s s' s'' : NullxesState}

namespace Sends

theorem of_eq (h : s'.effects = s.effects) : Sends P s s' := ⟨[], by simp [h], by simp⟩

theorem refl (s : NullxesState) : Sends P s s := of_eq rfl

theorem trans (h : Sends P s s') (h' : Sends P s' s'') : Sends P s s'' := by
  obtain ⟨sent, heq, hsent⟩ := h
  obtain ⟨sent', heq', hsent'⟩ := h'
  refine ⟨sent ++ sent', by rw [heq', heq, List.append_assoc], fun e he => ?_⟩
  exact (List.mem_append.mp he).elim (hsent e) (hsent' e)

theorem of_append {sent : List Effect} (h : s'.effects = s.effects ++ sent)
    (hsent : ∀ e ∈ sent, P e) : Sends P s s' := ⟨sent, h, hsent⟩

theorem of_singleton {e : Effect} (h : s'.effects = s.effects ++ [e]) (he : P e) :
    Sends P s s' := ⟨[e], h, by simpa using he⟩

end Sends

end NullxesState

/-! ## The seat -/

namespace PointerHandle

variable {G : Type} (ptr : PointerHandle G) {e : Effect}

theorem inputTarget_innerMotion {f : PointerFocus} {loc : Point ℚ}
    (h : e ∈ (ptr.innerMotion f loc).2) : e.inputTarget.isSome := by
  rw [innerMotion] at h
  simp only at h
  split at h
  · exact Effect.inputTarget_of_mem_toList (fun _ => rfl) h
  · rcases List.mem_append.mp h with h | h
    · exact Effect.inputTarget_of_mem_toList (fun _ => rfl) h
    · exact Effect.inputTarget_of_mem_toList (fun _ => rfl) h

theorem inputTarget_innerButton {button : ℕ} {pressed : Bool}
    (h : e ∈ ptr.innerButton button pressed) : e.inputTarget.isSome :=
  Effect.inputTarget_of_mem_toList (fun _ => rfl) h

theorem inputTarget_button_unsetGrab {button : ℕ} {pressed : Bool}
    (h : e ∈ ptr.innerButton button pressed ++ ptr.unsetGrab.2) : e.inputTarget.isSome :=
  (List.mem_append.mp h).elim ptr.inputTarget_innerButton
    (inputTarget_innerMotion { ptr with grab := none })

theorem inputTarget_clickGrabButton {button : ℕ} {pressed : Bool}
    (h : e ∈ (ptr.clickGrabButton button pressed).2) : e.inputTarget.isSome := by
  simp only [clickGrabButton] at h
  split at h
  · exact ptr.inputTarget_button_unsetGrab h
  · exact ptr.inputTarget_innerButton h

theorem inputTarget_moveGrabButton {ptr : PointerHandle MoveSurfaceGrab} {button : ℕ}
    {pressed : Bool} (h : e ∈ (NullxesState.moveGrabButton ptr button pressed).2) :
    e.inputTarget.isSome := by
  simp only [NullxesState.moveGrabButton] at h
  split at h
  · exact ptr.inputTarget_button_unsetGrab h
  · exact ptr.inputTarget_innerButton h

end PointerHandle

namespace NullxesState

variable {P : Effect → Prop} {s : NullxesState}

/-! ## Handlers

`P` is anything that holds of what the seat sends. -/

section Handlers

variable (hseat : ∀ e : Effect, e.inputTarget.isSome → P e)
include hseat

theorem sends_setKeyboardFocus (focus : Option WlSurface) :
    Sends P s (s.setKeyboardFocus focus) := by
  rw [setKeyboardFocus]
  split
  · exact .refl s
  · refine .of_append rfl fun e he => hseat e ?_
    split at he
    · cases he
    · rcases List.mem_append.mp he with he | he
      · exact Effect.inputTarget_of_mem_toList (fun _ => rfl) he
      · exact Effect.inputTarget_of_mem_toList (fun _ => rfl) he

theorem sends_forwardKey (ev : KeyboardKeyEvent) : Sends P s (s.forwardKey ev) := by
  rw [forwardKey]
  split
  · exact .of_singleton rfl (hseat _ rfl)
  · exact .refl s

theorem sends_pointerMotion (focus : PointerFocus) (loc : Point ℚ) :
    Sends P s (s.pointerMotion focus loc) := by
  rw [pointerMotion]
  split
  · exact .refl s
  · simp only
    split
    · exact .of_append rfl fun e he => hseat e (PointerHandle.inputTarget_innerMotion _ he)
    · exact .of_append rfl fun e he => hseat e (PointerHandle.inputTarget_innerMotion _ he)
    · exact .of_append rfl fun e he => hseat e (PointerHandle.inputTarget_innerMotion _ he)

theorem sends_pointerButton (button : ℕ) (pressed : Bool) (serial : Serial) :
    Sends P s (s.pointerButton button pressed serial) := by
  rw [pointerButton]
  split
  · exact .refl s
  · refine .of_append rfl fun e he => hseat e ?_
    split at he
    · exact PointerHandle.inputTarget_innerButton _ he
    · exact PointerHandle.inputTarget_clickGrabButton _ he
    · exact PointerHandle.inputTarget_moveGrabButton he

theorem sends_pointerAxis : Sends P s s.pointerAxis := by
  rw [pointerAxis]
  split
  · exact .refl s
  · exact .of_append rfl fun e he =>
      hseat e (Effect.inputTarget_of_mem_toList (fun _ => rfl) he)

theorem sends_pressAt (loc : Point ℚ) : Sends P s (s.pressAt loc) := by
  rw [pressAt]
  split
  · exact .trans (.of_eq rfl) (sends_setKeyboardFocus hseat _)
  · exact sends_setKeyboardFocus hseat _

theorem sends_handlePointerButton (button : ℕ) (pressed : Bool) :
    Sends P s (s.handlePointerButton button pressed) := by
  rw [handlePointerButton]
  simp only
  split
  · exact .of_eq rfl
  · refine .trans ?_ (sends_pointerButton hseat _ _ _)
    split
    · exact .trans (.of_eq rfl) (sends_pressAt hseat _)
    · exact .of_eq rfl

theorem sends_moveRequest (t : ToplevelSurface) (serial : Serial) :
    Sends P s (s.moveRequest t serial) := by
  rcases s.moveRequest_cases t serial with heq | ⟨ptr, start, window, loc, -, -, -, -, heq⟩
  · rw [heq]
    exact .refl s
  · rw [heq]
    exact .of_append rfl fun e he => hseat e (PointerHandle.inputTarget_innerMotion _ he)

end Handlers

theorem sends_moveFocused (target : ℕ) : Sends P s (s.moveFocused target).1 :=
  s.moveFocused_cases target fun _ _ _ => .of_eq rfl

theorem sends_handleRequestOnMain (req : Request) (disk : FrameConfig)
    (hspawn : ∀ bin, P (.spawned bin)) : Sends P s (s.handleRequestOnMain req disk).1 :=
  s.handleRequestOnMain_cases req disk (.refl s) (fun _ => .of_eq rfl) sends_moveFocused
    (fun bin => .of_singleton rfl (hspawn bin)) (.of_eq rfl) (.of_eq rfl)

theorem sends_newLockSurface (surface : LockSurface) (out : OutputId)
    (hconfigure : ∀ size, P (.lockConfigure surface size)) :
    Sends P s (s.newLockSurface surface out) := by
  simp only [newLockSurface]
  split
  · exact .refl s
  · refine .of_append rfl fun e he => ?_
    split at he
    · rw [List.mem_singleton.mp he]
      exact hconfigure _
    · cases he

theorem sends_newLayerSurface (l : LayerSurface) (out : Option OutputId)
    (hclosed : P (.layerClosed l.wlSurface)) : Sends P s (s.newLayerSurface l out) := by
  rcases out with _ | out
  · simp only [newLayerSurface]
    split
    · exact .of_singleton rfl hclosed
    · exact .of_eq rfl
  · simp only [newLayerSurface]
    split
    · exact .of_singleton rfl hclosed
    · exact .of_eq rfl

theorem sends_layerDestroyed (l : LayerSurface) : Sends P s (s.layerDestroyed l) := by
  rw [layerDestroyed]
  split <;> exact .of_eq rfl

theorem sends_toplevelDestroyed (t : ToplevelSurface) : Sends P s (s.toplevelDestroyed t) := by
  refine .of_eq ?_
  rw [toplevelDestroyed_eq]

theorem sends_resized (size : Point ℤ) : Sends P s (s.resized size) := by
  rw [resized]
  split <;> exact .of_eq rfl

theorem sends_updatePanelBitmap (painted : ℕ → ℕ → Rgba) :
    Sends P s (s.updatePanelBitmap painted) := by
  simp only [updatePanelBitmap]
  split <;> exact .of_eq rfl

/-! ## Nothing confirms a lock -/

/-- Nothing that has left the compositor from `s` to `s'` confirms a lock. -/
abbrev Unconfirmed (s s' : NullxesState) : Prop := Sends (fun e => ¬ e.Confirms) s s'

theorem sends_handleKeybind (mods : ModifiersState) (keysym : ℕ) :
    Unconfirmed s (s.handleKeybind mods keysym).1 := by
  refine s.handleKeybind_cases mods keysym (.refl s) sends_moveFocused (fun _ => .of_eq rfl) ?_ ?_
  · exact s.closeFocusedWindow_cases (.refl s) fun _ => .of_singleton rfl (by rintro ⟨_, ⟨⟩⟩)
  · exact fun bin => .of_singleton rfl (by rintro ⟨_, ⟨⟩⟩)

theorem sends_handleKeyboard (ev : KeyboardKeyEvent) (locked : Bool) :
    Unconfirmed s (s.handleKeyboard ev locked) := by
  have hnext : Unconfirmed s s.nextSerial := .of_eq rfl
  have hfilter : Unconfirmed s (s.nextSerial.keyboardFilter ev locked).1 :=
    hnext.trans (s.nextSerial.keyboardFilter_cases ev locked (.refl _) (sends_handleKeybind _ _))
  refine s.handleKeyboard_cases ev locked hnext (hfilter.trans ?_) (hfilter.trans ?_)
  · exact sends_forwardKey (fun _ => Effect.not_confirms_of_inputTarget) ev
  · exact .of_singleton rfl (by rintro ⟨_, ⟨⟩⟩)

theorem sends_processInputEvent (ev : InputEvent) : Unconfirmed s (s.processInputEvent ev) := by
  have hseat : ∀ e : Effect, e.inputTarget.isSome → ¬ e.Confirms :=
    fun _ => Effect.not_confirms_of_inputTarget
  refine s.processInputEvent_cases ev (.refl s) (fun ev => sends_handleKeyboard ev _) ?_ ?_
    (sends_handlePointerButton hseat) (sends_pointerAxis hseat)
  · intro delta
    simp only [handlePointerMotion]
    split
    · exact .of_eq rfl
    · exact .trans (.of_eq rfl) (sends_pointerMotion hseat _ _)
  · exact fun pos => .trans (.of_eq rfl) (sends_pointerMotion hseat _ _)

theorem sends_unlockSession : Unconfirmed s s.unlockSession := by
  let dropped := (s.lock.map fun l => Effect.finished l.locker).toList
  let opened : NullxesState := { s with lock := none, effects := s.effects ++ dropped }
  have hopen : Unconfirmed s opened := by
    refine .of_append rfl fun e he => ?_
    obtain ⟨l, -, rfl⟩ := Option.mem_map.mp (Option.mem_toList.mp he)
    rintro ⟨_, ⟨⟩⟩
  simp only [unlockSession]
  split
  next top _ =>
    have hnext : Unconfirmed opened opened.nextSerial := .of_eq rfl
    exact hopen.trans (hnext.trans
      (sends_setKeyboardFocus (fun _ => Effect.not_confirms_of_inputTarget) (some top)))
  next => exact hopen

/-- **No event confirms a lock.** -/
theorem sends_react (e : Event) : Unconfirmed s (s.react e) := by
  have hseat : ∀ e : Effect, e.inputTarget.isSome → ¬ e.Confirms :=
    fun _ => Effect.not_confirms_of_inputTarget
  cases e with
  | toplevelDestroyed t => exact .trans (.of_eq rfl) (sends_toplevelDestroyed t)
  | moveRequest t serial => exact sends_moveRequest hseat t serial
  | newLayerSurface surface layer out =>
    exact .trans (.of_eq rfl) (sends_newLayerSurface _ out (by rintro ⟨_, ⟨⟩⟩))
  | layerDestroyed l => exact .trans (.of_eq rfl) (sends_layerDestroyed l)
  | lock client =>
    simp only [react, lockSession]
    split
    · exact .of_singleton rfl (by rintro ⟨_, ⟨⟩⟩)
    · exact .trans (.of_eq rfl) (sends_setKeyboardFocus hseat none)
  | newLockSurface surface out =>
    exact .trans (.of_eq rfl) (sends_newLockSurface _ out fun size => by rintro ⟨_, ⟨⟩⟩)
  | unlock => exact sends_unlockSession
  | input ev => exact sends_processInputEvent ev
  | ipc req disk => exact sends_handleRequestOnMain req disk fun bin => by rintro ⟨_, ⟨⟩⟩
  | resized size => exact sends_resized size
  | redraw painted => exact sends_updatePanelBitmap painted
  | _ => exact .of_eq rfl

end NullxesState

end Frame

end Nullxes
