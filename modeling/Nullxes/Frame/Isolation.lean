import Nullxes.Frame.Effects
import Nullxes.Frame.Simulation

/-!
# Input while the session is locked

`lock` takes the keyboard focus away, `process_input_event` drops pointer events and lets the key
filter forward everything while a lock is held, and a key forwarded without a focus reaches nobody.
Together: between an accepted `lock` and the next `unlock` nothing is typed, clicked or triggered
behind the lock screen.

The first half is an invariant of the desk (`Desk.Wf.locked_focus`). The second half is about what
leaves the compositor, so it is proved of the log of effects, event by event.

## Main results

* `NullxesState.hush_react` — what an event adds to the log while the session is locked
* `input_isolated_while_locked` — isolation throughout every run
-/

namespace Nullxes

namespace Frame

/-- Nothing is delivered to a client's surface and no shortcut has run. -/
def Effect.Harmless (e : Effect) : Prop := e.inputTarget = none ∧ ∀ keysym, e ≠ .intercepted keysym

namespace NullxesState

variable {s s' : NullxesState}

/-- From `s` to `s'` only harmless things have left the compositor. -/
abbrev Hush (s s' : NullxesState) : Prop := Sends Effect.Harmless s s'

/-- While the session is locked, an input event moves nothing and sends nothing. -/
theorem hush_processInputEvent (hl : s.lock.isSome) (hf : s.keyboardFocus = none)
    (ev : InputEvent) : s.processInputEvent ev = s ∨ s.processInputEvent ev = s.nextSerial := by
  simp only [processInputEvent]
  cases ev with
  | keyboard ev =>
    right
    have hforward : s.nextSerial.forwardKey ev = s.nextSerial := by
      rw [forwardKey, show s.nextSerial.keyboardFocus = none from hf]
    simp only [handleKeyboard, keyboardFilter, hl, if_true, hforward]
    split <;> rfl
  | other => exact .inl rfl
  | _ => exact .inl (by simp [hl])

/-- **What an event adds to the log while the session is locked.** Only `unlock` and a granted
`move_request`, which takes the pointer off its surface, are left out. -/
theorem hush_react (hl : s.lock.isSome) (hf : s.keyboardFocus = none) {e : Event}
    (hunlock : e ≠ .unlock) (hmove : ∀ t serial, e ≠ .moveRequest t serial) :
    Hush s (s.react e) := by
  cases e with
  | unlock => exact absurd rfl hunlock
  | moveRequest t serial => exact absurd rfl (hmove t serial)
  | toplevelDestroyed t => exact .trans (.of_eq rfl) (sends_toplevelDestroyed t)
  | newLayerSurface surface layer out =>
    exact .trans (.of_eq rfl) (sends_newLayerSurface _ out ⟨rfl, by simp⟩)
  | layerDestroyed l => exact .trans (.of_eq rfl) (sends_layerDestroyed l)
  | lock client =>
    simp only [react, lockSession, hl, if_true]
    exact .of_singleton rfl ⟨rfl, by simp⟩
  | newLockSurface surface out =>
    exact .trans (.of_eq rfl) (sends_newLockSurface _ out fun size => ⟨rfl, by simp⟩)
  | input ev =>
    rcases hush_processInputEvent hl hf ev with heq | heq
    · rw [react, heq]
      exact .refl s
    · rw [react, heq]
      exact .of_eq rfl
  | ipc req disk => exact sends_handleRequestOnMain req disk fun bin => ⟨rfl, by simp⟩
  | resized size => exact sends_resized size
  | redraw painted => exact sends_updatePanelBitmap painted
  | _ => exact .of_eq rfl

/-- A second request changes nothing but its own locker, which is dropped. -/
theorem lock_react_lock (hl : s.lock.isSome) (client : ClientId) :
    (s.react (.lock client)).lock = s.lock := by
  simp only [react, lockSession, hl, if_true]
  rfl

/-- The event delivers no key or pointer event but to a lock surface and runs no shortcut; an input
event moves nothing, and a further `lock` leaves the session's lock as it is. -/
def Isolated (s : NullxesState) (e : Event) : Prop :=
  (∃ sent, (s.react e).effects = s.effects ++ sent ∧
    (∀ eff ∈ sent, ∀ surface, eff.inputTarget = some surface →
      ∃ l, s.lock = some l ∧ (⟨surface⟩ : LockSurface) ∈ l.surfaces) ∧
    ∀ keysym, .intercepted keysym ∉ sent) ∧
  (∀ ev, e = .input ev → s.react e = s ∨ s.react e = s.nextSerial) ∧
  ∀ client, e = .lock client → (s.react e).lock = s.lock

theorem isolated_of_locked (hl : s.lock.isSome) (hf : s.keyboardFocus = none) {e : Event}
    (hunlock : e ≠ .unlock) (hmove : ∀ t serial, e ≠ .moveRequest t serial) : s.Isolated e := by
  obtain ⟨sent, heffects, hsent⟩ := hush_react hl hf hunlock hmove
  refine ⟨⟨sent, heffects, ?_, ?_⟩, ?_, ?_⟩
  · intro eff heff surface htarget
    rw [(hsent eff heff).1] at htarget
    cases htarget
  · exact fun keysym hmem => (hsent _ hmem).2 keysym rfl
  · rintro ev rfl
    exact hush_processInputEvent hl hf ev
  · rintro client rfl
    exact lock_react_lock hl client

end NullxesState

/-! ## Runs -/

/-- A window is clicked, the session is locked, and while it is locked a key and a button go down,
another window opens, another client asks for the lock and a control request switches workspace. -/
def lockedInput : List Event :=
  [.createSurface 0 12, .newToplevel ⟨0, 12, 0⟩, .input (.pointerButton 272 true), .lock 7,
    .input (.keyboard ⟨KeySyms.keyQLower, ⟨true, false⟩, true⟩), .input (.pointerButton 272 false),
    .createSurface 0 13, .newToplevel ⟨0, 13, 1⟩, .lock 8, .ipc (.switchWorkspace 1) {}, .unlock]

/-- **Input isolation while locked.** In every state of a run in which the session is locked nothing
has the keyboard, and every event taken there, until `unlock`, is isolated. A `move_request` is left
out: when it is granted the pointer leaves the surface it was on. -/
theorem input_isolated_while_locked {w : World} {es : List Event} (h0 : frame.Init w)
    (hl : frame.Legal w es) :
    frame.Always (fun w => w.state.lock.isSome → w.state.keyboardFocus = none) w es ∧
    frame.EachStep (fun w e => w.state.lock.isSome → e ≠ .unlock →
      (∀ t serial, e ≠ .moveRequest t serial) → w.state.Isolated e) w es := by
  have hfocus : frame.Always
      (fun w => w.state.lock.isSome → w.state.keyboardFocus = none) w es := by
    intro pre hpre
    have hreach := (EventMachine.Reachable.init h0).run (hl.of_prefix hpre)
    exact (World.wf_of_reachable hreach).desk.locked_focus
  refine ⟨hfocus, fun pre e hpre hlock hunlock hmove => ?_⟩
  have hnone := hfocus pre ((List.prefix_append pre [e]).trans hpre) hlock
  exact NullxesState.isolated_of_locked hlock hnone hunlock hmove

theorem input_isolated_while_locked_lockedInput :
    frame.Always (fun w => w.state.lock.isSome → w.state.keyboardFocus = none) World.desktop
      lockedInput ∧
    frame.EachStep (fun w e => w.state.lock.isSome → e ≠ .unlock →
      (∀ t serial, e ≠ .moveRequest t serial) → w.state.Isolated e) World.desktop lockedInput :=
  input_isolated_while_locked init_desktop (by decide +kernel)

end Frame

end Nullxes
