import Nullxes.Frame.World

/-!
# Shortcuts and key presses

`handle_keybind` is a table from modifiers and keysym to an action of the compositor. The filter of
`handle_keyboard` looks the table up for every key event it is given, and smithay gives it presses
and releases alike; the state of the key never reaches the table.

In a run each key event carries the code of its key. A key is pressed while it is up and released
while it is down; the modifiers and the keysym of an event are whatever xkb reports with it, so they
may have changed between a press and the release that ends it.

## Main results

* `NullxesState.handleKeybind_eq` — the table
* `NullxesState.runsNone_iff` — when a key event runs no shortcut
* `oncePerPress_iff` — when every press in a run runs its shortcut exactly once
-/

namespace Nullxes

namespace Frame

/-! ## The table -/

/-- The actions `handle_keybind` has a shortcut for. -/
inductive Shortcut
  | moveFocused (target : ℕ)
  | switchTo (idx : ℕ)
  | switchNext
  | switchPrev
  | closeFocused
  | lock
  | terminal
  | launcher
  deriving DecidableEq, Repr

/-- The shortcut bound to a keysym under the given modifiers. -/
def shortcut (mods : ModifiersState) (keysym : ℕ) : Option Shortcut :=
  if !mods.logo then none
  else if KeySyms.key1 ≤ keysym ∧ keysym ≤ KeySyms.key9 then
    let idx := keysym - KeySyms.key1
    some (if mods.shift then .moveFocused idx else .switchTo idx)
  else if keysym = KeySyms.keyRight then some .switchNext
  else if keysym = KeySyms.keyLeft then some .switchPrev
  else if keysym = KeySyms.keyQLower ∨ keysym = KeySyms.keyQUpper then
    some .closeFocused
  else if keysym = KeySyms.keyLLower ∨ keysym = KeySyms.keyLUpper then
    some .lock
  else if keysym = KeySyms.keyReturn ∨ keysym = KeySyms.keyKpEnter then
    some .terminal
  else if keysym = KeySyms.keySuperL ∨ keysym = KeySyms.keySuperR then
    some .launcher
  else none

namespace NullxesState

variable (s : NullxesState)

/-- What an action does. -/
def perform : Shortcut → NullxesState
  | .moveFocused target => (s.moveFocused target).1
  | .switchTo idx => { s with workspaceMgr := (s.workspaceMgr.switchTo idx).1 }
  | .switchNext =>
    { s with workspaceMgr := (s.workspaceMgr.switchNext s.config.workspace.wrap).1 }
  | .switchPrev =>
    { s with workspaceMgr := (s.workspaceMgr.switchPrev s.config.workspace.wrap).1 }
  | .closeFocused => s.closeFocusedWindow
  | .lock => s.spawnDetached s.config.keybindings.lockBinary
  | .terminal => s.spawnDetached "nullxes-slate"
  | .launcher => s.spawnDetached s.config.keybindings.launcherBinary

/-- What is done with what the table has for a key. -/
def answer : Option Shortcut → NullxesState × FilterResult
  | some a => (s.perform a, .intercept)
  | none => (s, .forward)

/-- `handle_keybind` performs what the table has, and intercepts the key if it has anything. -/
theorem handleKeybind_eq (mods : ModifiersState) (keysym : ℕ) :
    s.handleKeybind mods keysym =
      match shortcut mods keysym with
      | some a => (s.perform a, .intercept)
      | none => (s, .forward) := by
  change s.handleKeybind mods keysym = s.answer (shortcut mods keysym)
  rw [handleKeybind, shortcut]
  simp only [apply_ite s.answer, apply_ite some]
  rfl

/-- The number of shortcuts the compositor has run so far. -/
def shortcutsRun : ℕ :=
  s.effects.countP fun e => match e with
    | .intercepted _ => true
    | _ => false

/-- The key event runs the shortcut, once. -/
def RunsOnce (ev : KeyboardKeyEvent) (a : Shortcut) : Prop :=
  s.processInputEvent (.keyboard ev) = (s.nextSerial.perform a).emit [.intercepted ev.keysym]

/-- The key event runs no shortcut. -/
def RunsNone (ev : KeyboardKeyEvent) : Prop :=
  (s.processInputEvent (.keyboard ev)).shortcutsRun = s.shortcutsRun

/-- Keys reach `handle_keybind`: there is a keyboard, the session is unlocked, and no shutdown has
begun. -/
def Listening : Prop := s.seat.keyboard.isSome ∧ s.lock = none ∧ s.shutdownReason = false

instance : Decidable s.Listening := inferInstanceAs (Decidable (_ ∧ _ ∧ _))

@[simp] theorem shortcutsRun_nextSerial : s.nextSerial.shortcutsRun = s.shortcutsRun := rfl

theorem shortcutsRun_emit_intercepted (keysym : ℕ) :
    (s.emit [.intercepted keysym]).shortcutsRun = s.shortcutsRun + 1 := by
  simp [shortcutsRun, emit]

theorem shortcutsRun_forwardKey (ev : KeyboardKeyEvent) :
    (s.forwardKey ev).shortcutsRun = s.shortcutsRun := by
  rw [forwardKey]
  split <;> simp [shortcutsRun, emit]

/-- Performing an action is not running another shortcut. -/
theorem shortcutsRun_perform (a : Shortcut) : (s.perform a).shortcutsRun = s.shortcutsRun := by
  have hspawn : ∀ bin, (s.spawnDetached bin).shortcutsRun = s.shortcutsRun := by
    intro bin
    simp [shortcutsRun, spawnDetached, emit]
  cases a with
  | moveFocused target =>
    have hmove : (s.moveFocused target).1.effects = s.effects := by
      simp only [moveFocused, moveWindowBetweenWorkspaces]
      split
      · split
        · rfl
        · split <;> rfl
      · rfl
    rw [shortcutsRun, shortcutsRun, perform, hmove]
  | closeFocused =>
    rw [perform, closeFocusedWindow]
    split
    · rfl
    split
    · rfl
    split
    · rfl
    · simp [shortcutsRun, emit, Window.toplevel]
  | lock => exact hspawn _
  | terminal => exact hspawn _
  | launcher => exact hspawn _
  | _ => rfl

/-- What a key event comes to: a shortcut if keys are listened to and the table has one, and the key
for the focused client otherwise. -/
theorem processKey_eq (ev : KeyboardKeyEvent) (hkeyboard : s.seat.keyboard.isSome) :
    s.processInputEvent (.keyboard ev) =
      if s.Listening then
        match shortcut ev.mods ev.keysym with
        | some a => (s.nextSerial.perform a).emit [.intercepted ev.keysym]
        | none => s.nextSerial.forwardKey ev
      else s.nextSerial.forwardKey ev := by
  obtain ⟨kbd, hkbd⟩ := Option.isSome_iff_exists.mp hkeyboard
  have hnext : s.nextSerial.seat.keyboard = some kbd := hkbd
  simp only [processInputEvent, handleKeyboard, hnext, keyboardFilter]
  by_cases hlock : s.lock = none
  · have hlock' : s.nextSerial.lock = none := hlock
    cases hdown : s.shutdownReason with
    | true =>
      have hdown' : s.nextSerial.shutdownReason = true := hdown
      simp [Listening, hlock, hdown, hdown']
    | false =>
      have hdown' : s.nextSerial.shutdownReason = false := hdown
      simp only [Listening, hkeyboard, hlock, hlock', hdown, hdown', and_self, if_true,
        Option.isSome_none, Bool.false_eq_true, if_false, handleKeybind_eq]
      cases shortcut ev.mods ev.keysym <;> rfl
  · have hsome : s.lock.isSome = true := Option.isSome_iff_ne_none.mpr hlock
    simp [Listening, hlock, hsome]

theorem processKey_of_no_keyboard (ev : KeyboardKeyEvent) (h : ¬ s.seat.keyboard.isSome) :
    s.processInputEvent (.keyboard ev) = s.nextSerial := by
  have hnone : s.nextSerial.seat.keyboard = none := Option.not_isSome_iff_eq_none.mp h
  simp only [processInputEvent, handleKeyboard, hnone]

/-- A key event runs one shortcut or none, and whether the key went down or up makes no
difference. -/
theorem shortcutsRun_processKey (ev : KeyboardKeyEvent) :
    (s.processInputEvent (.keyboard ev)).shortcutsRun =
      if s.Listening ∧ (shortcut ev.mods ev.keysym).isSome then s.shortcutsRun + 1
      else s.shortcutsRun := by
  by_cases hk : s.seat.keyboard.isSome
  · rw [s.processKey_eq ev hk]
    by_cases hl : s.Listening
    · rcases shortcut ev.mods ev.keysym with _ | a
      · simp [hl, shortcutsRun_forwardKey]
      · simp [hl, shortcutsRun_emit_intercepted, shortcutsRun_perform]
    · simp [hl, shortcutsRun_forwardKey]
  · have hl : ¬ s.Listening := fun h => hk h.1
    simp [s.processKey_of_no_keyboard ev hk, hl]

theorem runsNone_iff (ev : KeyboardKeyEvent) :
    s.RunsNone ev ↔ (s.Listening → shortcut ev.mods ev.keysym = none) := by
  rw [RunsNone, shortcutsRun_processKey]
  by_cases hl : s.Listening
  · rcases shortcut ev.mods ev.keysym with _ | a <;> simp [hl]
  · simp [hl]

theorem runsOnce_iff {ev : KeyboardKeyEvent} {a : Shortcut}
    (h : shortcut ev.mods ev.keysym = some a) : s.RunsOnce ev a ↔ s.Listening := by
  constructor
  · intro honce
    by_contra hl
    have hcount := congrArg shortcutsRun honce
    rw [shortcutsRun_processKey, shortcutsRun_emit_intercepted, shortcutsRun_perform,
      shortcutsRun_nextSerial] at hcount
    simp [hl] at hcount
  · intro hl
    rw [RunsOnce, s.processKey_eq ev hl.1, if_pos hl, h]

end NullxesState

/-! ## Presses and releases -/

/-- An event of the keyboard, with the code of its key, or any other event. -/
inductive KeyedEvent
  | key (code : ℕ) (ev : NullxesState.KeyboardKeyEvent)
  | other (e : Event)

/-- The event FRAME sees. -/
def KeyedEvent.event : KeyedEvent → Event
  | .key _ ev => .input (.keyboard ev)
  | .other e => e

/-- Keys go down and up in turn, `down` being down at the start. -/
def WellNested : List ℕ → List KeyedEvent → Prop
  | _, [] => True
  | down, .key code ev :: es =>
    if ev.pressed then code ∉ down ∧ WellNested (code :: down) es
    else code ∈ down ∧ WellNested (down.filter (· ≠ code)) es
  | down, .other e :: es => (∀ ev, e ≠ .input (.keyboard ev)) ∧ WellNested down es

/-- The world after a list of events. -/
def World.after (w : World) (es : List KeyedEvent) : World := frame.run w (es.map KeyedEvent.event)

/-- A press of this combination is meant to run a shortcut. -/
def NullxesState.Bound (s : NullxesState) (ev : NullxesState.KeyboardKeyEvent) : Prop :=
  s.lock = none ∧ (shortcut ev.mods ev.keysym).isSome

/-- `P` holds of every press of a bound combination in an unlocked session, and `R` of the release
that ends it: the first event of the same key after it. -/
def EachPress (P R : NullxesState → NullxesState.KeyboardKeyEvent → Prop) (w : World)
    (es : List KeyedEvent) : Prop :=
  ∀ pre code ev rest, es = pre ++ .key code ev :: rest → ev.pressed = true →
    (w.after pre).state.Bound ev →
      P (w.after pre).state ev ∧
        ∀ mid ev' rest', rest = mid ++ .key code ev' :: rest' → ev'.pressed = false →
          (∀ ev'', .key code ev'' ∉ mid) → R (w.after (pre ++ .key code ev :: mid)).state ev'

theorem eachPress_congr {P P' R R' : NullxesState → NullxesState.KeyboardKeyEvent → Prop}
    (hP : ∀ s ev, s.Bound ev → (P s ev ↔ P' s ev)) (hR : ∀ s ev, R s ev ↔ R' s ev) (w : World)
    (es : List KeyedEvent) : EachPress P R w es ↔ EachPress P' R' w es := by
  refine forall₄_congr fun pre code ev rest => forall₃_congr fun _ _ hbound => ?_
  refine and_congr (hP _ ev hbound) ?_
  exact forall₃_congr fun mid ev' rest' => forall₃_congr fun _ _ _ => hR _ ev'

namespace NullxesState

variable (s : NullxesState)

/-- The press runs its shortcut exactly once. -/
def RunsItsShortcut (ev : KeyboardKeyEvent) : Prop :=
  ∃ a, shortcut ev.mods ev.keysym = some a ∧ s.RunsOnce ev a

theorem runsItsShortcut_iff {ev : KeyboardKeyEvent} (h : s.Bound ev) :
    s.RunsItsShortcut ev ↔ s.Listening := by
  obtain ⟨a, ha⟩ := Option.isSome_iff_exists.mp h.2
  constructor
  · rintro ⟨a', ha', honce⟩
    exact (s.runsOnce_iff ha').mp honce
  · intro hl
    exact ⟨a, ha, (s.runsOnce_iff ha).mpr hl⟩

end NullxesState

/-- **Once per press.** In a run every press of a bound combination in an unlocked session runs its
shortcut exactly once and the matching release runs none, if and only if every such press comes
while keys are listened to, and no matching release is a bound combination while they are. -/
theorem oncePerPress_iff (w : World) (es : List KeyedEvent) :
    EachPress NullxesState.RunsItsShortcut NullxesState.RunsNone w es ↔
      EachPress (fun s _ => s.Listening)
        (fun s ev => s.Listening → shortcut ev.mods ev.keysym = none) w es :=
  eachPress_congr (fun s _ h => s.runsItsShortcut_iff h) (fun s ev => s.runsNone_iff ev) w es

/-- Super is held down, and the right arrow key is pressed and released. -/
def superRight : List KeyedEvent :=
  [.key 125 ⟨KeySyms.keySuperL, ⟨true, false⟩, true⟩,
    .key 106 ⟨KeySyms.keyRight, ⟨true, false⟩, true⟩,
    .key 106 ⟨KeySyms.keyRight, ⟨true, false⟩, false⟩]

/-- One press and release of the right arrow key takes FRAME two workspaces on. -/
theorem superRight_switches_twice :
    frame.Init World.desktop ∧ frame.Legal World.desktop (superRight.map KeyedEvent.event) ∧
      WellNested [] superRight ∧ (World.desktop.after superRight).state.workspaceMgr.active = 2 ∧
      ¬ EachPress NullxesState.RunsItsShortcut NullxesState.RunsNone World.desktop superRight := by
  refine ⟨init_desktop, by decide +kernel, by simp [superRight, WellNested], by decide +kernel,
    fun h => ?_⟩
  obtain ⟨-, hrelease⟩ := h [.key 125 ⟨KeySyms.keySuperL, ⟨true, false⟩, true⟩] 106
    ⟨KeySyms.keyRight, ⟨true, false⟩, true⟩ _ rfl rfl ⟨by decide +kernel, by decide +kernel⟩
  have hnone := hrelease [] ⟨KeySyms.keyRight, ⟨true, false⟩, false⟩ [] rfl rfl (by simp)
  rw [NullxesState.RunsNone] at hnone
  exact absurd hnone (by decide +kernel)

end Frame

end Nullxes
