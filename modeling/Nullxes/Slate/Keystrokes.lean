import Nullxes.Slate.Geometry

/-!
# What is typed

A press of a key stands for bytes: those of its action, or else the text that the keymap gives. The
terminal decides in three layers what of that reaches the shell, and one of them, which is shared
with the text fields of the other clients, drops a text of control characters. Without that every
press arrives, in order, whatever else happens in between.

## Main definitions

* `typed` — the bytes of a run, by the keymap and the modifiers that the compositor sent
* `SlateState.output` — what the shell is written, once the event loop has taken it
* `Delivered` — the step is no press of a control character

## Main results

* `output_eq_iff` — the shell is written what is typed, exactly if no step drops something
* `not_delivered` — Ctrl+C
-/

namespace Nullxes

namespace Slate

open Wlcommon

/-! ## Strokes -/

/-- The bytes that a press stands for. -/
def strokeBytes (keymap : Keymap) (mods : ModifierMasks) (key : UInt32) : List UInt8 :=
  match actionFromKeysym (keymap.oneSym mods (key + 8)) with
  | some action => actionBytes action
  | none => (keymap.utf8 mods (key + 8)).toUTF8.toList

/-- The keymap and the modifiers, after an event. -/
def told (k : Option (Keymap × ModifierMasks)) : Event → Option (Keymap × ModifierMasks)
  | .dispatch (.keymap xkbV1 (some keymap)) => if xkbV1 then some (keymap, ⟨0, 0, 0, 0⟩) else k
  | .dispatch (.modifiers mods) => k.map fun s => (s.1, mods)
  | _ => k

/-- The bytes of a step. -/
def typedBytes (k : Option (Keymap × ModifierMasks)) : Event → List UInt8
  | .dispatch (.key key pressed) =>
    if pressed then k.elim [] fun s => strokeBytes s.1 s.2 key else []
  | _ => []

/-- The bytes of a run. -/
def typed : Option (Keymap × ModifierMasks) → List Event → List UInt8
  | _, [] => []
  | k, e :: es => typedBytes k e ++ typed (told k e) es

/-- The text of the press, unless it stands for an action, is empty or has a character that is no
control character. -/
def Delivered (k : Option (Keymap × ModifierMasks)) : Event → Prop
  | .dispatch (.key key pressed) => pressed = true → ∀ s ∈ k,
    actionFromKeysym (s.1.oneSym s.2 (key + 8)) = none →
      (s.1.utf8 s.2 (key + 8)).isEmpty = true ∨
        (s.1.utf8 s.2 (key + 8)).toList.all isControl = false
  | _ => True

/-- The bytes that `handle_action` and `handle_text` write. -/
def symbolBytes : KeySymbol → List UInt8
  | .action action => actionBytes action
  | .text text => text.toUTF8.toList
  | .none => []

/-- The bytes that are sent. -/
def sentBytes (k : KeyboardState) : Event → List UInt8
  | .dispatch (.key key pressed) => if pressed then symbolBytes (k.processKey key) else []
  | _ => []

/-! ## UTF-8 -/

theorem length_toList_loop (bs : ByteArray) (i : ℕ) (r : List UInt8) :
    (ByteArray.toList.loop bs i r).length = r.length + (bs.size - i) := by
  fun_induction ByteArray.toList.loop bs i r with
  | case1 i r hlt ih =>
    rw [ih, List.length_cons]
    omega
  | case2 i r hge =>
    rw [List.length_reverse]
    omega

theorem length_toUTF8 (s : String) : s.toUTF8.toList.length = s.utf8ByteSize := by
  rw [ByteArray.toList, length_toList_loop, String.toUTF8_eq_toByteArray, String.size_toByteArray,
    List.length_nil, Nat.zero_add, Nat.sub_zero]

theorem toUTF8_eq_nil_iff {s : String} : s.toUTF8.toList = [] ↔ s.isEmpty = true := by
  rw [← List.length_eq_zero_iff, length_toUTF8, String.isEmpty, beq_iff_eq]

/-! ## Layers -/

section

variable {keymap : Keymap} {mods : ModifierMasks} {key : UInt32}

theorem strokeBytes_of_some {action : Action}
    (h : actionFromKeysym (keymap.oneSym mods (key + 8)) = some action) :
    strokeBytes keymap mods key = actionBytes action := by
  rw [strokeBytes, h]

theorem strokeBytes_of_none (h : actionFromKeysym (keymap.oneSym mods (key + 8)) = none) :
    strokeBytes keymap mods key = (keymap.utf8 mods (key + 8)).toUTF8.toList := by
  rw [strokeBytes, h]

theorem symbolBytes_of_some {action : Action}
    (h : actionFromKeysym (keymap.oneSym mods (key + 8)) = some action) :
    symbolBytes (KeyboardState.processKey ⟨some (keymap, mods)⟩ key) = actionBytes action := by
  simp only [KeyboardState.processKey, h, symbolBytes]

/-- A text of control characters is dropped. -/
theorem symbolBytes_of_none (h : actionFromKeysym (keymap.oneSym mods (key + 8)) = none) :
    symbolBytes (KeyboardState.processKey ⟨some (keymap, mods)⟩ key) =
      if (keymap.utf8 mods (key + 8)).toList.all isControl then []
      else (keymap.utf8 mods (key + 8)).toUTF8.toList := by
  simp only [KeyboardState.processKey, h]
  by_cases hempty : (keymap.utf8 mods (key + 8)).isEmpty = true
  · rw [if_pos hempty, toUTF8_eq_nil_iff.mpr hempty, ite_self, symbolBytes]
  · rw [if_neg hempty]
    split
    · rfl
    · rfl

end

/-- What becomes of the bytes of a step. -/
def SentOrDropped (k : Option (Keymap × ModifierMasks)) (e : Event) : Prop :=
  (Delivered k e ∧ sentBytes ⟨k⟩ e = typedBytes k e) ∨
    (¬ Delivered k e ∧ sentBytes ⟨k⟩ e = [] ∧ typedBytes k e ≠ [])

/-- **A press is sent as it is, or dropped.** -/
theorem sentOrDropped_press (k : Option (Keymap × ModifierMasks)) (key : UInt32) :
    SentOrDropped k (.dispatch (.key key true)) := by
  rw [SentOrDropped, sentBytes, if_pos rfl, typedBytes, if_pos rfl]
  rcases k with _ | ⟨keymap, mods⟩
  · exact .inl ⟨fun _ s hs => absurd hs (Option.not_mem_none s), rfl⟩
  · rw [Option.elim_some]
    cases hsym : actionFromKeysym (keymap.oneSym mods (key + 8)) with
    | some action =>
      refine .inl ⟨fun _ s hs hnone => ?_, ?_⟩
      · cases hs
        rw [hsym] at hnone
        cases hnone
      · rw [symbolBytes_of_some hsym, strokeBytes_of_some hsym]
    | none =>
      rw [symbolBytes_of_none hsym, strokeBytes_of_none hsym]
      by_cases hempty : (keymap.utf8 mods (key + 8)).isEmpty = true
      · refine .inl ⟨fun _ s hs _ => ?_, ?_⟩
        · cases hs
          exact .inl hempty
        · rw [toUTF8_eq_nil_iff.mpr hempty, ite_self]
      by_cases hcontrol : (keymap.utf8 mods (key + 8)).toList.all isControl = true
      · refine .inr ⟨fun h => ?_, if_pos hcontrol, mt toUTF8_eq_nil_iff.mp hempty⟩
        rcases h rfl _ rfl hsym with h | h
        · exact hempty h
        · exact Bool.false_ne_true (h.symm.trans hcontrol)
      · refine .inl ⟨fun _ s hs _ => ?_, if_neg hcontrol⟩
        cases hs
        exact .inr (Bool.eq_false_iff.mpr hcontrol)

theorem sentOrDropped (k : Option (Keymap × ModifierMasks)) (e : Event) : SentOrDropped k e := by
  cases e with
  | dispatch e =>
    cases e with
    | key key pressed =>
      cases pressed with
      | true => exact sentOrDropped_press k key
      | false => exact .inl ⟨fun h => absurd h Bool.false_ne_true, rfl⟩
    | keymap xkbV1 loaded => exact .inl ⟨trivial, rfl⟩
    | modifiers mods => exact .inl ⟨trivial, rfl⟩
    | ping serial => exact .inl ⟨trivial, rfl⟩
    | configure serial => exact .inl ⟨trivial, rfl⟩
    | toplevelConfigure width height => exact .inl ⟨trivial, rfl⟩
    | close => exact .inl ⟨trivial, rfl⟩
    | capabilities keyboard => exact .inl ⟨trivial, rfl⟩
    | release wlBuf => exact .inl ⟨trivial, rfl⟩
    | other => exact .inl ⟨trivial, rfl⟩
  | drain => exact .inl ⟨trivial, rfl⟩
  | sendEvent => exact .inl ⟨trivial, rfl⟩
  | work => exact .inl ⟨trivial, rfl⟩

/-! ## The session -/

namespace TerminalSession

variable (t : TerminalSession)

@[simp] theorem written_write (bytes : List UInt8) :
    (t.write bytes).settled.written = t.settled.written ++ bytes := by
  rw [write]
  split
  next hempty => rw [List.isEmpty_iff.mp hempty, List.append_nil]
  next =>
    rw [settled_send]
    rfl

@[simp] theorem written_resize (cols rows : UInt16) (cellW cellH : UInt32) :
    (t.resize cols rows cellW cellH).settled.written = t.settled.written := by
  have hsettled : (t.resize cols rows cellW cellH).settled =
      t.settled.handle (.resize ⟨cols, rows, cellW.toUInt16, cellH.toUInt16⟩) := t.settled_send _
  rw [hsettled]
  rfl

end TerminalSession

namespace SlateState

/-- What the shell is written, once the event loop has taken it: nothing without a session. -/
def output (s : SlateState) : Option (List UInt8) := s.term.map fun t => t.settled.written

/-- The step sends this, and the keyboard is as it says. -/
structure Sends (s s' : SlateState) (k : KeyboardState) (bytes : List UInt8) : Prop where
  output : s'.output = s.output.map (· ++ bytes)
  keymap : s'.keymap = k

variable {s s' s'' : SlateState}

theorem Sends.refl (s : SlateState) : Sends s s s.keymap [] := by
  refine ⟨?_, rfl⟩
  simp

/-- Something is sent to the session, or taken from it. -/
theorem Sends.map_term {f : TerminalSession → TerminalSession} {bytes : List UInt8}
    (hf : ∀ t, (f t).settled.written = t.settled.written ++ bytes) :
    Sends s { s with term := s.term.map f } s.keymap bytes := by
  refine ⟨?_, rfl⟩
  rw [SlateState.output, SlateState.output, Option.map_map, Option.map_map]
  exact congrArg (Option.map · s.term) (funext hf)

/-- Nothing is sent. -/
theorem Sends.quiet (hterm : s'.term = s.term) : Sends s s' s'.keymap [] := by
  refine ⟨?_, rfl⟩
  rw [SlateState.output, hterm, ← SlateState.output]
  simp

/-- What came before left the session alone. -/
theorem Sends.of_term_eq {k : KeyboardState} {bytes : List UInt8} (h : Sends s' s'' k bytes)
    (hterm : s'.term = s.term) : Sends s s'' k bytes := by
  refine ⟨h.output.trans ?_, h.keymap⟩
  rw [SlateState.output, hterm, ← SlateState.output]

/-! ## Redrawing -/

theorem drawInto_term (s : SlateState) (pool : ShmDoubleBuffer (Option Picture)) :
    (s.drawInto pool).term = s.term ∧ (s.drawInto pool).keymap = s.keymap := by
  rw [drawInto]
  rcases pool.draw s.shm s.paint with ⟨⟨e⟩ | ⟨pool', drawn⟩, shm⟩
  · exact ⟨rfl, rfl⟩
  · dsimp only
    split
    · exact ⟨rfl, rfl⟩
    · exact ⟨rfl, rfl⟩

theorem redrawPool_term (s : SlateState) :
    s.redrawPool.term = s.term ∧ s.redrawPool.keymap = s.keymap := by
  rw [redrawPool]
  rcases s.pool with ⟨_ | pool, shm⟩
  · exact ⟨rfl, rfl⟩
  · exact drawInto_term _ pool

/-- A redraw leaves a session that runs. -/
theorem redraw_term (h : s.term.isSome = true) :
    s.redraw.term = s.term ∧ s.redraw.keymap = s.keymap := by
  rw [redraw]
  split
  · exact ⟨rfl, rfl⟩
  · rw [ensureTerm, if_pos h]
    exact redrawPool_term s

theorem redraw_sends (h : s.term.isSome = true) : Sends s s.redraw s.keymap [] :=
  (redraw_term h).2 ▸ .quiet (redraw_term h).1

/-! ## Reactions -/

theorem resizeBuffer_term (s : SlateState) (w h : UInt32) :
    (s.resizeBuffer w h).term = s.term ∧ (s.resizeBuffer w h).keymap = s.keymap := by
  rw [resizeBuffer]
  split
  · exact ⟨rfl, rfl⟩
  · exact ⟨rfl, rfl⟩

theorem resizeTerm_sends (s : SlateState) (w h : UInt32) :
    Sends s (s.resizeTerm w h) s.keymap [] :=
  .map_term fun t => (t.written_resize _ _ _ _).trans (List.append_nil _).symm

theorem dispatchToplevel_sends (s : SlateState) (width height : Int32) :
    Sends s (s.dispatchToplevel width height) s.keymap [] := by
  rw [dispatchToplevel]
  generalize (if 0 < width then width.toUInt32 else defaultW) = w
  generalize (if 0 < height then height.toUInt32 else defaultH) = hgt
  split
  next =>
    obtain ⟨hterm, hkeymap⟩ := resizeBuffer_term { s with width := w, height := hgt } w hgt
    have hresized := resizeTerm_sends
      (SlateState.resizeBuffer { s with width := w, height := hgt } w hgt) w hgt
    rw [hkeymap] at hresized
    exact hresized.of_term_eq hterm
  next => exact .refl s

/-- A press writes what its symbol stands for. -/
theorem dispatchKey_sends (s : SlateState) (key : UInt32) (pressed : Bool) :
    Sends s (s.dispatchKey key pressed) s.keymap
      (sentBytes s.keymap (.dispatch (.key key pressed))) := by
  rw [dispatchKey, sentBytes]
  split
  · cases s.keymap.processKey key with
    | action action => exact .map_term fun t => t.written_write _
    | text text => exact .map_term fun t => t.written_write _
    | none => exact .refl s
  · exact .refl s

/-- **What a reaction sends**, while a session runs. -/
theorem react_sends (h : s.term.isSome = true) (e : Event) :
    Sends s (s.react e) ⟨told s.keymap.state e⟩ (sentBytes s.keymap e) := by
  cases e with
  | dispatch e =>
    cases e with
    | ping serial => exact .quiet rfl
    | configure serial =>
      have hredraw := redraw_sends
        (s := { s.request (.ackConfigure serial) with configured := true }) h
      exact hredraw.of_term_eq rfl
    | toplevelConfigure width height => exact dispatchToplevel_sends s width height
    | close => exact .quiet rfl
    | capabilities keyboard =>
      show Sends s (s.dispatchCapabilities keyboard) s.keymap []
      rw [dispatchCapabilities]
      split
      · exact .quiet rfl
      · exact .refl s
    | keymap xkbV1 loaded =>
      show Sends s (if xkbV1 then { s with keymap := s.keymap.applyKeymap loaded } else s) _ []
      cases loaded with
      | none =>
        split
        · exact .quiet rfl
        · exact .quiet rfl
      | some keymap =>
        rw [told]
        split
        · exact .quiet rfl
        · exact .quiet rfl
    | modifiers mods => exact .quiet rfl
    | key key pressed => exact dispatchKey_sends s key pressed
    | release wlBuf => exact .quiet rfl
    | other => exact .quiet rfl
  | drain =>
    show Sends s s.drain s.keymap []
    rw [drain]
    split
    · exact (redraw_sends (s := { s with dirtyRx := some 0 }) h).of_term_eq rfl
    · exact .refl s
  | sendEvent => exact .quiet rfl
  | work =>
    exact .map_term fun t =>
      (congrArg Pty.written t.settled_work).trans (List.append_nil _).symm

end SlateState

/-! ## Runs -/

/-- The bytes that a run sends. -/
def sent : Option (Keymap × ModifierMasks) → List Event → List UInt8
  | _, [] => []
  | k, e :: es => sentBytes ⟨k⟩ e ++ sent (told k e) es

/-- No more is sent than typed. -/
theorem length_sent_le (k : Option (Keymap × ModifierMasks)) (es : List Event) :
    (sent k es).length ≤ (typed k es).length := by
  induction es generalizing k with
  | nil => exact Nat.le_refl 0
  | cons e es ih =>
    have hrest := ih (told k e)
    rw [sent, typed, List.length_append, List.length_append]
    rcases sentOrDropped k e with ⟨-, hsent⟩ | ⟨-, hnil, -⟩
    · rw [hsent]
      omega
    · rw [hnil, List.length_nil]
      omega

/-- What is dropped once does not come back. -/
theorem sent_cons_eq_iff (k : Option (Keymap × ModifierMasks)) (e : Event) (es : List Event) :
    sent k (e :: es) = typed k (e :: es) ↔
      Delivered k e ∧ sent (told k e) es = typed (told k e) es := by
  rw [sent, typed]
  rcases sentOrDropped k e with ⟨hdelivered, hsent⟩ | ⟨hdropped, hnil, hne⟩
  · rw [hsent, List.append_cancel_left_eq]
    exact ⟨fun h => ⟨hdelivered, h⟩, fun h => h.2⟩
  · refine iff_of_false (fun h => ?_) fun h => hdropped h.1
    have hlength := congrArg List.length h
    have hle := length_sent_le (told k e) es
    have hpos := List.length_pos_of_ne_nil hne
    rw [hnil, List.nil_append, List.length_append] at hlength
    omega

section

variable (failure ptyFailure : ℕ → Option String)

/-- **A run sends what its steps send**, and the session goes on. -/
theorem run_sends {s : SlateState} (h : s.term.isSome = true) (es : List Event) :
    ((slate failure ptyFailure).run s es).output =
        s.output.map (· ++ sent s.keymap.state es) ∧
      (sent s.keymap.state es = typed s.keymap.state es ↔
        (slate failure ptyFailure).EachStep (fun s e => Delivered s.keymap.state e) s es) := by
  induction es generalizing s with
  | nil =>
    refine ⟨?_, iff_of_true rfl EventMachine.eachStep_nil⟩
    simp [EventMachine.run, sent]
  | cons e es ih =>
    have hstep := SlateState.react_sends h e
    have hkeymap : (s.react e).keymap.state = told s.keymap.state e :=
      congrArg KeyboardState.state hstep.keymap
    have hsome : (s.react e).term.isSome = true := by
      have houtput := congrArg Option.isSome hstep.output
      rw [SlateState.output, SlateState.output, Option.isSome_map, Option.isSome_map,
        Option.isSome_map] at houtput
      exact houtput.trans h
    obtain ⟨hrun, hiff⟩ := ih hsome
    rw [hkeymap] at hrun hiff
    constructor
    · have hcons : (slate failure ptyFailure).run s (e :: es) =
          (slate failure ptyFailure).run (s.react e) es := rfl
      rw [hcons, hrun, hstep.output, Option.map_map, sent]
      exact congrArg (Option.map · s.output) (funext fun bytes => List.append_assoc _ _ _)
    · rw [sent_cons_eq_iff, EventMachine.eachStep_cons]
      exact and_congr_right fun _ => hiff

/-- **The shell is written what is typed**, in order, exactly if no step drops something. -/
theorem output_eq_iff {s : SlateState} (h : s.term.isSome = true) (es : List Event) :
    ((slate failure ptyFailure).run s es).output =
        s.output.map (· ++ typed s.keymap.state es) ↔
      (slate failure ptyFailure).EachStep (fun s e => Delivered s.keymap.state e) s es := by
  obtain ⟨hrun, hiff⟩ := run_sends failure ptyFailure h es
  obtain ⟨t, ht⟩ := Option.isSome_iff_exists.mp h
  have houtput : s.output = some t.settled.written := by rw [SlateState.output, ht, Option.map_some]
  rw [hrun, ← hiff, houtput, Option.map_some, Option.map_some, Option.some.injEq,
    List.append_cancel_left_eq]

end

/-- A keymap with one letter, which Ctrl makes a control character. -/
def letterC : Keymap where
  oneSym _ _ := 0x63
  utf8 mods _ := if mods.depressed = 4 then "\x03" else "c"

/-- The first configure starts a session, and the compositor sends its keymap. -/
def started : SlateState :=
  (slate (fun _ => none) fun _ => none).run
    (SlateState.new (fun _ => none) fun _ => none).initSurface
    [.dispatch (.configure 1), .dispatch (.keymap true (some letterC))]

/-- The letter without a modifier. -/
theorem output_eq_letterC :
    ((slate (fun _ => none) fun _ => none).run started [.dispatch (.key 46 true)]).output =
      started.output.map (· ++ typed started.keymap.state [.dispatch (.key 46 true)]) := by
  have hkeymap : started.keymap.state = some (letterC, ⟨0, 0, 0, 0⟩) := rfl
  refine (output_eq_iff _ _ (by rfl) _).mpr
    (EventMachine.eachStep_cons.mpr ⟨fun _ k hk _ => .inr ?_, EventMachine.eachStep_nil⟩)
  rw [hkeymap] at hk
  cases hk
  decide

/-- **Ctrl+C does not arrive.** -/
theorem not_delivered :
    ¬ ∀ (failure ptyFailure : ℕ → Option String) (s : SlateState) (es : List Event),
      s.term.isSome = true → ((slate failure ptyFailure).run s es).output =
        s.output.map (· ++ typed s.keymap.state es) := by
  intro hall
  have hctrlC := hall (fun _ => none) (fun _ => none) started
    [.dispatch (.modifiers ⟨4, 0, 0, 0⟩), .dispatch (.key 46 true)] rfl
  have hsilent : ((slate (fun _ => none) fun _ => none).run started
      [.dispatch (.modifiers ⟨4, 0, 0, 0⟩), .dispatch (.key 46 true)]).output = some [] := rfl
  have htyped : typed started.keymap.state
      [.dispatch (.modifiers ⟨4, 0, 0, 0⟩), .dispatch (.key 46 true)] =
      "\x03".toUTF8.toList ++ [] := rfl
  have hstarted : started.output = some [] := rfl
  rw [hsilent, hstarted, htyped, Option.map_some, List.nil_append, List.append_nil] at hctrlC
  have hempty := toUTF8_eq_nil_iff.mp (Option.some.inj hctrlC).symm
  exact absurd hempty (by decide)

end Slate

end Nullxes
