import Mathlib.Init

/-!
# Keyboard state of the clients

`wlcommon/src/keymap.rs`. A compiled keymap is what xkbcommon computes from it: the keysym and the
text of a key code under the current modifier masks. Loading one (mapping the descriptor, checking
UTF-8, compiling) either gives a keymap or fails; a failed load leaves the state as it was.
-/

namespace Nullxes

namespace Wlcommon

/-- `Action`. -/
inductive Action
  | enter | escape | backspace | delete | tab
  | up | down | left | right
  | home | «end»
  | pageUp | pageDown
  deriving DecidableEq, Repr

/-- `KeySymbol`. -/
inductive KeySymbol
  | text (s : String)
  | action (a : Action)
  | none
  deriving DecidableEq, Repr

/-- The masks of `xkb_state_update_mask`, with the effective group. -/
structure ModifierMasks where
  depressed : UInt32
  latched : UInt32
  locked : UInt32
  group : UInt32
  deriving DecidableEq, Repr

/-- A compiled `xkb::Keymap`: `key_get_one_sym` and `key_get_utf8` of a state with these masks. -/
structure Keymap where
  oneSym : ModifierMasks → UInt32 → UInt32
  utf8 : ModifierMasks → UInt32 → String

/-- `KeyboardState`: the keymap with the `xkb::State` made from it. -/
structure KeyboardState where
  state : Option (Keymap × ModifierMasks)

/-- `action_from_keysym`. -/
def actionFromKeysym (sym : UInt32) : Option Action :=
  if sym = 0xff0d ∨ sym = 0xff8d then some .enter
  else if sym = 0xff1b then some .escape
  else if sym = 0xff08 then some .backspace
  else if sym = 0xffff then some .delete
  else if sym = 0xff09 ∨ sym = 0xfe20 then some .tab
  else if sym = 0xff52 ∨ sym = 0xff97 then some .up
  else if sym = 0xff54 ∨ sym = 0xff99 then some .down
  else if sym = 0xff51 ∨ sym = 0xff96 then some .left
  else if sym = 0xff53 ∨ sym = 0xff98 then some .right
  else if sym = 0xff50 ∨ sym = 0xff95 then some .home
  else if sym = 0xff57 ∨ sym = 0xff9c then some .end
  else if sym = 0xff55 ∨ sym = 0xff9a then some .pageUp
  else if sym = 0xff56 ∨ sym = 0xff9b then some .pageDown
  else none

/-- `char::is_control`: Unicode category `Cc`. -/
def isControl (c : Char) : Bool := c.val < 0x20 || (0x7f ≤ c.val && c.val < 0xa0)

namespace KeyboardState

/-- `KeyboardState::new`. -/
def new : KeyboardState := ⟨none⟩

/-- `apply_keymap`; `loaded` is what the descriptor gives. -/
def applyKeymap (k : KeyboardState) (loaded : Option Keymap) : KeyboardState :=
  match loaded with
  | some keymap => ⟨some (keymap, ⟨0, 0, 0, 0⟩)⟩
  | none => k

/-- `update_modifiers`. -/
def updateModifiers (k : KeyboardState) (mods : ModifierMasks) : KeyboardState :=
  ⟨k.state.map fun s => (s.1, mods)⟩

/-- `process_key`. -/
def processKey (k : KeyboardState) (waylandKeycode : UInt32) : KeySymbol :=
  match k.state with
  | none => .none
  | some (keymap, mods) =>
    let keycode := waylandKeycode + 8
    match actionFromKeysym (keymap.oneSym mods keycode) with
    | some action => .action action
    | none =>
      let utf8 := keymap.utf8 mods keycode
      if utf8.isEmpty then .none
      else if utf8.toList.all isControl then .none
      else .text utf8

end KeyboardState

end Wlcommon

end Nullxes
