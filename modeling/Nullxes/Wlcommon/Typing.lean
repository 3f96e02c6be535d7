import Mathlib.Data.Nat.Notation
import Nullxes.Wlcommon.Keymap

/-!
# The shape of a text

How many bytes each of its characters takes. Whoever sees a password field sees as much: the mask is
as long as the text has bytes, and Backspace takes off as many as the last character had.

## Main results

* `utf8ByteSize_eq_of_shape` — the length in bytes is one of the things the shape says
-/

namespace Nullxes

namespace Wlcommon

/-- The lengths of the characters, in bytes. -/
def shape (s : String) : List ℕ := s.toList.map Char.utf8Size

theorem shape_append (s t : String) : shape (s ++ t) = shape s ++ shape t := by
  rw [shape, String.toList_append, List.map_append, shape, shape]

/-- `String::pop`. -/
theorem shape_dropLast (s : String) :
    shape (String.ofList s.toList.dropLast) = (shape s).dropLast := by
  rw [shape, String.toList_ofList, List.map_dropLast, shape]

theorem utf8ByteSize_ofList_eq {l l' : List Char}
    (h : l.map Char.utf8Size = l'.map Char.utf8Size) :
    (String.ofList l).utf8ByteSize = (String.ofList l').utf8ByteSize := by
  induction l generalizing l' with
  | nil => rw [List.map_eq_nil_iff.mp h.symm]
  | cons c l ih =>
    obtain ⟨c', t, rfl, hc, ht⟩ := List.map_eq_cons_iff.mp h.symm
    rw [String.ofList_cons, String.ofList_cons, String.utf8ByteSize_append,
      String.utf8ByteSize_append, String.utf8ByteSize_singleton, String.utf8ByteSize_singleton, hc,
      ih ht.symm]

/-- Texts of the same shape are of the same length. -/
theorem utf8ByteSize_eq_of_shape {s t : String} (h : shape s = shape t) :
    s.utf8ByteSize = t.utf8ByteSize := by
  rw [← String.ofList_toList (s := s), ← String.ofList_toList (s := t)]
  exact utf8ByteSize_ofList_eq h

theorem isEmpty_eq_isEmpty_shape (s : String) : s.isEmpty = (shape s).isEmpty := by
  rw [shape, List.isEmpty_map, Bool.eq_iff_iff, String.isEmpty_iff, List.isEmpty_iff,
    String.toList_eq_nil_iff]

/-- The two keys type texts of the same shape. -/
def KeyboardState.SameShape (k : KeyboardState) (key key' : UInt32) : Prop :=
  ∃ t t', k.processKey key = .text t ∧ k.processKey key' = .text t' ∧ shape t = shape t'

/-- A keymap with two letters and Return. -/
def twoLetters : Keymap :=
  ⟨fun _ code => if code = 36 then 0xff0d else 0, fun _ code => if code = 38 then "a" else "b"⟩

end Wlcommon

end Nullxes
