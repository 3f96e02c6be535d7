import Mathlib.Algebra.GroupWithZero.Nat
import Nullxes.NxNotif.Restarts
import Nullxes.NxNotif.Slots

/-!
# How large the history gets

A rotation is made when the file has become too large, and replays a number of lines, however long
they are. So the file is within its cap after an `append` as long as it was not too large, or those
lines are not.

## Main results

* `history_capped_iff` — when the file is within its cap
-/

namespace Nullxes

namespace NxNotif

namespace History

/-- What a rotation replays of a file, line by line. -/
def replayed (bytes : List UInt8) : List (List UInt8) :=
  ((lines bytes).rtake historyKept).map lineOf

/-- What `append` makes of the file before it looks at its size. -/
def appended (h : History) (n : Notif) (received : UInt64) : List UInt8 :=
  h.files.current ++ lineOf (Record.of n received).text

theorem rotate_current (h : History) :
    h.rotate.files.current = (replayed h.files.current).flatten := by
  have hline : ∀ ts : List (List Char), contents (ts.map fun t => (t, false)) =
      (ts.map lineOf).flatten := by
    intro ts
    rw [contents, List.map_map]
    rfl
  rw [rotate, foldl_write, hline, ← List.rtake_eq_reverse_take_reverse, write, List.nil_append,
    replayed]

theorem append_current (h : History) (n : Notif) (received : UInt64) :
    (h.append n received).files.current =
      if historyCap < (h.appended n received).length then
        (replayed (h.appended n received)).flatten
      else h.appended n received := by
  show (if historyCap < (h.appended n received).length then
    (h.write (lineOf (Record.of n received).text)).rotate
      else h.write (lineOf (Record.of n received).text)).files.current = _
  split
  · exact rotate_current _
  · rfl

end History

/-- **When the file is within its cap**: after an `append` that leaves it so, or one after which the
last lines are so together. -/
theorem history_capped_iff (h : History) (n : Notif) (received : UInt64) :
    (h.append n received).files.current.length ≤ historyCap ↔
      (h.appended n received).length ≤ historyCap ∨
        ((History.replayed (h.appended n received)).map List.length).sum ≤ historyCap := by
  rw [h.append_current]
  split
  next hlarge =>
    rw [List.length_flatten, or_iff_right (Nat.not_le_of_lt hlarge)]
  next hsmall =>
    have hle : (h.appended n received).length ≤ historyCap := Nat.le_of_not_lt hsmall
    exact iff_of_true hle (.inl hle)

/-! ## A record that is too large -/

theorem length_le_encode (cs : List Char) : cs.length ≤ (Utf8.encode cs).length := by
  induction cs with
  | nil => exact Nat.zero_le _
  | cons c cs ih =>
    have hone : 0 < (String.utf8EncodeChar c).length := by
      rw [String.length_utf8EncodeChar]
      exact c.utf8Size_pos
    have hcons : Utf8.encode (c :: cs) = String.utf8EncodeChar c ++ Utf8.encode cs := rfl
    rw [hcons, List.length_append, List.length_cons]
    omega

/-- A record is longer than its summary. -/
theorem Record.length_summary_lt (r : Record) : r.summary.toList.length < r.text.length := by
  have hquote := Json.length_lt_quote r.summary
  simp only [Record.text, Record.serialize, Json.text, Json.membersText, List.length_cons,
    List.length_append]
  omega

/-- An empty history, and nothing before it. -/
def emptyArchive : Archive := ⟨⟨⟨[], none⟩, []⟩, []⟩

theorem init_emptyArchive (inRange : List Char → Bool) :
    (archive inRange).Init emptyArchive := ⟨.nil, rfl, rfl⟩

/-- So is its line. -/
theorem Record.length_summary_add_one_lt (r : Record) :
    r.summary.toList.length + 1 < (lineOf r.text).length := by
  have hlt := r.length_summary_lt
  have hencode := length_le_encode (r.text ++ ['\n'])
  rw [List.length_append] at hencode
  show r.summary.toList.length + 1 < (Utf8.encode (r.text ++ ['\n'])).length
  exact Nat.lt_of_lt_of_le (Nat.succ_lt_succ hlt) hencode

/-- A rotation replays a line that is too large, if there is no other. -/
theorem append_large (received : UInt64) {n : Notif}
    (hn : historyCap ≤ n.summary.toList.length) :
    historyCap < (emptyArchive.history.append n received).files.current.length := by
  obtain ⟨r, hr⟩ : ∃ r, r = Record.of n received := ⟨_, rfl⟩
  have hline : emptyArchive.history.appended n received = lineOf r.text := by rw [hr]; rfl
  have hlong : historyCap < (lineOf r.text).length := by
    have hsummary : n.summary = r.summary := by rw [hr]; rfl
    rw [hsummary] at hn
    have hlt := r.length_summary_add_one_lt
    omega
  have hreplayed : History.replayed (lineOf r.text) = [lineOf r.text] := by
    have hproper : ∀ l ∈ [(r.text, false)], Proper (fun _ => true) l.1 := by
      intro l hl
      rw [List.mem_singleton.mp hl]
      exact proper_text r
    have hlines := lines_contents hproper
    have hcontents : contents [(r.text, false)] = lineOf r.text := List.append_nil _
    have hkept : [r.text].rtake historyKept = [r.text] := by simp [List.rtake, historyKept]
    rw [hcontents] at hlines
    rw [History.replayed, hlines, List.map_singleton, hkept, List.map_singleton]
  rw [History.append_current, hline, if_pos hlong, hreplayed, List.flatten_singleton]
  exact hlong

/-- A notification with a summary as long as the cap. -/
def huge : Notif := { plain 1 with summary := String.ofList (List.replicate historyCap 'a') }

/-- One notification makes the file too large. -/
theorem not_history_capped :
    ¬ ∀ (inRange : List Char → Bool) (a : Archive) (es : List HistoryEvent),
      (archive inRange).Init a → (archive inRange).Legal a es →
      ∀ (n : Notif) (received : UInt64),
        (((archive inRange).run a es).history.append n received).files.current.length ≤
          historyCap := by
  intro h
  have hle := h (fun _ => true) emptyArchive [] (init_emptyArchive _) trivial huge 0
  have hhuge : historyCap ≤ huge.summary.toList.length := by
    rw [huge, String.toList_ofList, List.length_replicate]
  rw [EventMachine.run_nil] at hle
  exact Nat.not_le_of_lt (append_large 0 hhuge) hle

end NxNotif

end Nullxes
