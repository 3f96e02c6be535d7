import Mathlib.Data.List.DropRight
import Nullxes.Library.EventMachine
import Nullxes.NxNotif.History

/-!
# The history survives restarts

The records in memory, the lines of the file and the lines that a rotation leaves of it are the same
list, cut off at its beginning in different places: the last records are in all three.

## Main definitions

* `WellFormed`, `records` — a file of records, and its records
* `Archive`, `archive` — the history with every record there ever was
* `Archive.Kept` — what append, rotation and restart keep

## Main results

* `Record.fromStr_text` — a record is read back
* `history_survives` — memory and file agree after any number of appends and restarts
-/

namespace Nullxes

namespace NxNotif

open Serde

/-! ## The end of a list -/

section Lists

variable {α β : Type} {l : List α} {n : ℕ}

theorem rtake_eq_ite (l : List α) (n : ℕ) :
    (if n < l.length then l.drop (l.length - n) else l) = l.rtake n := by
  unfold List.rtake
  split
  · rfl
  next hlt => rw [Nat.sub_eq_zero_of_le (Nat.le_of_not_lt hlt), List.drop_zero]

/-- Whatever is cut off, the end of what is longer is still there. -/
theorem rtake_append_rtake (l m : List α) (n : ℕ) :
    (l.rtake n ++ m).rtake n = (l ++ m).rtake n := by
  simp only [List.rtake_eq_reverse_take_reverse, List.reverse_append, List.reverse_reverse]
  rw [List.take_append, List.take_append, List.take_take, Nat.min_eq_left (Nat.sub_le _ _)]

theorem length_rtake_le (l : List α) (n : ℕ) : (l.rtake n).length ≤ n := by
  rw [List.rtake, List.length_drop]
  omega

/-- Taking off the first when there is one too many. -/
theorem tail_rtake_concat (l : List α) (n : ℕ) (a : α) :
    (if n < (l.rtake n ++ [a]).length then (l.rtake n ++ [a]).tail else l.rtake n ++ [a]) =
      (l ++ [a]).rtake n := by
  rw [← rtake_append_rtake, ← rtake_eq_ite (l.rtake n ++ [a])]
  have hle := length_rtake_le l n
  by_cases hlt : n < (l.rtake n ++ [a]).length
  · have hone : (l.rtake n ++ [a]).length - n = 1 := by
      rw [List.length_append, List.length_singleton] at hlt ⊢
      omega
    rw [if_pos hlt, if_pos hlt, hone, List.drop_one]
  · rw [if_neg hlt, if_neg hlt]

theorem filterMap_rtake {f : α → Option β} (h : ∀ a ∈ l, (f a).isSome) (n : ℕ) :
    (l.rtake n).filterMap f = (l.filterMap f).rtake n := by
  induction l using List.reverseRecOn generalizing n with
  | nil => simp
  | append_singleton l a ih =>
    obtain ⟨b, hb⟩ := Option.isSome_iff_exists.mp (h a (by simp))
    have hone : (l ++ [a]).filterMap f = l.filterMap f ++ [b] := by simp [hb]
    cases n with
    | zero => simp
    | succ n =>
      rw [List.rtake_concat_succ, List.filterMap_append, hone, List.rtake_concat_succ,
        ih fun x hx => h x (List.mem_append_left _ hx)]
      simp [hb]

theorem filterMap_take {f : α → Option β} (h : ∀ a ∈ l, (f a).isSome) (n : ℕ) :
    (l.take n).filterMap f = (l.filterMap f).take n := by
  induction l generalizing n with
  | nil => simp
  | cons a l ih =>
    obtain ⟨b, hb⟩ := Option.isSome_iff_exists.mp (h a List.mem_cons_self)
    cases n with
    | zero => simp
    | succ n =>
      rw [List.take_succ_cons, List.filterMap_cons_some hb, List.filterMap_cons_some hb,
        List.take_succ_cons, ih fun x hx => h x (List.mem_cons_of_mem a hx)]

end Lists

/-! ## Records are read back -/

namespace Record

theorem deserialize_serialize (r : Record) : deserialize r.serialize = some r := by
  simp only [deserialize, serialize, field, values_cons, values_nil, String.reduceEq, if_true,
    if_false, uint32_ofNat, uint8_ofNat, string_str, uint64_unsigned, Option.bind_eq_bind,
    Option.bind_some]

theorem shallow_serialize (r : Record) : r.serialize.Shallow 1 :=
  Json.shallow_obj (by simp [Json.shallow_unsigned, Json.shallow_str])

/-- **A record is read back from its text.** -/
theorem fromStr_text (inRange : List Char → Bool) (r : Record) :
    fromStr inRange r.text = some r := by
  have hdepth : r.serialize.depth < Json.depthLimit :=
    Nat.lt_of_le_of_lt r.shallow_serialize.depth_le (by decide)
  have hparse := Json.parse_text inRange r.shallow_serialize.plain hdepth [] (by simp)
  rw [List.append_nil] at hparse
  rw [fromStr, text, hparse, Option.bind_some, deserialize_serialize]

theorem notMem_text (r : Record) {c : Char} (hc : c.toNat < 0x20) : c ∉ r.text := by
  intro hmem
  have hle := Json.printable_text _ r.shallow_serialize.plain c hmem
  omega

end Record

/-! ## Files of records -/

variable (inRange : List Char → Bool)

/-- A text that is one line, and a record. -/
structure Proper (cs : List Char) : Prop where
  oneLine : '\n' ∉ cs
  ends : cs.getLast? ≠ some '\r'
  record : (Record.fromStr inRange cs).isSome

/-- A text with the end of its line, a line feed or a carriage return and a line feed. -/
def endedLine (l : List Char × Bool) : List UInt8 :=
  Utf8.encode (l.1 ++ if l.2 then ['\r', '\n'] else ['\n'])

/-- The lines of the file, with their ends. -/
def contents (ls : List (List Char × Bool)) : List UInt8 := (ls.map endedLine).flatten

/-- A file of records, one on each line. -/
def WellFormed (bytes : List UInt8) : Prop :=
  ∃ ls, bytes = contents ls ∧ ∀ l ∈ ls, Proper inRange l.1

/-- The records of a file. -/
def records (bytes : List UInt8) : List Record :=
  (lines bytes).filterMap (Record.fromStr inRange)

variable {inRange} {ls : List (List Char × Bool)}

theorem chop_lineFeed {cs : List Char} (h : cs.getLast? ≠ some '\r') :
    chop (cs ++ ['\n']) = cs := by
  rw [chop, List.getLast?_concat, if_pos rfl, List.dropLast_concat]
  exact if_neg h

theorem chop_carriageReturn (cs : List Char) : chop (cs ++ ['\r', '\n']) = cs := by
  have hsplit : cs ++ ['\r', '\n'] = (cs ++ ['\r']) ++ ['\n'] := by simp
  rw [hsplit, chop, List.getLast?_concat, if_pos rfl, List.dropLast_concat]
  simp

theorem Proper.isLine {cs : List Char} (h : Proper inRange cs) (crlf : Bool) :
    Lines.IsLine 0x0a (endedLine (cs, crlf)) := by
  unfold endedLine
  cases crlf with
  | false => exact Utf8.isLine_encode h.oneLine
  | true =>
    have hsplit : cs ++ ['\r', '\n'] = (cs ++ ['\r']) ++ ['\n'] := by simp
    show Lines.IsLine 0x0a (Utf8.encode (cs ++ ['\r', '\n']))
    rw [hsplit]
    refine Utf8.isLine_encode fun hmem => ?_
    rcases List.mem_append.mp hmem with hmem | hmem
    · exact h.oneLine hmem
    · exact absurd hmem (by decide)

theorem Proper.chop {cs : List Char} (h : Proper inRange cs) (crlf : Bool) :
    (Utf8.decode (endedLine (cs, crlf))).map NxNotif.chop = some cs := by
  rw [endedLine, Utf8.decode_encode, Option.map_some]
  cases crlf with
  | false => exact congrArg some (chop_lineFeed h.ends)
  | true => exact congrArg some (chop_carriageReturn cs)

/-- The lines of a file of records are its texts, and what comes after them is read by itself. -/
theorem lines_contents_append (h : ∀ l ∈ ls, Proper inRange l.1) (tail : List UInt8) :
    lines (contents ls ++ tail) = ls.map Prod.fst ++ lines tail := by
  have hended : ∀ l ∈ ls.map endedLine, Lines.IsLine 0x0a l := by
    intro l hl
    obtain ⟨l', hl', rfl⟩ := List.mem_map.mp hl
    exact (h l' hl').isLine l'.2
  have htexts : (ls.map endedLine).filterMap (fun l => (Utf8.decode l).map chop) =
      ls.map Prod.fst := by
    rw [List.filterMap_map, List.filterMap_congr (g := fun l => some l.1)]
    · rw [List.filterMap_eq_map']
    · intro l hl
      exact (h l hl).chop l.2
  rw [lines, contents, Lines.lines_flatten hended, List.filterMap_append, htexts, lines]

theorem lines_contents (h : ∀ l ∈ ls, Proper inRange l.1) :
    lines (contents ls) = ls.map Prod.fst := by
  have hall := lines_contents_append h []
  rw [List.append_nil] at hall
  exact hall.trans (List.append_nil _)

theorem records_contents (h : ∀ l ∈ ls, Proper inRange l.1) :
    records inRange (contents ls) = (ls.map Prod.fst).filterMap (Record.fromStr inRange) := by
  rw [records, lines_contents h]

theorem records_contents_append (h : ∀ l ∈ ls, Proper inRange l.1) (tail : List UInt8) :
    records inRange (contents ls ++ tail) =
      records inRange (contents ls) ++ records inRange tail := by
  rw [records, records, lines_contents_append h, lines_contents h, List.filterMap_append, records]

/-- What `append` writes is a line of its own. -/
theorem proper_text (r : Record) : Proper inRange r.text where
  oneLine := r.notMem_text (by decide)
  ends h := r.notMem_text (c := '\r') (by decide) (List.mem_of_getLast? h)
  record := by simp [Record.fromStr_text]

theorem contents_append (ls ls' : List (List Char × Bool)) :
    contents (ls ++ ls') = contents ls ++ contents ls' := by
  simp [contents]

/-- Texts with line feeds, as they are written. -/
theorem wellFormed_texts (ts : List (List Char)) (h : ∀ t ∈ ts, Proper inRange t) :
    WellFormed inRange (contents (ts.map fun t => (t, false))) ∧
      records inRange (contents (ts.map fun t => (t, false))) =
        ts.filterMap (Record.fromStr inRange) := by
  have hproper : ∀ l ∈ ts.map fun t => (t, false), Proper inRange l.1 := by
    intro l hl
    obtain ⟨t, ht, rfl⟩ := List.mem_map.mp hl
    exact h t ht
  have htexts : (ts.map fun t => (t, false)).map Prod.fst = ts := by
    rw [List.map_map]
    exact List.map_id ts
  exact ⟨⟨_, rfl, hproper⟩, by rw [records_contents hproper, htexts]⟩

namespace WellFormed

variable {bytes : List UInt8}

theorem nil : WellFormed inRange [] := ⟨[], rfl, nofun⟩

theorem records_append (h : WellFormed inRange bytes) (tail : List UInt8) :
    records inRange (bytes ++ tail) = records inRange bytes ++ records inRange tail := by
  obtain ⟨ls, rfl, hls⟩ := h
  exact records_contents_append hls tail

/-- A record is appended. -/
theorem concat (h : WellFormed inRange bytes) (r : Record) :
    WellFormed inRange (bytes ++ lineOf r.text) ∧
      records inRange (bytes ++ lineOf r.text) = records inRange bytes ++ [r] := by
  have hproper : ∀ t ∈ [r.text], Proper inRange t := by
    intro t ht
    rw [List.mem_singleton.mp ht]
    exact proper_text r
  have hline : contents [(r.text, false)] = lineOf r.text := List.append_nil _
  obtain ⟨⟨ls', hls', hproper'⟩, hone⟩ := wellFormed_texts [r.text] hproper
  rw [List.map_singleton, hline] at hls' hone
  rw [h.records_append, hone, List.filterMap_cons_some (Record.fromStr_text inRange r)]
  obtain ⟨ls, rfl, hls⟩ := h
  refine ⟨⟨ls ++ ls', by rw [contents_append, hls'], fun l hl => ?_⟩, rfl⟩
  rcases List.mem_append.mp hl with hl | hl
  · exact hls l hl
  · exact hproper' l hl

end WellFormed

namespace History

variable (inRange) in
theorem cached_load (cached : List Record) (ts : List (List Char)) :
    ts.foldl (load inRange) (cached.rtake historyKept) =
      (cached ++ ts.filterMap (Record.fromStr inRange)).rtake historyKept := by
  induction ts generalizing cached with
  | nil => simp
  | cons t ts ih =>
    rw [List.foldl_cons]
    cases ht : Record.fromStr inRange t with
    | none =>
      have hsame : load inRange (cached.rtake historyKept) t = cached.rtake historyKept := by
        rw [load, ht]
      rw [hsame, ih, List.filterMap_cons_none ht]
    | some record =>
      have hnext : load inRange (cached.rtake historyKept) t =
          (cached ++ [record]).rtake historyKept := by
        rw [load, ht]
        exact tail_rtake_concat cached historyKept record
      rw [hnext, ih, List.filterMap_cons_some ht, List.append_assoc, List.singleton_append]

/-- **What is read at a start**: the last records of the file. -/
theorem cached_openOrCreate (files : Files) :
    (openOrCreate inRange files).cached = (records inRange files.current).rtake historyKept := by
  have hload := cached_load inRange [] (lines files.current)
  rw [List.rtake_nil, List.nil_append] at hload
  unfold openOrCreate records
  exact hload

/-- What is written line by line. -/
theorem foldl_write (h : History) (ts : List (List Char)) :
    ts.foldl (fun h line => h.write (lineOf line)) h =
      h.write (contents (ts.map fun t => (t, false))) := by
  induction ts generalizing h with
  | nil => simp [contents, write]
  | cons t ts ih =>
    rw [List.foldl_cons, ih]
    simp [contents, write, lineOf, endedLine]

/-- **What a rotation leaves**: the last lines of the file. -/
theorem current_rotate (h : History) (hls : ∀ l ∈ ls, Proper inRange l.1)
    (hc : h.files.current = contents ls) :
    h.rotate.files.current =
      contents (((ls.map Prod.fst).rtake historyKept).map fun t => (t, false)) := by
  rw [rotate, foldl_write, hc, lines_contents hls, ← List.rtake_eq_reverse_take_reverse, write,
    List.nil_append]

end History

/-! ## Every record there ever was -/

variable (inRange) in
/-- A file of records whose last ones are the last of all. -/
def EndsWith (bytes : List UInt8) (all : List Record) : Prop :=
  ∃ ls, bytes = contents ls ∧ (∀ l ∈ ls, Proper inRange l.1) ∧
    ((ls.map Prod.fst).filterMap (Record.fromStr inRange)).rtake historyKept =
      all.rtake historyKept

namespace EndsWith

variable {all : List Record}

theorem iff_records {bytes : List UInt8} : EndsWith inRange bytes all ↔
    WellFormed inRange bytes ∧
      (records inRange bytes).rtake historyKept = all.rtake historyKept := by
  constructor
  · rintro ⟨ls, rfl, hls, hlast⟩
    exact ⟨⟨ls, rfl, hls⟩, by rw [records_contents hls, hlast]⟩
  · rintro ⟨⟨ls, rfl, hls⟩, hlast⟩
    exact ⟨ls, rfl, hls, by rw [← records_contents hls, hlast]⟩

/-- What would be read from the file. -/
theorem cached_openOrCreate {files : Files} (h : EndsWith inRange files.current all) :
    (History.openOrCreate inRange files).cached = all.rtake historyKept := by
  rw [History.cached_openOrCreate, (iff_records.mp h).2]

/-- A record is appended. -/
theorem append {bytes : List UInt8} (h : EndsWith inRange bytes all) (r : Record) :
    EndsWith inRange (bytes ++ lineOf r.text) (all ++ [r]) := by
  obtain ⟨hwf, hlast⟩ := iff_records.mp h
  obtain ⟨hconcat, hrecords⟩ := hwf.concat r
  refine iff_records.mpr ⟨hconcat, ?_⟩
  rw [hrecords, ← rtake_append_rtake, hlast, rtake_append_rtake]

/-- A rotation leaves the last records. -/
theorem rotate {h : History} (hend : EndsWith inRange h.files.current all) :
    EndsWith inRange h.rotate.files.current all := by
  obtain ⟨ls, hc, hls, hlast⟩ := hend
  have hproper : ∀ t ∈ ls.map Prod.fst, Proper inRange t := by
    intro t ht
    obtain ⟨l, hl, rfl⟩ := List.mem_map.mp ht
    exact hls l hl
  obtain ⟨hwf, hrecords⟩ := wellFormed_texts ((ls.map Prod.fst).rtake historyKept)
    fun t ht => hproper t (List.mem_of_mem_drop ht)
  have htwice := rtake_append_rtake
    ((ls.map Prod.fst).filterMap (Record.fromStr inRange)) [] historyKept
  rw [List.append_nil, List.append_nil] at htwice
  rw [h.current_rotate hls hc]
  refine iff_records.mpr ⟨hwf, ?_⟩
  rw [hrecords, filterMap_rtake fun t ht => (hproper t ht).record, htwice, hlast]

end EndsWith

/-- The history, with all records: those of the first file and those appended since. -/
structure Archive where
  history : History
  all : List Record

/-- What happens to the history. -/
inductive HistoryEvent
  | append (n : Notif) (received : UInt64)
  /-- The process starts again. -/
  | restart
  deriving DecidableEq, Repr

variable (inRange) in
/-- The history over the runs of the process. -/
def archive : EventMachine Archive HistoryEvent where
  Init a := WellFormed inRange a.history.files.current ∧
    a.history = .openOrCreate inRange a.history.files ∧
    a.all = records inRange a.history.files.current
  Enabled _ _ := True
  step a
    | .append n received => ⟨a.history.append n received, a.all ++ [.of n received]⟩
    | .restart => ⟨.openOrCreate inRange a.history.files, a.all⟩

variable (inRange) in
/-- The last of all records are in the file, and in memory. -/
structure Archive.Kept (a : Archive) : Prop where
  file : EndsWith inRange a.history.files.current a.all
  cached : a.history.cached = a.all.rtake historyKept

namespace Archive.Kept

variable {a : Archive}

theorem init (h : (archive inRange).Init a) : a.Kept inRange := by
  obtain ⟨⟨ls, hc, hls⟩, hopen, hall⟩ := h
  have hfile : EndsWith inRange a.history.files.current a.all :=
    ⟨ls, hc, hls, by rw [hall, hc, records_contents hls]⟩
  refine ⟨hfile, ?_⟩
  rw [hopen]
  exact hfile.cached_openOrCreate

theorem append (h : a.Kept inRange) (n : Notif) (received : UInt64) :
    ((archive inRange).step a (.append n received)).Kept inRange := by
  set r := Record.of n received
  set written := a.history.write (lineOf r.text)
  have hwritten : EndsWith inRange written.files.current (a.all ++ [r]) := h.file.append r
  constructor
  · show EndsWith inRange
      (if historyCap < written.files.current.length then written.rotate
        else written).files.current _
    split
    · exact hwritten.rotate
    · exact hwritten
  · have hsame : (if historyCap < written.files.current.length then written.rotate
        else written).cached = a.history.cached := by
      split
      · rw [History.rotate, History.foldl_write]
        rfl
      · rfl
    show (if _ then _ else _) = _
    rw [hsame, rtake_eq_ite, h.cached, rtake_append_rtake]
    rfl

theorem step (h : a.Kept inRange) (e : HistoryEvent) :
    ((archive inRange).step a e).Kept inRange := by
  cases e with
  | append n received => exact h.append n received
  | restart => exact ⟨h.file, h.file.cached_openOrCreate⟩

end Archive.Kept

/-- **The history survives restarts.** However often it is appended to, rotated and opened again,
what is in memory is the last of all records, and so is what would be read from the file. -/
theorem history_survives {a : Archive} (ha : (archive inRange).Init a) {es : List HistoryEvent}
    (h : (archive inRange).Legal a es) :
    (archive inRange).Always (fun a => a.history.cached = a.all.rtake historyKept ∧
      (History.openOrCreate inRange a.history.files).cached = a.all.rtake historyKept) a es :=
  (EventMachine.Always.of_invariant (fun _ e hk _ => hk.step e) (Archive.Kept.init ha) h).mono
    fun _ hk => ⟨hk.cached, hk.file.cached_openOrCreate⟩

theorem history_survives_first :
    (archive fun _ => true).Always
      (fun a => a.history.cached = a.all.rtake historyKept ∧
        (History.openOrCreate (fun _ => true) a.history.files).cached = a.all.rtake historyKept)
      ⟨⟨⟨[], none⟩, []⟩, []⟩
      [.append (.closeFor 1) 0, .restart, .append (.closeFor 2) 1] :=
  history_survives ⟨⟨[], rfl, nofun⟩, rfl, rfl⟩ ⟨trivial, trivial, trivial, trivial⟩

end NxNotif

end Nullxes
