import Nullxes.Library.JsonPrefix
import Nullxes.NxNotif.Cap

/-!
# Crashes while the history is written

The process can be killed in the middle of an `append`. The next start reads what is in the file
then, and writes after it: a part of a line stays where it is, and a rotation is not taken up again.

So nothing is lost as long as a line is only written where one begins, no rotation is interrupted
that had something to replay, and lines that were written without `append` having returned do not
push out those for which it has.

## Main definitions

* `CrashPoint`, `History.torn` — how far an `append` has got, and what it leaves
* `crashes` — the history over the runs of a process that can be killed
* `Archive.Recovered` — the last records are read at the next start
* `Harmless` — the steps that keep them

## Main results

* `records_part` — a part of a record is not one
* `Archive.Sound.harmless_iff` — where a line begins, the other steps lose something
* `history_recovered` — nothing is lost in a run of such steps
-/

namespace Nullxes

namespace NxNotif

/-! ## What is left of an append -/

/-- How far `append` has got. -/
inductive CrashPoint
  /-- So many bytes of the line are written. -/
  | written (count : ℕ)
  /-- `rotate` has renamed the file. -/
  | renamed
  /-- It has opened a new one. -/
  | reopened
  /-- It has replayed so many lines. -/
  | replayed (count : ℕ)
  deriving DecidableEq, Repr

/-- Only a rotation gets there. -/
def CrashPoint.InRotation : CrashPoint → Prop
  | .written _ => False
  | .renamed | .reopened | .replayed _ => True

namespace History

/-- The files after an `append` that has got so far. There is none after the rename, and the next
start makes an empty one. -/
def torn (h : History) (n : Notif) (received : UInt64) : CrashPoint → Files
  | .written count =>
    ⟨h.files.current ++ (lineOf (Record.of n received).text).take count, h.files.rotation⟩
  | .renamed | .reopened => ⟨[], some (h.appended n received)⟩
  | .replayed count =>
    ⟨((replayed (h.appended n received)).take count).flatten, some (h.appended n received)⟩

/-- The last point of an `append`. -/
def done (h : History) (n : Notif) (received : UInt64) : CrashPoint :=
  if historyCap < (h.appended n received).length then .replayed historyKept
  else .written (lineOf (Record.of n received).text).length

/-- An `append` that gets to its last point leaves what it leaves when it returns. -/
theorem current_torn_done (h : History) (n : Notif) (received : UInt64) :
    (h.torn n received (h.done n received)).current = (h.append n received).files.current := by
  rw [append_current, done]
  split
  · have hle : (replayed (h.appended n received)).length ≤ historyKept := by
      rw [replayed, List.length_map]
      exact length_rtake_le _ _
    rw [torn, List.take_of_length_le hle]
  · rw [torn, List.take_length, appended]

end History

/-! ## The lines that are left -/

variable {inRange : List Char → Bool}

theorem chop_of_notMem {cs : List Char} (h : '\n' ∉ cs) : chop cs = cs := by
  rw [chop, if_neg fun hlast => h (List.mem_of_getLast? hlast)]

theorem lines_of_notMem {tail : List UInt8} (hne : tail ≠ []) (h : 0x0a ∉ tail) :
    lines tail = ((Utf8.decode tail).map chop).toList := by
  rw [lines, Lines.lines_of_notMem hne h]
  cases hd : (Utf8.decode tail).map chop with
  | none => simp [hd]
  | some cs => simp [hd]

namespace Record

variable (r : Record)

theorem lineOf_text : lineOf r.text = Utf8.encode r.text ++ [0x0a] := Utf8.encode_append _ _

theorem newline_notMem_encode : 0x0a ∉ Utf8.encode r.text :=
  fun hmem => r.notMem_text (by decide) (Utf8.newline_mem_encode.mp hmem)

/-- **A part of a record is not one.** -/
theorem records_part {count : ℕ} (hcount : count < (Utf8.encode r.text).length) :
    records inRange ((Utf8.encode r.text).take count) = [] := by
  set tail := (Utf8.encode r.text).take count with htail
  have hlength : tail.length < (Utf8.encode r.text).length := by
    rw [htail, List.length_take]
    omega
  have hline : 0x0a ∉ tail := fun hmem => r.newline_notMem_encode (List.mem_of_mem_take hmem)
  by_cases hne : tail = []
  · rw [hne]
    rfl
  rw [records, lines_of_notMem hne hline]
  cases hd : Utf8.decode tail with
  | none => rfl
  | some cs =>
    have hbytes : Utf8.encode cs = tail := Utf8.encode_of_decode hd
    have hbegins : cs <+: r.text :=
      Utf8.isPrefix_of_encode (hbytes ▸ htail ▸ List.take_prefix _ _)
    have hshorter : cs ≠ r.text := by
      rintro rfl
      rw [hbytes] at hlength
      exact Nat.lt_irrefl _ hlength
    have hchop : chop cs = cs :=
      chop_of_notMem fun hmem => r.notMem_text (by decide) (hbegins.subset hmem)
    have hdepth : r.serialize.depth < Json.depthLimit :=
      Nat.lt_of_le_of_lt r.shallow_serialize.depth_le (by decide)
    have hnone : fromStr inRange cs = none := by
      rw [fromStr, Json.parse_prefix r.shallow_serialize.plain hdepth hbegins hshorter]
      rfl
    rw [Option.map_some, hchop, Option.toList_some, List.filterMap_cons_none hnone,
      List.filterMap_nil]

/-- Without its line feed it is. -/
theorem records_encode : records inRange (Utf8.encode r.text) = [r] := by
  have hne : Utf8.encode r.text ≠ [] := by
    have hencode := length_le_encode r.text
    have htext := r.length_summary_lt
    exact List.ne_nil_of_length_pos (by omega)
  have hchop : chop r.text = r.text := chop_of_notMem (r.notMem_text (by decide))
  rw [records, lines_of_notMem hne r.newline_notMem_encode, Utf8.decode_encode, Option.map_some,
    hchop, Option.toList_some, List.filterMap_cons_some (fromStr_text inRange r),
    List.filterMap_nil]

end Record

/-! ## Files after a crash -/

variable (inRange) in
/-- Lines that are records, and perhaps a part of a line after them. -/
def Residue (bytes : List UInt8) : Prop :=
  ∃ ls tail, bytes = contents ls ++ tail ∧ (∀ l ∈ ls, Proper inRange l.1) ∧ 0x0a ∉ tail

/-- The next line begins here. -/
def Ended (bytes : List UInt8) : Prop := ∀ b ∈ bytes.getLast?, b = 0x0a

section Files

variable {bytes : List UInt8} {r : Record} {count : ℕ}

theorem WellFormed.residue (h : WellFormed inRange bytes) : Residue inRange bytes := by
  obtain ⟨ls, rfl, hls⟩ := h
  exact ⟨ls, [], (List.append_nil _).symm, hls, List.not_mem_nil⟩

theorem Residue.wellFormed (h : Residue inRange bytes) (hended : Ended bytes) :
    WellFormed inRange bytes := by
  obtain ⟨ls, tail, rfl, hls, htail⟩ := h
  have hnil : tail = [] := by
    by_contra hne
    have hlast : (contents ls ++ tail).getLast? = some (tail.getLast hne) := by
      rw [List.getLast?_append, List.getLast?_eq_getLast_of_ne_nil hne, Option.some_or]
    exact htail (hended _ hlast ▸ List.getLast_mem hne)
  rw [hnil, List.append_nil]
  exact ⟨ls, rfl, hls⟩

namespace WellFormed

/-- What a part of a line adds to a file. -/
theorem written (h : WellFormed inRange bytes) (r : Record) (count : ℕ) :
    Residue inRange (bytes ++ (lineOf r.text).take count) ∧
      records inRange (bytes ++ (lineOf r.text).take count) =
        if count + 1 < (lineOf r.text).length then records inRange bytes
        else records inRange bytes ++ [r] := by
  have hlength : (lineOf r.text).length = (Utf8.encode r.text).length + 1 := by
    rw [r.lineOf_text, List.length_append, List.length_singleton]
  by_cases hall : (lineOf r.text).length ≤ count
  · obtain ⟨hconcat, hrecords⟩ := h.concat r
    rw [List.take_of_length_le hall, hrecords, if_neg (by omega)]
    exact ⟨hconcat.residue, rfl⟩
  have htake : (lineOf r.text).take count = (Utf8.encode r.text).take count := by
    rw [r.lineOf_text, List.take_append_of_le_length (by omega)]
  constructor
  · obtain ⟨ls, rfl, hls⟩ := h
    exact ⟨ls, _, rfl, hls, htake ▸ fun hmem =>
      r.newline_notMem_encode (List.mem_of_mem_take hmem)⟩
  · rw [htake, h.records_append]
    split
    · rw [r.records_part (by omega), List.append_nil]
    · rw [List.take_of_length_le (by omega), r.records_encode]

/-- What a rotation has replayed so far. -/
theorem replayed (h : WellFormed inRange bytes) (count : ℕ) :
    WellFormed inRange ((History.replayed bytes).take count).flatten ∧
      records inRange ((History.replayed bytes).take count).flatten =
        ((records inRange bytes).rtake historyKept).take count := by
  obtain ⟨ls, rfl, hls⟩ := h
  have hsome : ∀ t ∈ ls.map Prod.fst, Proper inRange t := by
    intro t ht
    obtain ⟨l, hl, rfl⟩ := List.mem_map.mp ht
    exact hls l hl
  obtain ⟨hwf, hrecords⟩ := wellFormed_texts
    (((ls.map Prod.fst).rtake historyKept).take count)
    fun t ht => hsome t (List.mem_of_mem_drop (List.mem_of_mem_take ht))
  have hbytes : ((History.replayed (contents ls)).take count).flatten =
      contents ((((ls.map Prod.fst).rtake historyKept).take count).map fun t => (t, false)) := by
    rw [History.replayed, lines_contents hls, ← List.map_take, contents, List.map_map]
    rfl
  rw [hbytes, hrecords, records_contents hls, filterMap_take, filterMap_rtake]
  · exact ⟨hwf, rfl⟩
  · exact fun t ht => (hsome t ht).record
  · exact fun t ht => (hsome t (List.mem_of_mem_drop ht)).record

end WellFormed

end Files

/-! ## A process that can be killed -/

/-- What happens to the history. -/
inductive CrashEvent
  /-- What happens to it without a crash. -/
  | whole (e : HistoryEvent)
  /-- An `append` is cut off, and the process starts again. -/
  | crash (n : Notif) (received : UInt64) (point : CrashPoint)
  deriving DecidableEq, Repr

variable (inRange) in
/-- The history over the runs of a process that can be killed. All records are those for which
`append` has returned, and those of the first file. -/
def crashes : EventMachine Archive CrashEvent where
  Init := (archive inRange).Init
  Enabled a
    | .whole e => (archive inRange).Enabled a e
    | .crash n received point =>
      point.InRotation → historyCap < (a.history.appended n received).length
  step a
    | .whole e => (archive inRange).step a e
    | .crash n received point => ⟨.openOrCreate inRange (a.history.torn n received point), a.all⟩

variable (inRange) in
/-- The last of all records are read at the next start. -/
def Archive.Recovered (a : Archive) : Prop :=
  (a.all.rtake historyKept).Sublist (History.openOrCreate inRange a.history.files).cached

variable (inRange) in
/-- The steps that lose nothing. A line is written where one begins, and pushes out none of the last
records; a rotation is cut off only when it has replayed them all. -/
def Harmless (a : Archive) : CrashEvent → Prop
  | .whole (.append _ _) => Ended a.history.files.current ∧
    (a.all.rtake (historyKept - 1)).Sublist
      ((records inRange a.history.files.current).rtake (historyKept - 1))
  | .whole .restart => True
  | .crash n received (.written count) => count = 0 ∨ Ended a.history.files.current ∧
    (count + 1 < (lineOf (Record.of n received).text).length ∨
      (a.all.rtake historyKept).Sublist
        ((records inRange a.history.files.current ++ [Record.of n received]).rtake historyKept))
  | .crash _ _ .renamed | .crash _ _ .reopened => a.all = []
  | .crash n received (.replayed count) => Ended a.history.files.current ∧
    (a.all.rtake historyKept).Sublist
      (((records inRange a.history.files.current ++ [Record.of n received]).rtake
        historyKept).take count)

variable {a : Archive} {n : Notif} {received : UInt64}

theorem Archive.recovered_iff : a.Recovered inRange ↔
    (a.all.rtake historyKept).Sublist
      ((records inRange a.history.files.current).rtake historyKept) := by
  rw [Archive.Recovered, History.cached_openOrCreate]

/-- The last records with one more. -/
theorem rtake_historyKept_concat {α : Type} (l : List α) (b : α) :
    (l ++ [b]).rtake historyKept = l.rtake (historyKept - 1) ++ [b] := by
  have hkept : historyKept = historyKept - 1 + 1 := by decide
  rw [hkept, List.rtake_concat_succ, ← hkept]

theorem rtake_take_historyKept {α : Type} (l : List α) (count : ℕ) :
    ((l.rtake historyKept).take count).rtake historyKept = (l.rtake historyKept).take count := by
  have hle : ((l.rtake historyKept).take count).length ≤ historyKept := by
    have hkept := length_rtake_le l historyKept
    rw [List.length_take]
    omega
  rw [List.rtake, Nat.sub_eq_zero_of_le hle, List.drop_zero]

/-- The records that an `append` leaves in the file when it has got so far. -/
def CrashPoint.left (rs : List Record) (r : Record) : CrashPoint → List Record
  | .written count => if count + 1 < (lineOf r.text).length then rs else rs ++ [r]
  | .renamed | .reopened => []
  | .replayed count => ((rs ++ [r]).rtake historyKept).take count

namespace WellFormed

variable {h : History}

/-- What is read after a crash. -/
theorem torn (hwf : WellFormed inRange h.files.current) (n : Notif) (received : UInt64)
    (point : CrashPoint) :
    Residue inRange (h.torn n received point).current ∧
      records inRange (h.torn n received point).current =
        point.left (records inRange h.files.current) (.of n received) := by
  cases point with
  | written count => exact hwf.written _ count
  | renamed => exact ⟨nil.residue, rfl⟩
  | reopened => exact ⟨nil.residue, rfl⟩
  | replayed count =>
    obtain ⟨hwritten, hrecords⟩ := hwf.concat (.of n received)
    obtain ⟨hreplayed, hleft⟩ := hwritten.replayed count
    rw [hrecords] at hleft
    exact ⟨hreplayed.residue, hleft⟩

/-- What is read after an `append`. -/
theorem append (hwf : WellFormed inRange h.files.current) (n : Notif) (received : UInt64) :
    Residue inRange (h.append n received).files.current ∧
      (records inRange (h.append n received).files.current).rtake historyKept =
        (records inRange h.files.current).rtake (historyKept - 1) ++ [.of n received] := by
  obtain ⟨hresidue, hrecords⟩ := hwf.torn n received (h.done n received)
  rw [h.current_torn_done] at hresidue hrecords
  refine ⟨hresidue, ?_⟩
  rw [hrecords, ← rtake_historyKept_concat, History.done]
  split
  · have hle := length_rtake_le (records inRange h.files.current ++ [.of n received]) historyKept
    rw [CrashPoint.left, rtake_take_historyKept, List.take_of_length_le hle]
  · rw [CrashPoint.left, if_neg (by omega)]

end WellFormed

/-! ## What a step loses -/

theorem recovered_append_iff (hwf : WellFormed inRange a.history.files.current) :
    ((crashes inRange).step a (.whole (.append n received))).Recovered inRange ↔
      (a.all.rtake (historyKept - 1)).Sublist
        ((records inRange a.history.files.current).rtake (historyKept - 1)) := by
  rw [Archive.recovered_iff]
  show ((a.all ++ [Record.of n received]).rtake historyKept).Sublist
    ((records inRange (a.history.append n received).files.current).rtake historyKept) ↔ _
  rw [(hwf.append n received).2, rtake_historyKept_concat, List.append_sublist_append_right]

theorem recovered_crash_iff (hwf : WellFormed inRange a.history.files.current)
    {point : CrashPoint} :
    ((crashes inRange).step a (.crash n received point)).Recovered inRange ↔
      (a.all.rtake historyKept).Sublist
        ((point.left (records inRange a.history.files.current) (.of n received)).rtake
          historyKept) := by
  rw [Archive.recovered_iff]
  show (a.all.rtake historyKept).Sublist
    ((records inRange (a.history.torn n received point).current).rtake historyKept) ↔ _
  rw [(hwf.torn n received point).2]

/-- What every harmless step keeps. -/
structure Archive.Sound (inRange : List Char → Bool) (a : Archive) : Prop where
  residue : Residue inRange a.history.files.current
  recovered : a.Recovered inRange

namespace Archive.Sound

theorem init (h : (crashes inRange).Init a) : a.Sound inRange := by
  obtain ⟨hwf, -, hall⟩ := h
  exact ⟨hwf.residue, Archive.recovered_iff.mpr (by rw [hall])⟩

/-- Where a line begins, the harmless steps are those that lose nothing. -/
theorem harmless_iff (h : a.Sound inRange) (hended : Ended a.history.files.current)
    (e : CrashEvent) :
    Harmless inRange a e ↔ ((crashes inRange).step a e).Recovered inRange := by
  have hwf := h.residue.wellFormed hended
  have hread := Archive.recovered_iff.mp h.recovered
  have hnil : (a.all.rtake historyKept).Sublist (([] : List Record).rtake historyKept) ↔
      a.all = [] := by
    have hkept : 0 < historyKept := by decide
    rw [List.rtake_nil, List.sublist_nil, List.rtake, List.drop_eq_nil_iff,
      ← List.length_eq_zero_iff]
    omega
  cases e with
  | whole e =>
    cases e with
    | append n received => exact (and_iff_right hended).trans (recovered_append_iff hwf).symm
    | restart => exact iff_of_true trivial h.recovered
  | crash n received point =>
    rw [recovered_crash_iff hwf]
    cases point with
    | written count =>
      have hlong := (Record.of n received).length_summary_add_one_lt
      rw [Harmless, CrashPoint.left, and_iff_right hended]
      split
      next hpart => exact iff_of_true (.inr (.inl hpart)) hread
      next hwhole => rw [or_iff_right (by omega), or_iff_right hwhole]
    | renamed => exact hnil.symm
    | reopened => exact hnil.symm
    | replayed count =>
      rw [Harmless, CrashPoint.left, rtake_take_historyKept, and_iff_right hended]

theorem append (h : a.Sound inRange) (hended : Ended a.history.files.current)
    (hrecovered : ((crashes inRange).step a (.whole (.append n received))).Recovered inRange) :
    ((crashes inRange).step a (.whole (.append n received))).Sound inRange :=
  ⟨((h.residue.wellFormed hended).append n received).1, hrecovered⟩

theorem crash (h : a.Sound inRange) (hended : Ended a.history.files.current) {point : CrashPoint}
    (hrecovered : ((crashes inRange).step a (.crash n received point)).Recovered inRange) :
    ((crashes inRange).step a (.crash n received point)).Sound inRange :=
  ⟨((h.residue.wellFormed hended).torn n received point).1, hrecovered⟩

/-- A step that leaves the file as it was. -/
theorem of_files_eq {a' : Archive} (h : a.Sound inRange)
    (hcurrent : a'.history.files.current = a.history.files.current) (hall : a'.all = a.all) :
    a'.Sound inRange := by
  have hread := Archive.recovered_iff.mp h.recovered
  rw [← hcurrent, ← hall] at hread
  exact ⟨hcurrent ▸ h.residue, Archive.recovered_iff.mpr hread⟩

/-- A crash when there is nothing to lose. -/
theorem of_nil {a' : Archive} (hcurrent : a'.history.files.current = []) (hall : a'.all = []) :
    a'.Sound inRange := by
  refine ⟨hcurrent ▸ WellFormed.nil.residue, Archive.recovered_iff.mpr ?_⟩
  rw [hall, List.rtake_nil]
  exact List.nil_sublist _

/-- **What a harmless step keeps.** -/
theorem step (h : a.Sound inRange) {e : CrashEvent} (he : Harmless inRange a e) :
    ((crashes inRange).step a e).Sound inRange := by
  cases e with
  | whole e =>
    cases e with
    | append n received => exact h.append he.1 ((h.harmless_iff he.1 _).mp he)
    | restart => exact h.of_files_eq rfl rfl
  | crash n received point =>
    cases point with
    | written count =>
      rcases Nat.eq_zero_or_pos count with rfl | hpos
      · exact h.of_files_eq (List.append_nil _) rfl
      · have hended := (he.resolve_left hpos.ne').1
        exact h.crash hended ((h.harmless_iff hended _).mp he)
    | renamed => exact of_nil rfl he
    | reopened => exact of_nil rfl he
    | replayed count => exact h.crash he.1 ((h.harmless_iff he.1 _).mp he)

end Archive.Sound

/-- **Nothing is lost in a run of harmless steps.** However often the process is killed, the next
start reads the last of all records. -/
theorem history_recovered (ha : (crashes inRange).Init a) {es : List CrashEvent}
    (h : (crashes inRange).Legal a es) (hc : (crashes inRange).EachStep (Harmless inRange) a es) :
    (crashes inRange).Always (Archive.Recovered inRange) a es :=
  (EventMachine.Always.of_eachStep (fun _ _ hs _ hC => hs.step hC) (Archive.Sound.init ha) h
    hc).mono fun _ hs => hs.recovered

theorem history_recovered_part :
    (crashes fun _ => true).Always (Archive.Recovered fun _ => true) emptyArchive
      [.whole (.append (plain 1) 0), .crash (plain 2) 0 (.written 1), .whole .restart] := by
  have hinit : Ended emptyArchive.history.files.current := fun b hb =>
    absurd hb (Option.not_mem_none b)
  have hended : Ended (emptyArchive.history.append (plain 1) 0).files.current := by
    unfold Ended
    decide +kernel
  have hpart : 2 < (lineOf (Record.of (plain 2) 0).text).length := by
    have hlt := (Record.of (plain 2) 0).length_summary_add_one_lt
    exact Nat.lt_of_le_of_lt (by decide) hlt
  refine history_recovered (init_emptyArchive _) ⟨trivial, False.elim, trivial, trivial⟩ ?_
  refine EventMachine.eachStep_cons.mpr ⟨⟨hinit, List.nil_sublist _⟩, ?_⟩
  refine EventMachine.eachStep_cons.mpr ⟨.inr ⟨hended, .inl hpart⟩, ?_⟩
  exact EventMachine.eachStep_cons.mpr ⟨trivial, EventMachine.eachStep_nil⟩

/-- A crash after the rename loses every record there is. -/
theorem not_history_recovered :
    ¬ ∀ (inRange : List Char → Bool) (a : Archive) (es : List CrashEvent),
      (crashes inRange).Init a → (crashes inRange).Legal a es →
      (crashes inRange).Always (Archive.Recovered inRange) a es := by
  intro h
  set r := Record.of (plain 1) 0
  have hlarge : historyCap <
      ((emptyArchive.history.append (plain 1) 0).appended huge 0).length := by
    have hlt := (Record.of huge 0).length_summary_add_one_lt
    have hhuge : (Record.of huge 0).summary.toList.length = historyCap := by
      show huge.summary.toList.length = historyCap
      rw [huge, String.toList_ofList, List.length_replicate]
    rw [History.appended, List.length_append]
    omega
  have hrecovered := h (fun _ => true) emptyArchive
    [.whole (.append (plain 1) 0), .crash huge 0 .renamed] (init_emptyArchive _)
    ⟨trivial, fun _ => hlarge, trivial⟩
  have hlost : ([r].rtake historyKept).Sublist [] := hrecovered.last
  have hkept : [r].rtake historyKept = [r] := by simp [List.rtake, historyKept]
  rw [hkept] at hlost
  exact List.cons_ne_nil r [] (List.sublist_nil.mp hlost)

end NxNotif

end Nullxes
