import Nullxes.Ipc.Discipline

/-!
# Other protocol versions

`client_loop` compares the version of an envelope after it has decoded the whole of it as one of
this version. A line of another version is therefore never executed, but it is answered with
`version_mismatch`, under its own id, only if this version could read it; any other line is answered
as one that is no envelope at all, under id 0.

## Main results

* `Ipc.versionMismatch_iff` — which lines of another version are told so
-/

namespace Nullxes

namespace Ipc

open Nullxes.Frame Serde

/-- The members of an object are those of an envelope of this version: `v` and `id` are there once
each, and the others make a request or a response. -/
def OfThisVersion (ms : List (String × Json)) : Prop :=
  (values "v" ms).length = 1 ∧ (values "id" ms).length = 1 ∧
    (Direction.deserialize (Envelope.others ms)).isSome

section

variable {rd : Reader} {line : List Char} {ms : List (String × Json)} {jv jid : Json}
  {v : UInt8} {id : UInt64}

theorem mem_values {name : String} {j : Json} (h : (name, j) ∈ ms) : j ∈ values name ms := by
  refine List.mem_map.mpr ⟨(name, j), List.mem_filter.mpr ⟨h, ?_⟩, rfl⟩
  simp

/-- A member that is read is the only one of its name. -/
theorem field_eq {α : Type} {read : Json → Option α} {name : String} {j : Json} {a : α}
    (h : field name read ms = some a) (hj : (name, j) ∈ ms) : read j = some a := by
  obtain ⟨j', hvalues, hread⟩ := field_eq_some_iff.mp h
  have hmem := mem_values hj
  rw [hvalues, List.mem_singleton] at hmem
  rw [hmem]
  exact hread

theorem field_of_length {α : Type} {read : Json → Option α} {name : String} {j : Json} {a : α}
    (h : (values name ms).length = 1) (hj : (name, j) ∈ ms) (hread : read j = some a) :
    field name read ms = some a := by
  obtain ⟨j', hvalues⟩ := List.length_eq_one_iff.mp h
  have hmem := mem_values hj
  rw [hvalues, List.mem_singleton] at hmem
  exact field_eq_some_iff.mpr ⟨j', hvalues, hmem ▸ hread⟩

/-- An object with a version and an id is an envelope exactly if it is one of this version. -/
theorem deserialize_iff (hv : ("v", jv) ∈ ms) (hjv : uint8 jv = some v) (hid : ("id", jid) ∈ ms)
    (hjid : uint64 jid = some id) :
    (∃ direction, Envelope.deserialize (.obj ms) = some ⟨v, id, direction⟩) ↔ OfThisVersion ms := by
  constructor
  · rintro ⟨direction, h⟩
    simp only [Envelope.deserialize, Option.bind_eq_bind, Option.bind_eq_some_iff] at h
    obtain ⟨v', hv', id', hid', direction', hdirection, -⟩ := h
    obtain ⟨_, hone, -⟩ := field_eq_some_iff.mp hv'
    obtain ⟨_, hone', -⟩ := field_eq_some_iff.mp hid'
    exact ⟨by rw [hone]; rfl, by rw [hone']; rfl, by rw [hdirection]; rfl⟩
  · rintro ⟨hone, hone', hdirection⟩
    obtain ⟨direction, hdirection⟩ := Option.isSome_iff_exists.mp hdirection
    refine ⟨direction, ?_⟩
    simp [Envelope.deserialize, field_of_length hone hv hjv, field_of_length hone' hid hjid,
      hdirection]

/-- What a line of another version gets. -/
theorem interpret_of_deserialize {direction : Direction}
    (hms : Json.parse rd.inRange (trimEnd line) = some (.obj ms))
    (hd : Envelope.deserialize (.obj ms) = some ⟨v, id, direction⟩) (hv : v ≠ protocolVersion) :
    rd.interpret line = .error (.err (.versionMismatch [protocolVersion])) ∧
      rd.correlationId line = id := by
  have hread : rd.fromStr line = .ok ⟨v, id, direction⟩ := by
    rw [Reader.fromStr, hms, Option.bind_some, hd]
  constructor
  · rw [Reader.interpret, hread]
    exact if_pos hv
  · rw [Reader.correlationId, hread]

/-- What a line that is no envelope gets. -/
theorem interpret_of_undecodable (hms : Json.parse rd.inRange (trimEnd line) = some (.obj ms))
    (hd : Envelope.deserialize (.obj ms) = none) :
    rd.interpret line = .error (.err (.invalidRequest ("decode: " ++ rd.error (trimEnd line)))) ∧
      rd.correlationId line = 0 := by
  have hread : rd.fromStr line = .error (rd.error (trimEnd line)) := by
    rw [Reader.fromStr, hms, Option.bind_some, hd]
  exact ⟨by rw [Reader.interpret, hread], by rw [Reader.correlationId, hread]⟩

/-- A line whose version is not this one asks for nothing. -/
theorem interpret_ne_ok (hms : Json.parse rd.inRange (trimEnd line) = some (.obj ms))
    (hv : ("v", jv) ∈ ms) (hjv : uint8 jv ≠ some protocolVersion) (req : Request) :
    rd.interpret line ≠ .ok req := by
  cases hd : Envelope.deserialize (.obj ms) with
  | none =>
    rw [(interpret_of_undecodable hms hd).1]
    simp
  | some env =>
    obtain ⟨v, id, direction⟩ := env
    have hfield : field "v" uint8 ms = some v := by
      simp only [Envelope.deserialize, Option.bind_eq_bind, Option.bind_eq_some_iff] at hd
      obtain ⟨v', hv', id', -, direction', -, heq⟩ := hd
      obtain rfl := (Envelope.mk.inj (Option.some.inj heq)).1
      exact hv'
    have hne : v ≠ protocolVersion := by
      rintro rfl
      exact hjv (field_eq hfield hv)
    rw [(interpret_of_deserialize hms hd hne).1]
    simp

end

/-- **Version negotiation.** Nothing is executed for an object whose version is not this one. If its
version is a `u8` and its id a `u64`, it is answered with `version_mismatch` under that id if and
only if it is an envelope of this version but for the version. -/
theorem versionMismatch_iff {rd : Reader} {s : Server} {c i : ℕ} {conn : Connection}
    {line : List Char} {ms : List (String × Json)} {jv : Json} (h : (server rd).Reachable s)
    (hc : s.conns[c]? = some conn) (hline : conn.received[i]? = some line)
    (hms : Json.parse rd.inRange (trimEnd line) = some (.obj ms)) (hv : ("v", jv) ∈ ms)
    (hjv : uint8 jv ≠ some protocolVersion) :
    s.channel.executions (c, i) = [] ∧
      ∀ v jid id e, uint8 jv = some v → ("id", jid) ∈ ms → uint64 jid = some id →
        conn.answered[i]? = some e →
          (e = Envelope.response id (.err (.versionMismatch [protocolVersion])) ↔
            OfThisVersion ms) := by
  have hinv := Server.inv_of_reachable h
  refine ⟨hinv.executions_eq_nil hc hline (interpret_ne_ok hms hv hjv), ?_⟩
  intro v jid id e hv' hid hjid he
  have hne : v ≠ protocolVersion := by
    rintro rfl
    exact hjv hv'
  obtain ⟨line', hline', response, rfl, hwhat⟩ := (hinv.discipline.answered c conn hc).2 i e he
  obtain rfl := Option.some.inj (hline.symm.trans hline')
  constructor
  · intro heq
    cases hd : Envelope.deserialize (.obj ms) with
    | none =>
      rw [(interpret_of_undecodable hms hd).1] at hwhat
      obtain ⟨rfl, -⟩ := hwhat
      simp [Envelope.response] at heq
    | some env =>
      rw [← deserialize_iff hv hv' hid hjid]
      have hfields := hd
      simp only [Envelope.deserialize, Option.bind_eq_bind, Option.bind_eq_some_iff] at hfields
      obtain ⟨v', hfv, id', hfid, direction, -, heq⟩ := hfields
      obtain rfl : v = v' := Option.some.inj (hv'.symm.trans (field_eq hfv hv))
      obtain rfl : id = id' := Option.some.inj (hjid.symm.trans (field_eq hfid hid))
      exact ⟨direction, hd.trans heq.symm⟩
  · intro hthis
    obtain ⟨direction, hd⟩ := (deserialize_iff hv hv' hid hjid).mpr hthis
    obtain ⟨hinterpret, hcorrelation⟩ := interpret_of_deserialize hms hd hne
    rw [hinterpret] at hwhat
    rw [hcorrelation, hwhat.1]

/-- `{"v":2,"id":7,"kind":"Get.State"}`. -/
def getStateTwo : List (String × Json) :=
  [("v", number 2), ("id", .num (.unsigned 7)), ("kind", .str "Get.State")]

/-- `{"v":2,"id":7,"kind":"New.Kind"}`. -/
def newKind : List (String × Json) :=
  [("v", number 2), ("id", .num (.unsigned 7)), ("kind", .str "New.Kind")]

/-- What `serde_json` says of the second. -/
def derived : Reader :=
  ⟨fun _ => true,
    fun _ => "data did not match any variant of untagged enum Direction at line 1 column 32"⟩

/-- An object whose values are plain is read from its line, in which there is no other line feed. -/
theorem parse_line {ms : List (String × Json)} (rd : Reader) (h : ∀ m ∈ ms, m.2.Shallow 0) :
    '\n' ∉ (Json.obj ms).text ∧
      Json.parse rd.inRange (trimEnd ((Json.obj ms).text ++ ['\n'])) = some (.obj ms) := by
  have hshallow := Json.shallow_obj h
  have hparse := Json.parse_text rd.inRange hshallow.plain
    (Nat.lt_of_le_of_lt hshallow.depth_le (by decide)) [] (by simp)
  rw [List.append_nil] at hparse
  refine ⟨fun hmem => ?_, by rw [trimEnd_obj, hparse]⟩
  exact absurd (Json.printable_text _ hshallow.plain '\n' hmem) (by decide)

theorem shallow_getStateTwo : ∀ m ∈ getStateTwo, m.2.Shallow 0 := by
  simp [getStateTwo, Envelope.shallow_number, Json.shallow_unsigned, Json.shallow_str]

theorem shallow_newKind : ∀ m ∈ newKind, m.2.Shallow 0 := by
  simp [newKind, Envelope.shallow_number, Json.shallow_unsigned, Json.shallow_str]

/-- A server to which one client has sent one object. -/
def lineRun (rd : Reader) (ms : List (String × Json)) : Server :=
  (server rd).run .desktop (oneLine (Utf8.encode ((Json.obj ms).text ++ ['\n'])))

theorem lineRun_spec (rd : Reader) {ms : List (String × Json)} (h : ∀ m ∈ ms, m.2.Shallow 0)
    {response : Response}
    (hi : rd.interpret ((Json.obj ms).text ++ ['\n']) = .error response) :
    (server rd).Reachable (lineRun rd ms) ∧ ∃ conn, (lineRun rd ms).conns[0]? = some conn ∧
      conn.received[0]? = some ((Json.obj ms).text ++ ['\n']) ∧
      conn.answered[0]? =
        some (Envelope.response (rd.correlationId ((Json.obj ms).text ++ ['\n'])) response) := by
  obtain ⟨hnl, -⟩ := parse_line rd h
  refine ⟨reachable_oneLine rd (Utf8.newline_mem_encode.mpr (by simp)), ?_⟩
  rw [lineRun, run_oneLine_of_error rd hnl hi]
  exact ⟨_, rfl, rfl, rfl⟩

/-- A request of this version under another number is refused as such. -/
theorem versionMismatch_iff_getStateTwo :
    ∃ conn, (lineRun derived getStateTwo).conns[0]? = some conn ∧
      conn.answered[0]? =
        some (Envelope.response 7 (.err (.versionMismatch [protocolVersion]))) := by
  have hparse := (parse_line derived shallow_getStateTwo).2
  have hv : ("v", number 2) ∈ getStateTwo := by simp [getStateTwo]
  have hid : ("id", Json.num (.unsigned 7)) ∈ getStateTwo := by simp [getStateTwo]
  have hthis : OfThisVersion getStateTwo := ⟨rfl, rfl, rfl⟩
  have hread : Envelope.deserialize (.obj getStateTwo) = some ⟨2, 7, .request .getState⟩ := rfl
  obtain ⟨hi, -⟩ := interpret_of_deserialize hparse hread (by decide)
  obtain ⟨hreach, conn, hconn, hline, he⟩ := lineRun_spec derived shallow_getStateTwo hi
  obtain ⟨-, hiff⟩ := versionMismatch_iff hreach hconn hline hparse hv (by decide)
  rw [(hiff 2 _ 7 _ rfl hid rfl he).mpr hthis] at he
  exact ⟨conn, hconn, he⟩

/-- A request that only another version knows is answered as no request at all, under id 0. -/
theorem newKind_invalid :
    (server derived).Reachable (lineRun derived newKind) ∧ ("v", number 2) ∈ newKind ∧
      uint8 (number 2) = some 2 ∧ (2 : UInt8) ≠ protocolVersion ∧
      ("id", Json.num (.unsigned 7)) ∈ newKind ∧ uint64 (.num (.unsigned 7)) = some 7 ∧
      Json.parse derived.inRange (trimEnd ((Json.obj newKind).text ++ ['\n'])) =
        some (.obj newKind) ∧
      ∃ conn, (lineRun derived newKind).conns[0]? = some conn ∧
        conn.received[0]? = some ((Json.obj newKind).text ++ ['\n']) ∧
        conn.answered[0]? = some (Envelope.response 0 (.err (.invalidRequest
          ("decode: data did not match any variant of untagged enum Direction" ++
            " at line 1 column 32")))) ∧
        conn.answered[0]? ≠
          some (Envelope.response 7 (.err (.versionMismatch [protocolVersion]))) := by
  have hparse := (parse_line derived shallow_newKind).2
  have hread : Envelope.deserialize (.obj newKind) = none := rfl
  obtain ⟨hi, hid⟩ := interpret_of_undecodable hparse hread
  obtain ⟨hreach, conn, hconn, hline, he⟩ := lineRun_spec derived shallow_newKind hi
  rw [hid] at he
  refine ⟨hreach, by simp [newKind], rfl, by decide, by simp [newKind], rfl, hparse, conn, hconn,
    hline, he, ?_⟩
  rw [he]
  simp [Envelope.response]

end Ipc

end Nullxes
