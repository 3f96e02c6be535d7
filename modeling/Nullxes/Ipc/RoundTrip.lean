import Nullxes.Ipc.Envelope

/-!
# Envelopes are read back

Every reader undoes its writer, from the inside out: snapshots and errors, requests and responses,
the flattened direction, the envelope, its text, its line, and a stream of lines. The two directions
never mix because a request has no `result` and a response no `kind`.

## Main results

* `Ipc.stream_roundTrip` — a stream of envelopes is read back as it was written
-/

namespace Nullxes

namespace Frame

open Serde

/-! ## Requests and responses -/

theorem usize_number {n : ℕ} (h : n < UInt64.size) : usize (number n) = some n := usize_ofNat h

theorem Request.deserialize_serialize {req : Request} (h : req.Fits) :
    deserialize req.serialize = some req := by
  cases req with
  | switchWorkspace idx =>
    have hidx : field "idx" usize [("idx", number idx)] = some idx := by
      simpa [field] using usize_number h
    show (field "idx" usize [("idx", number idx)]).map Request.switchWorkspace = _
    rw [hidx, Option.map_some]
  | moveFocused target =>
    have htarget : field "target" usize [("target", number target)] = some target := by
      simpa [field] using usize_number h
    show (field "target" usize [("target", number target)]).map Request.moveFocused = _
    rw [htarget, Option.map_some]
  | _ => rfl

theorem StateSnapshot.deserialize_serialize {snap : StateSnapshot} (h : snap.Fits) :
    deserialize snap.serialize = some snap := by
  obtain ⟨hcount, hactive, hoccupied⟩ := h
  have hlist : elements usize (.arr (snap.occupied.map number)) = some snap.occupied :=
    elements_map fun i hi => usize_number (hoccupied i hi)
  simp [deserialize, serialize, field, usize_number hcount, usize_number hactive, hlist]

theorem ResponseData.deserialize_serialize {data : ResponseData} (h : data.Fits) :
    deserialize data.serialize = some data := by
  cases data with
  | state snap =>
    simp [deserialize, adjacent, adjacentMembers, serialize, variantName, variants, Payload.read,
      StateSnapshot.deserialize_serialize h]

theorem IpcError.deserialize_serialize (error : IpcError) :
    deserialize error.serialize = some error := by
  cases error with
  | versionMismatch supported =>
    have hlist : elements uint8 (.arr (supported.map fun n => number n.toNat)) = some supported :=
      elements_map fun n _ => uint8_ofNat n
    simp [deserialize, adjacent, adjacentMembers, serialize, variantName, variants, Payload.read,
      field, hlist]
  | _ => rfl

theorem Response.deserialize_serialize {resp : Response} (h : resp.Fits) :
    deserialize resp.serialize = some resp := by
  cases resp with
  | ok data =>
    cases data with
    | none => rfl
    | some data =>
      have hdata : nullable ResponseData.deserialize data.serialize = some (some data) := by
        cases data with
        | state snap => exact congrArg (Option.map some) (ResponseData.deserialize_serialize h)
      simp [deserialize, internalMembers, serialize, variant, variants, optionField, hdata]
  | err error =>
    simp [deserialize, internalMembers, serialize, variant, variants, List.lookup_cons, field,
      error.deserialize_serialize]

/-! ## The directions do not mix -/

theorem Request.deserialize_response (resp : Response) : deserialize resp.serialize = none := by
  have hkind : values "kind" resp.serialize = [] := by
    rcases resp with (_ | data) | error <;> simp [Response.serialize]
  rw [deserialize, adjacentMembers, hkind]

theorem Response.deserialize_request (req : Request) : deserialize req.serialize = none := by
  have hresult : values "result" req.serialize = [] := by
    cases req <;> simp [Request.serialize]
  rw [deserialize, internalMembers, hresult]

end Frame

namespace Ipc

open Nullxes.Frame Serde

theorem Direction.deserialize_serialize {direction : Direction} (h : direction.Fits) :
    deserialize direction.serialize = some direction := by
  cases direction with
  | request req => rw [deserialize, serialize, Request.deserialize_serialize h]
  | response resp =>
    rw [deserialize, serialize, Request.deserialize_response, Response.deserialize_serialize h,
      Option.map_some]

/-! ## Envelopes -/

/-- The fields of the envelope itself are not among those of its direction. -/
theorem Direction.names_serialize (direction : Direction) :
    ∀ m ∈ direction.serialize, m.1 ≠ "v" ∧ m.1 ≠ "id" := by
  rcases direction with req | resp
  · cases req <;> simp [serialize, Request.serialize]
  · rcases resp with (_ | data) | error <;> simp [serialize, Response.serialize]

/-- Trimming the line of an object takes away the line feed and nothing else. -/
theorem trimEnd_obj (ms : List (String × Json)) :
    trimEnd ((Json.obj ms).text ++ ['\n']) = (Json.obj ms).text := by
  obtain ⟨cs, hcs⟩ := Json.text_obj_eq_append ms
  rw [trimEnd, List.rdropWhile_concat_pos _ _ _ (by decide), hcs,
    List.rdropWhile_concat_neg _ _ _ (by decide)]

namespace Envelope

theorem values_direction {name : String} (direction : Direction) (h : name = "v" ∨ name = "id") :
    values name direction.serialize = [] := by
  have hnone : direction.serialize.filter (fun m => m.1 = name) = [] := by
    refine List.filter_eq_nil_iff.mpr fun m hm heq => ?_
    have hnames := direction.names_serialize m hm
    rcases h with rfl | rfl
    · exact hnames.1 (of_decide_eq_true heq)
    · exact hnames.2 (of_decide_eq_true heq)
  rw [values, hnone, List.map_nil]

theorem deserialize_serialize {e : Envelope} (h : e.Fits) : deserialize e.serialize = some e := by
  have hv := values_direction e.direction (.inl rfl)
  have hid := values_direction e.direction (.inr rfl)
  have hversion : uint8 (number e.v.toNat) = some e.v := uint8_ofNat e.v
  have hothers : others (("v", number e.v.toNat) :: ("id", .num (.unsigned e.id)) ::
      e.direction.serialize) = e.direction.serialize := by
    rw [others, List.filter_cons_of_neg (by simp), List.filter_cons_of_neg (by simp)]
    exact List.filter_eq_self.mpr fun m hm => decide_eq_true (e.direction.names_serialize m hm)
  simp [deserialize, serialize, field, hv, hid, hothers, hversion,
    Direction.deserialize_serialize h]

/-! ## Lines -/

theorem shallow_number {d : ℕ} (n : ℕ) : (number n).Shallow d := Json.shallow_unsigned _

theorem shallow_numbers {d : ℕ} (ns : List ℕ) : (Json.arr (ns.map number)).Shallow (d + 1) := by
  refine Json.shallow_arr fun v hv => ?_
  obtain ⟨n, -, rfl⟩ := List.mem_map.mp hv
  exact shallow_number n

theorem shallow_snapshot (snap : StateSnapshot) : snap.serialize.Shallow 2 :=
  Json.shallow_obj (by
    simp [shallow_number, shallow_numbers, Json.shallow_bool])

theorem shallow_error (error : IpcError) : error.serialize.Shallow 3 := by
  cases error with
  | versionMismatch supported =>
    have hlist := shallow_numbers (d := 0) (supported.map UInt8.toNat)
    rw [List.map_map] at hlist
    have hmessage : (Json.obj [("supported", .arr (supported.map fun n => number n.toNat))]).Shallow
        2 := by
      refine Json.shallow_obj fun m hm => ?_
      obtain rfl := List.mem_singleton.mp hm
      exact hlist
    exact Json.shallow_obj (by simpa [Json.shallow_str] using hmessage)
  | _ => exact Json.shallow_obj (by simp [Json.shallow_str])

/-- An envelope is written without signs or points, and is nested at most four deep. -/
theorem shallow_serialize (e : Envelope) : e.serialize.Shallow 4 := by
  have hdirection : ∀ m ∈ e.direction.serialize, m.2.Shallow 3 := by
    rcases e.direction with req | (_ | ⟨⟨snap⟩⟩) | error
    · have hpayload : ∀ name n, (Json.obj [(name, number n)]).Shallow 3 :=
        fun name n => Json.shallow_obj (by simp [shallow_number])
      cases req <;> simp [Direction.serialize, Request.serialize, Json.shallow_str, hpayload]
    · simp [Direction.serialize, Response.serialize, Json.shallow_str, Json.shallow_null]
    · have hdata : (ResponseData.state snap).serialize.Shallow 3 :=
        Json.shallow_obj (by simp [Json.shallow_str, shallow_snapshot])
      simp [Direction.serialize, Response.serialize, Json.shallow_str, hdata]
    · simp [Direction.serialize, Response.serialize, Json.shallow_str, shallow_error]
  refine Json.shallow_obj fun m hm => ?_
  rcases hm with _ | ⟨_, _ | ⟨_, hm⟩⟩
  · exact shallow_number _
  · exact Json.shallow_unsigned _
  · exact hdirection m hm

theorem toLine_eq (e : Envelope) : e.toLine = Utf8.encode (e.serialize.text ++ ['\n']) := by
  rw [Utf8.encode_append]
  rfl

theorem newline_notMem_text (e : Envelope) : '\n' ∉ e.serialize.text := by
  intro hmem
  exact absurd (Json.printable_text _ e.shallow_serialize.plain '\n' hmem) (by decide)

theorem isLine_toLine (e : Envelope) : Lines.IsLine 0x0a e.toLine := by
  rw [toLine_eq]
  exact Utf8.isLine_encode e.newline_notMem_text

theorem newline_mem_toLine (e : Envelope) : 0x0a ∈ e.toLine := by
  simp [toLine]

end Envelope

namespace Reader

theorem fromStr_text (rd : Reader) {e : Envelope} (h : e.Fits) :
    rd.fromStr (e.serialize.text ++ ['\n']) = .ok e := by
  have htrim : trimEnd (e.serialize.text ++ ['\n']) = e.serialize.text := trimEnd_obj _
  have hparse : Json.parse rd.inRange e.serialize.text = some e.serialize := by
    have hshallow := e.shallow_serialize
    have hdepth : e.serialize.depth < Json.depthLimit :=
      Nat.lt_of_le_of_lt hshallow.depth_le (by decide)
    simpa using Json.parse_text rd.inRange hshallow.plain hdepth [] (by simp)
  rw [fromStr, htrim, hparse, Option.bind_some, Envelope.deserialize_serialize h]

theorem decodeLine_toLine (rd : Reader) {e : Envelope} (h : e.Fits) :
    rd.decodeLine e.toLine = some (.ok e) := by
  rw [decodeLine, e.toLine_eq, Utf8.decode_encode, Option.map_some, rd.fromStr_text h]

end Reader

/-- A stream of envelopes is cut at the ends of the envelopes. -/
theorem lines_flatMap_toLine (es : List Envelope) :
    Lines.lines 0x0a (es.flatMap Envelope.toLine) = es.map Envelope.toLine := by
  have hlines : ∀ l ∈ es.map Envelope.toLine, Lines.IsLine 0x0a l := by
    intro l hl
    obtain ⟨e, -, rfl⟩ := List.mem_map.mp hl
    exact e.isLine_toLine
  have hcut := Lines.lines_flatten hlines []
  rwa [List.append_nil, ← List.flatMap_def, Lines.lines, List.append_nil] at hcut

/-- **Envelopes survive the wire.** A stream of envelopes is cut back into as many lines, each of
which is read as the envelope that was written; no envelope has a line feed in it, and what is
written of a request is not read as a response, nor the reverse. -/
theorem stream_roundTrip (rd : Reader) {es : List Envelope} (h : ∀ e ∈ es, e.Fits) :
    (Lines.lines 0x0a (es.flatMap Envelope.toLine)).map rd.decodeLine =
        es.map (fun e => some (.ok e)) ∧
      ∀ e ∈ es, 0x0a ∉ e.toVec ∧ rd.decodeLine (e.toVec ++ [0x0a]) = some (.ok e) ∧
        (∀ req, e.direction = .request req → Response.deserialize req.serialize = none) ∧
        ∀ resp, e.direction = .response resp → Request.deserialize resp.serialize = none := by
  constructor
  · rw [lines_flatMap_toLine, List.map_map]
    exact List.map_congr_left fun e he => rd.decodeLine_toLine (h e he)
  · intro e he
    refine ⟨?_, rd.decodeLine_toLine (h e he), ?_, ?_⟩
    · exact fun hmem => e.newline_notMem_text (Utf8.newline_mem_encode.mp hmem)
    · exact fun req _ => Response.deserialize_request req
    · exact fun resp _ => Request.deserialize_response resp

/-- A request, and a response whose message has a line feed and a quote in it. -/
def exchange : List Envelope :=
  [.request 7 (.switchWorkspace 3), .response 7 (.err (.invalidRequest "no\n\"workspace\""))]

theorem stream_roundTrip_exchange :
    (Lines.lines 0x0a (exchange.flatMap Envelope.toLine)).map
        (Reader.decodeLine ⟨fun _ => true, fun _ => ""⟩) =
      exchange.map (fun e => some (.ok e)) := by
  have hfits : ∀ e ∈ exchange, e.Fits := by
    intro e he
    rcases he with _ | ⟨_, _ | ⟨_, ⟨⟩⟩⟩
    · exact (by decide : 3 < UInt64.size)
    · exact trivial
  exact (stream_roundTrip _ hfits).1

end Ipc

end Nullxes
