import Mathlib.Data.List.DropRight
import Nullxes.Frame.IpcServer
import Nullxes.Library.Lines
import Nullxes.Library.Serde

/-!
# Envelopes on the wire

`crates/ipc`: an `Envelope` is one line of JSON. Its direction is flattened into the object of the
envelope and is untagged, so what is read is the first of `Request` and `Response` that fits. A
request is adjacently tagged by `kind` and `payload`, a response internally by `result`, and what a
response carries is adjacently tagged again.

The readers of `serde_json` are derived; what they say about a text they refuse, and which numbers
that are no 64-bit integers they take for a float, is left to a `Reader`.

## Main definitions

* `Frame.Request.serialize`, `Frame.Response.serialize` — the derived writers, and their readers
* `Ipc.Envelope.toLine` — an envelope as a line
* `Ipc.Reader.decodeLine` — what is read from a line
-/

namespace Nullxes

namespace Frame

open Serde

/-- A `usize`. -/
def number (n : ℕ) : Json := .num (.unsigned (UInt64.ofNat n))

/-! ## Requests -/

namespace Request

/-- Every `usize` in it is one. -/
def Fits : Request → Prop
  | .switchWorkspace idx => idx < UInt64.size
  | .moveFocused target => target < UInt64.size
  | _ => True

instance (req : Request) : Decidable req.Fits := by
  cases req <;> simp only [Fits] <;> infer_instance

/-- The members a request adds to its envelope. -/
def serialize : Request → List (String × Json)
  | .switchWorkspace idx =>
    [("kind", .str "Switch.Workspace"), ("payload", .obj [("idx", number idx)])]
  | .moveFocused target =>
    [("kind", .str "Move.Focused"), ("payload", .obj [("target", number target)])]
  | .reloadConfig => [("kind", .str "Reload.Config")]
  | .getState => [("kind", .str "Get.State")]
  | .spawnLauncher => [("kind", .str "Spawn.Launcher")]
  | .sessionLock => [("kind", .str "Session.Lock")]
  | .quit => [("kind", .str "Compositor.Quit")]

def variants : List (String × Payload Request) :=
  [("Switch.Workspace", .struct fun ms => (field "idx" usize ms).map .switchWorkspace),
    ("Move.Focused", .struct fun ms => (field "target" usize ms).map .moveFocused),
    ("Reload.Config", .unit .reloadConfig), ("Get.State", .unit .getState),
    ("Spawn.Launcher", .unit .spawnLauncher), ("Session.Lock", .unit .sessionLock),
    ("Compositor.Quit", .unit .quit)]

def deserialize (ms : List (String × Json)) : Option Request :=
  adjacentMembers "kind" "payload" false variants ms

end Request

/-! ## Responses -/

namespace StateSnapshot

def Fits (snap : StateSnapshot) : Prop :=
  snap.workspaceCount < UInt64.size ∧ snap.activeWorkspace < UInt64.size ∧
    ∀ i ∈ snap.occupied, i < UInt64.size

instance (snap : StateSnapshot) : Decidable snap.Fits :=
  inferInstanceAs (Decidable (_ ∧ _ ∧ _))

def serialize (snap : StateSnapshot) : Json :=
  .obj [("workspace_count", number snap.workspaceCount),
    ("active_workspace", number snap.activeWorkspace),
    ("occupied", .arr (snap.occupied.map number)), ("xwayland_ready", .bool snap.xwaylandReady)]

/-- By field name, or in the order of the fields. -/
def deserialize : Json → Option StateSnapshot
  | .obj ms => do
    let count ← field "workspace_count" usize ms
    let active ← field "active_workspace" usize ms
    let occupied ← field "occupied" (elements usize) ms
    let ready ← field "xwayland_ready" boolean ms
    some ⟨count, active, occupied, ready⟩
  | .arr [count, active, occupied, ready] => do
    let count ← usize count
    let active ← usize active
    let occupied ← elements usize occupied
    let ready ← boolean ready
    some ⟨count, active, occupied, ready⟩
  | _ => none

end StateSnapshot

namespace ResponseData

def Fits : ResponseData → Prop
  | .state snap => snap.Fits

def serialize : ResponseData → Json
  | .state snap => .obj [("kind", .str "State"), ("value", snap.serialize)]

def variants : List (String × Payload ResponseData) :=
  [("State", .newtype fun v => (StateSnapshot.deserialize v).map .state)]

def deserialize (v : Json) : Option ResponseData := adjacent "kind" "value" true variants v

end ResponseData

namespace IpcError

def serialize : IpcError → Json
  | .versionMismatch supported =>
    .obj [("code", .str "version_mismatch"),
      ("message", .obj [("supported", .arr (supported.map fun n => number n.toNat))])]
  | .busy => .obj [("code", .str "busy")]
  | .invalidRequest message =>
    .obj [("code", .str "invalid_request"), ("message", .str message)]
  | .unknownKind => .obj [("code", .str "unknown_kind")]
  | .internal message => .obj [("code", .str "internal"), ("message", .str message)]
  | .notImplemented => .obj [("code", .str "not_implemented")]

def variants : List (String × Payload IpcError) :=
  [("version_mismatch", .struct fun ms =>
      (field "supported" (elements uint8) ms).map .versionMismatch),
    ("busy", .unit .busy),
    ("invalid_request", .newtype fun v => (string v).map .invalidRequest),
    ("unknown_kind", .unit .unknownKind),
    ("internal", .newtype fun v => (string v).map .internal),
    ("not_implemented", .unit .notImplemented)]

def deserialize (v : Json) : Option IpcError := adjacent "code" "message" true variants v

end IpcError

namespace Response

def Fits : Response → Prop
  | .ok (some data) => data.Fits
  | _ => True

/-- The members a response adds to its envelope. -/
def serialize : Response → List (String × Json)
  | .ok none => [("result", .str "ok"), ("data", .null)]
  | .ok (some data) => [("result", .str "ok"), ("data", data.serialize)]
  | .err error => [("result", .str "err"), ("error", error.serialize)]

def variants : List (String × (List (String × Json) → Option Response)) :=
  [("ok", fun ms => (optionField "data" ResponseData.deserialize ms).map .ok),
    ("err", fun ms => (field "error" IpcError.deserialize ms).map .err)]

def deserialize (ms : List (String × Json)) : Option Response :=
  internalMembers "result" variants ms

end Response

end Frame

namespace Ipc

open Nullxes.Frame Serde

/-! ## Envelopes -/

/-- `PROTOCOL_VERSION`. -/
def protocolVersion : UInt8 := 1

/-- `Direction`. -/
inductive Direction
  | request (req : Request)
  | response (resp : Response)
  deriving DecidableEq, Repr

/-- `Envelope`. -/
structure Envelope where
  v : UInt8
  id : UInt64
  direction : Direction
  deriving DecidableEq, Repr

namespace Direction

def Fits : Direction → Prop
  | .request req => req.Fits
  | .response resp => resp.Fits

def serialize : Direction → List (String × Json)
  | .request req => req.serialize
  | .response resp => resp.serialize

/-- The first variant that fits. -/
def deserialize (ms : List (String × Json)) : Option Direction :=
  match Request.deserialize ms with
  | some req => some (.request req)
  | none => (Response.deserialize ms).map .response

end Direction

namespace Envelope

/-- `Envelope::request`. -/
def request (id : UInt64) (req : Request) : Envelope := ⟨protocolVersion, id, .request req⟩

/-- `Envelope::response`. -/
def response (id : UInt64) (resp : Response) : Envelope := ⟨protocolVersion, id, .response resp⟩

/-- Every `usize` in it is one. -/
def Fits (e : Envelope) : Prop := e.direction.Fits

def serialize (e : Envelope) : Json :=
  .obj (("v", number e.v.toNat) :: ("id", .num (.unsigned e.id)) :: e.direction.serialize)

/-- What a flattened field is read from: the members no other field took. -/
def others (ms : List (String × Json)) : List (String × Json) :=
  ms.filter fun m => m.1 ≠ "v" ∧ m.1 ≠ "id"

def deserialize : Json → Option Envelope
  | .obj ms => do
    let v ← field "v" uint8 ms
    let id ← field "id" uint64 ms
    let direction ← Direction.deserialize (others ms)
    some ⟨v, id, direction⟩
  | _ => none

/-- `serde_json::to_vec`. -/
def toVec (e : Envelope) : List UInt8 := Utf8.encode e.serialize.text

/-- `to_vec`, then `push(b'\n')`. -/
def toLine (e : Envelope) : List UInt8 := e.toVec ++ [0x0a]

end Envelope

/-! ## Lines -/

/-- `char::is_whitespace`. -/
def isWhitespace (c : Char) : Bool :=
  let n := c.toNat
  (9 ≤ n && n ≤ 13) || n = 0x20 || n = 0x85 || n = 0xa0 || n = 0x1680 ||
    (0x2000 ≤ n && n ≤ 0x200a) || n = 0x2028 || n = 0x2029 || n = 0x202f || n = 0x205f || n = 0x3000

/-- `str::trim_end`. -/
def trimEnd (cs : List Char) : List Char := cs.rdropWhile isWhitespace

/-- `serde_json`, as far as it is not derived. -/
structure Reader where
  /-- Whether a number that is no 64-bit integer is one that a float can hold. -/
  inRange : List Char → Bool
  /-- What an error says of the text. -/
  error : List Char → String

namespace Reader

variable (rd : Reader)

/-- `serde_json::from_str::<Envelope>(line.trim_end())`. -/
def fromStr (line : List Char) : Except String Envelope :=
  match (Json.parse rd.inRange (trimEnd line)).bind Envelope.deserialize with
  | some e => .ok e
  | none => .error (rd.error (trimEnd line))

/-- `read_line` and `from_str`: nothing if the line is no text. -/
def decodeLine (line : List UInt8) : Option (Except String Envelope) :=
  (Utf8.decode line).map rd.fromStr

end Reader

end Ipc

end Nullxes
