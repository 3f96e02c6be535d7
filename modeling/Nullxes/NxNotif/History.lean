import Nullxes.Library.Lines
import Nullxes.Library.Serde
import Nullxes.NxNotif.Surface

/-!
# The notification history

`nx-notif/src/history.rs`. A `Record` is one line of JSON. `append` writes one and rotates when the
file has become too large, `openOrCreate` reads what is there.

## Representation

* A file is its bytes. `Files` are the two of the state directory; `file` of the source is a handle,
  in append mode, on what `current` stands for. Every operation on them succeeds.
* Which numbers that are no 64-bit integers `serde_json` takes for a float is the parameter
  `inRange`.
-/

namespace Nullxes

namespace NxNotif

open Serde

/-- `HISTORY_CAP`. -/
def historyCap : ℕ := 1048576

/-- How many records are kept in memory, and replayed into a new file. -/
def historyKept : ℕ := 256

/-! ## Records -/

/-- `Record`. -/
structure Record where
  id : UInt32
  app : String
  summary : String
  body : String
  urgency : UInt8
  received : UInt64
  deriving DecidableEq, Repr

namespace Record

/-- The record of a notification, received at this time. -/
def of (n : Notif) (received : UInt64) : Record where
  id := n.id
  app := n.appName
  summary := n.summary
  body := n.body
  urgency := match n.urgency with
    | .low => 0
    | .normal => 1
    | .critical => 2
  received := received

def serialize (r : Record) : Json :=
  .obj [("id", .num (.unsigned (UInt64.ofNat r.id.toNat))), ("app", .str r.app),
    ("summary", .str r.summary), ("body", .str r.body),
    ("urgency", .num (.unsigned (UInt64.ofNat r.urgency.toNat))),
    ("received", .num (.unsigned r.received))]

/-- By field name, or in the order of the fields. -/
def deserialize : Json → Option Record
  | .obj ms => do
    let id ← field "id" uint32 ms
    let app ← field "app" string ms
    let summary ← field "summary" string ms
    let body ← field "body" string ms
    let urgency ← field "urgency" uint8 ms
    let received ← field "received" uint64 ms
    some ⟨id, app, summary, body, urgency, received⟩
  | .arr [id, app, summary, body, urgency, received] => do
    let id ← uint32 id
    let app ← string app
    let summary ← string summary
    let body ← string body
    let urgency ← uint8 urgency
    let received ← uint64 received
    some ⟨id, app, summary, body, urgency, received⟩
  | _ => none

/-- `serde_json::to_string`. -/
def text (r : Record) : List Char := r.serialize.text

/-- `serde_json::from_str`. -/
def fromStr (inRange : List Char → Bool) (cs : List Char) : Option Record :=
  (Json.parse inRange cs).bind deserialize

end Record

/-! ## Lines of a file -/

/-- What `BufRead::lines` takes off a line: its line feed, and a carriage return before that. -/
def chop (cs : List Char) : List Char :=
  if cs.getLast? = some '\n' then
    let cs := cs.dropLast
    if cs.getLast? = some '\r' then cs.dropLast else cs
  else cs

/-- `BufRead::lines`, without the lines that are not UTF-8. -/
def lines (bytes : List UInt8) : List (List Char) :=
  (Lines.lines 0x0a bytes).filterMap fun l => (Utf8.decode l).map chop

/-- A text with a line feed after it, as bytes. -/
def lineOf (cs : List Char) : List UInt8 := Utf8.encode (cs ++ ['\n'])

/-! ## The history -/

/-- `notifications.json`, and `notifications.json.0` if it is there. -/
structure Files where
  current : List UInt8
  rotation : Option (List UInt8)
  deriving DecidableEq, Repr

/-- `History`. -/
structure History where
  files : Files
  cached : List Record
  deriving DecidableEq, Repr

namespace History

variable (h : History)

/-- `write_all` on the file. -/
def write (bytes : List UInt8) : History :=
  { h with files := { h.files with current := h.files.current ++ bytes } }

/-- `rotate`: the file is renamed, and its last lines are replayed into a new one. -/
def rotate : History :=
  let rotation := h.files.current
  ((lines rotation).reverse.take historyKept).reverse.foldl (fun h line => h.write (lineOf line))
    { h with files := ⟨[], some rotation⟩ }

/-- `append`. -/
def append (n : Notif) (received : UInt64) : History :=
  let record := Record.of n received
  let h := h.write (lineOf record.text)
  let h := if historyCap < h.files.current.length then h.rotate else h
  let cached := h.cached ++ [record]
  { h with
    cached := if historyKept < cached.length then cached.drop (cached.length - historyKept)
      else cached }

variable (inRange : List Char → Bool)

/-- A line that `open_or_create` reads. -/
def load (cached : List Record) (line : List Char) : List Record :=
  match Record.fromStr inRange line with
  | some record =>
    let cached := cached ++ [record]
    if historyKept < cached.length then cached.tail else cached
  | none => cached

/-- `open_or_create`. -/
def openOrCreate (files : Files) : History :=
  ⟨files, (lines files.current).foldl (load inRange) []⟩

end History

end NxNotif

end Nullxes
