import Nullxes.Ipc.RoundTrip
import Nullxes.Library.Calls
import Nullxes.Library.EventMachine

/-!
# The control server

`ipc_server.rs`: `accept_loop` starts a `client_loop` for every client, which reads a line, answers
it, and only then reads the next. A request goes through `dispatch`: a command with a one-shot reply
into the channel of the main loop, which executes it in `handle_request_on_main`. The clients write
and hang up as they like, the tasks run in any order, and what else the main loop does is left open.

A task yields where it awaits, so a step is what happens between two `await`s. The lines read and
the envelopes made so far are kept beside the code's own state; nothing depends on them.
-/

namespace Nullxes

namespace Ipc

open Nullxes.Frame

namespace Reader

variable (rd : Reader)

/-- The `match` of `client_loop`: the response to a line, or the request to dispatch. -/
def interpret (line : List Char) : Except Response Request :=
  match rd.fromStr line with
  | .error e => .error (.err (.invalidRequest ("decode: " ++ e)))
  | .ok env =>
    if env.v ≠ protocolVersion then .error (.err (.versionMismatch [protocolVersion]))
    else
      match env.direction with
      | .request req => .ok req
      | .response _ => .error (.err (.invalidRequest "response on request socket"))

/-- The `id` of the response to a line. -/
def correlationId (line : List Char) : UInt64 :=
  match rd.fromStr line with
  | .ok e => e.id
  | .error _ => 0

end Reader

/-! ## One connection -/

/-- Where a `client_loop` awaits. -/
inductive Task
  /-- In `read_line`. -/
  | reading
  /-- In `dispatch`, for this reply; `line` is the line it read. -/
  | waiting (line : List Char) (call : ℕ)
  /-- In `write_all`, with these bytes to go. -/
  | writing (bytes : List UInt8)
  /-- It has returned, and the stream is closed. -/
  | done
  deriving DecidableEq, Repr

/-- A client's socket and its `client_loop`. -/
structure Connection where
  /-- Everything the client has written. -/
  sent : List UInt8
  /-- What of it has not been read. -/
  inbox : List UInt8
  /-- The client writes no more. -/
  shut : Bool
  /-- The client is gone. -/
  closed : Bool
  task : Task
  /-- Everything written to the client. -/
  outbox : List UInt8
  /-- The lines read so far. -/
  received : List (List Char)
  /-- The envelopes made in answer to them. -/
  answered : List Envelope
  deriving DecidableEq, Repr

/-- The channel from the `client_loop`s to the main loop. A call is made by the number of a
connection for the number of a line on it. -/
abbrev Channel := Calls.State (ℕ × ℕ) Request Response

namespace Connection

/-- A client has connected. -/
def accepted : Connection := ⟨[], [], false, false, .reading, [], [], []⟩

variable (rd : Reader) (conn : Connection)

/-- The rest of the loop's body once there is a response: the envelope, then `write_all`. -/
def respond (line : List Char) (response : Response) : Connection :=
  let out := Envelope.response (rd.correlationId line) response
  { conn with task := .writing out.toLine, answered := conn.answered ++ [out] }

/-- `client_loop` from a line that can be read to its next `await`. -/
def readLine (c : ℕ) (ch : Channel) : Channel × Connection :=
  let (line, rest) := Lines.nextLine 0x0a conn.inbox
  if line = [] then (ch, { conn with task := .done })
  else
    match Utf8.decode line with
    | none => (ch, { conn with task := .done })
    | some text =>
      let caller := (c, conn.received.length)
      let conn := { conn with inbox := rest, received := conn.received ++ [text] }
      match rd.interpret text with
      | .error response => (ch, conn.respond rd text response)
      | .ok req =>
        if ch.listening then
          (ch.enqueue caller req, { conn with task := .waiting text ch.calls.length })
        else (ch, conn.respond rd text (.err (.internal "compositor not listening")))

/-- `client_loop` from the end of `dispatch` to its next `await`. -/
def resume (ch : Channel) : Connection :=
  match conn.task with
  | .waiting line call =>
    match ch.calls[call]?.map Calls.Call.reply with
    | some (.sent response) => conn.respond rd line response
    | some .dropped => conn.respond rd line (.err (.internal "compositor dropped reply channel"))
    | _ => conn
  | _ => conn

/-- `write_all` writes some bytes, and the loop goes on when none are left. -/
def write (n : ℕ) : Connection :=
  match conn.task with
  | .writing bytes =>
    { conn with
      task := if bytes.length ≤ n then .reading else .writing (bytes.drop n)
      outbox := conn.outbox ++ bytes.take n }
  | _ => conn

end Connection

/-! ## The server -/

/-- The connections in the order they were accepted, the channel, and the compositor. -/
structure Server where
  conns : List Connection
  channel : Channel
  state : NullxesState

/-- What happens on a connection. -/
inductive ConnEvent
  /-- The client writes some bytes. -/
  | send (bytes : List UInt8)
  /-- The client shuts its sending side. -/
  | shutdown
  /-- The client is gone. -/
  | hangup
  | readLine
  | readError
  | resume
  | write (n : ℕ)
  | writeError
  deriving DecidableEq, Repr

inductive Event
  | accept
  | conn (c : ℕ) (e : ConnEvent)
  /-- The main loop takes a command; `disk` is what it finds if it loads the configuration. -/
  | serve (disk : FrameConfig)
  /-- The main loop does anything else. -/
  | other (state : NullxesState)
  /-- The main loop ends and its event sources are dropped. -/
  | stop

namespace Connection

variable (rd : Reader) (conn : Connection)

/-- What can happen on a connection. A stream that the server has closed takes no more bytes, and
only a client that is gone makes reading or writing fail. -/
def Enabled (ch : Channel) : ConnEvent → Prop
  | .send _ => conn.shut = false ∧ conn.task ≠ .done
  | .shutdown => conn.shut = false
  | .hangup => conn.closed = false
  | .readLine => conn.task = .reading ∧ (0x0a ∈ conn.inbox ∨ conn.shut = true)
  | .readError => conn.task = .reading ∧ conn.closed = true
  | .resume =>
    match conn.task with
    | .waiting _ call => ∃ c ∈ ch.calls[call]?, c.reply ≠ .pending
    | _ => False
  | .write n =>
    match conn.task with
    | .writing bytes => 0 < n ∧ n ≤ bytes.length ∧ conn.closed = false
    | _ => False
  | .writeError =>
    match conn.task with
    | .writing _ => conn.closed = true
    | _ => False

instance (ch : Channel) (e : ConnEvent) : Decidable (conn.Enabled ch e) := by
  cases e <;> simp only [Enabled] <;> first | infer_instance | (split <;> infer_instance)

/-- A connection and the channel after an event on it. -/
def step (c : ℕ) (ch : Channel) : ConnEvent → Channel × Connection
  | .send bytes => (ch, { conn with sent := conn.sent ++ bytes, inbox := conn.inbox ++ bytes })
  | .shutdown => (ch, { conn with shut := true })
  | .hangup => (ch, { conn with shut := true, closed := true })
  | .readLine => conn.readLine rd c ch
  | .readError => (ch, { conn with task := .done })
  | .resume => (ch, conn.resume rd ch)
  | .write n => (ch, conn.write n)
  | .writeError => (ch, { conn with task := .done })

end Connection

namespace Server

variable (rd : Reader) (s : Server)

/-- `start`, before any client. -/
def start (state : NullxesState) : Server := ⟨[], .initial, state⟩

/-- The closure on the main loop: `handle_request_on_main`, then `respond.send`. -/
def serve (disk : FrameConfig) : Server :=
  match s.channel.queue with
  | [] => s
  | cmd :: _ =>
    let (state, response) := s.state.handleRequestOnMain cmd.request disk
    { s with state := state, channel := s.channel.serve response }

def Enabled : Event → Prop
  | .conn c e =>
    match s.conns[c]? with
    | some conn => conn.Enabled s.channel e
    | none => False
  | .serve _ => s.channel.listening = true ∧ s.channel.queue ≠ []
  | .accept | .other _ | .stop => True

instance (e : Event) : Decidable (s.Enabled e) := by
  cases e <;> simp only [Enabled] <;> first | infer_instance | (split <;> infer_instance)

def step : Event → Server
  | .accept => { s with conns := s.conns ++ [.accepted] }
  | .conn c e =>
    match s.conns[c]? with
    | some conn =>
      let (channel, conn) := conn.step rd c s.channel e
      { s with conns := s.conns.set c conn, channel := channel }
    | none => s
  | .serve disk => s.serve disk
  | .other state => { s with state := state }
  | .stop => { s with channel := s.channel.close }

end Server

/-- The server with its clients. -/
def server (rd : Reader) : EventMachine Server Event where
  Init s := ∃ state, s = .start state
  Enabled s e := s.Enabled e
  step s e := s.step rd e

@[simp] theorem server_enabled (rd : Reader) (s : Server) (e : Event) :
    (server rd).Enabled s e ↔ s.Enabled e := Iff.rfl

@[simp] theorem server_step (rd : Reader) (s : Server) (e : Event) :
    (server rd).step s e = s.step rd e := rfl

/-- A reader that takes every number and gives no reasons. -/
def Reader.lax : Reader := ⟨fun _ => true, fun _ => ""⟩

/-- The server of a compositor with one output and the default configuration. -/
def Server.desktop : Server := .start (.new {} [(1920, 1080)] true)

theorem init_desktop (rd : Reader) : (server rd).Init .desktop := ⟨_, rfl⟩

end Ipc

end Nullxes
