import Nullxes.Frame.Indices
import Nullxes.Ipc.Client
import Nullxes.Ipc.Discipline
import Nullxes.Library.JsonPrefix

/-!
# Clients and server

`Client::request` of `client.rs` at one end of a connection, `client_loop` of `ipc_server.rs` at the
other, and the main loop behind it, among any number of such clients and of other programs, which
write what they like. Here the bytes of a line travel in pieces, and the server is the one of
`ipc_server.rs`, not any that echoes ids.

The client compares no ids, and the server does not look at them. What pairs a call with its
response is that both ends take one line at a time: the call of number `i` on a connection is
answered by the line of number `i`, and that line was made from the one execution of its request.

## Main definitions

* `Caller` — a `Client`, with what it has called and what it was returned
* `System`, `system` — the server with its clients

## Main results

* `served` — every call that returns returns the response of the one execution of its request, or
  that the main loop is gone
-/

namespace Nullxes

namespace Ipc

open Nullxes.Frame

/-! ## The code -/

/-- Where a `Client` awaits. -/
inductive CallTask
  | idle
  /-- In `write_all`, with these bytes to go. -/
  | writing (bytes : List UInt8)
  /-- In `read_line`. -/
  | reading
  /-- It is dropped, and its socket is closed. -/
  | gone
  deriving DecidableEq, Repr

/-- A `Client`. -/
structure Caller where
  /-- `next_id`. -/
  nextId : UInt64
  task : CallTask
  /-- How many bytes it has read. -/
  taken : ℕ
  /-- The calls so far. -/
  calls : List Request
  /-- What they have returned. -/
  returned : List (Except ClientError Response)

inductive CallerEvent
  /-- `request` is called. -/
  | request (req : Request)
  /-- `write_all` writes some bytes. -/
  | write (n : ℕ)
  | writeError
  /-- `read_line` has its line, and the call returns. -/
  | receive
  /-- The client is dropped, whatever it is doing. -/
  | leave
  deriving DecidableEq, Repr

namespace Caller

variable (rd : Reader) (k : Caller) (conn : Connection)

/-- `Client::connect`. -/
def connected : Caller := ⟨1, .idle, 0, [], []⟩

def unwritten : List UInt8 :=
  match k.task with
  | .writing bytes => bytes
  | _ => []

/-- What has come for it. -/
def unread : List UInt8 := conn.outbox.drop k.taken

/-- `Client::request` up to its first wait. -/
def request (req : Request) : Caller :=
  { k with
    nextId := k.nextId + 1
    task := .writing (Envelope.request k.nextId req).toLine
    calls := k.calls ++ [req] }

/-- `write_all` has written some bytes; when none are left, `read_line` begins. -/
def wrote (n : ℕ) : Caller :=
  { k with
    task := if k.unwritten.length ≤ n then .reading else .writing (k.unwritten.drop n) }

def return_ (result : Except ClientError Response) : Caller :=
  { k with task := .idle, returned := k.returned ++ [result] }

/-- `Client::request` from `read_line` on. -/
def receive : Caller :=
  let line := (Lines.nextLine 0x0a (k.unread conn)).1
  { k.return_ (rd.finish line) with taken := k.taken + line.length }

/-- What can happen to a client: writing fails and reading ends when the server has closed the
stream. -/
def Enabled : CallerEvent → Prop
  | .request req => k.task = .idle ∧ req.Fits
  | .write n =>
    0 < n ∧ n ≤ k.unwritten.length ∧ conn.shut = false ∧ conn.task ≠ .done
  | .writeError => k.unwritten ≠ [] ∧ conn.task = .done
  | .receive => k.task = .reading ∧ (0x0a ∈ k.unread conn ∨ conn.task = .done)
  | .leave => k.task ≠ .gone

/-- What it does on its connection, and the client after it. -/
def step : CallerEvent → Option ConnEvent × Caller
  | .request req => (none, k.request req)
  | .write n => (some (.send (k.unwritten.take n)), k.wrote n)
  | .writeError => (none, k.return_ (.error .io))
  | .receive => (none, k.receive rd conn)
  | .leave => (some .hangup, { k with task := .gone })

end Caller

/-- The server, and who is at the other end of each connection: a `Client`, or another program. -/
structure System where
  server : Server
  callers : List (Option Caller)

inductive SystemEvent
  /-- A `Client` connects. -/
  | connect
  /-- Something happens to the client of a connection. -/
  | caller (c : ℕ) (e : CallerEvent)
  /-- Another program connects or does something, or the server does. -/
  | server (e : Event)

end Ipc

namespace Frame

/-- The numbers of a snapshot are `usize`s. -/
def NullxesState.CountsFit (s : NullxesState) : Prop :=
  s.workspaces.count < UInt64.size ∧ s.workspaceMgr.count < UInt64.size

end Frame

namespace Ipc

open Nullxes.Frame

namespace System

variable (rd : Reader) (s : System)

/-- Nobody but its client touches the client's end of a connection. -/
def Leaves : Event → Prop
  | .conn c (.send _) | .conn c .shutdown | .conn c .hangup => s.callers[c]? = some none
  | .other state => state.CountsFit
  | _ => True

def Enabled : SystemEvent → Prop
  | .connect => True
  | .caller c e => ∃ conn k, s.server.conns[c]? = some conn ∧ s.callers[c]? = some (some k) ∧
      k.Enabled conn e
  | .server e => s.server.Enabled e ∧ s.Leaves e

def step : SystemEvent → System
  | .connect => ⟨s.server.step rd .accept, s.callers ++ [some .connected]⟩
  | .caller c e =>
    match s.server.conns[c]?, s.callers[c]? with
    | some conn, some (some k) =>
      let (out, k) := k.step rd conn e
      ⟨match out with
        | some e => s.server.step rd (.conn c e)
        | none => s.server, s.callers.set c (some k)⟩
    | _, _ => s
  | .server .accept => ⟨s.server.step rd .accept, s.callers ++ [none]⟩
  | .server e => { s with server := s.server.step rd e }

end System

/-- The server with its clients. -/
def system (rd : Reader) : EventMachine System SystemEvent where
  Init s := ∃ state : NullxesState, state.CountsFit ∧ s = ⟨.start state, []⟩
  Enabled s e := s.Enabled e
  step s e := s.step rd e

/-! ## The server's end -/

/-- What the server does on a connection: more of everything, and nothing to the client's end. -/
structure Connection.Grows (conn conn' : Connection) : Prop where
  sent : conn'.sent = conn.sent
  shut : conn'.shut = conn.shut
  closed : conn'.closed = conn.closed
  received : conn.received <+: conn'.received
  answered : conn.answered <+: conn'.answered
  outbox : conn.outbox <+: conn'.outbox

namespace Connection

variable {rd : Reader} {conn conn' conn'' : Connection}

theorem Grows.refl (conn : Connection) : conn.Grows conn :=
  ⟨rfl, rfl, rfl, List.prefix_rfl, List.prefix_rfl, List.prefix_rfl⟩

theorem Grows.trans (h : conn.Grows conn') (h' : conn'.Grows conn'') : conn.Grows conn'' :=
  ⟨h'.sent.trans h.sent, h'.shut.trans h.shut, h'.closed.trans h.closed,
    h.received.trans h'.received, h.answered.trans h'.answered, h.outbox.trans h'.outbox⟩

theorem grows_task (conn : Connection) (task : Task) : conn.Grows { conn with task := task } :=
  ⟨rfl, rfl, rfl, List.prefix_rfl, List.prefix_rfl, List.prefix_rfl⟩

theorem grows_took (conn : Connection) (text : List Char) : conn.Grows (conn.took text) :=
  ⟨rfl, rfl, rfl, List.prefix_append _ _, List.prefix_rfl, List.prefix_rfl⟩

theorem grows_respond (rd : Reader) (conn : Connection) (line : List Char) (response : Response) :
    conn.Grows (conn.respond rd line response) :=
  ⟨rfl, rfl, rfl, List.prefix_rfl, List.prefix_append _ _, List.prefix_rfl⟩

theorem grows_write (conn : Connection) (n : ℕ) : conn.Grows (conn.write n) := by
  rw [write]
  split
  · exact ⟨rfl, rfl, rfl, List.prefix_rfl, List.prefix_rfl, List.prefix_append _ _⟩
  · exact .refl conn

theorem grows_resume (rd : Reader) (conn : Connection) (ch : Channel) :
    conn.Grows (conn.resume rd ch) := by
  rw [resume]
  split
  · split
    · exact grows_respond rd conn _ _
    · exact grows_respond rd conn _ _
    · exact .refl conn
  · exact .refl conn

/-- **The server's own events only add to a connection.** -/
theorem grows_step {c : ℕ} {ch : Channel} {e : ConnEvent} (hown : (Event.conn c e).Own)
    (he : conn.Enabled ch e) : conn.Grows (conn.step rd c ch e).2 := by
  cases e with
  | send bytes => cases hown
  | shutdown => cases hown
  | hangup => cases hown
  | readError => exact grows_task conn .done
  | writeError => exact grows_task conn .done
  | write n => exact grows_write conn n
  | resume => exact grows_resume rd conn ch
  | readLine =>
    rcases readLine_cases rd ch c he.2 with
      ⟨-, heq⟩ | ⟨text, -, -, ⟨response, heq, -⟩ | ⟨req, -, -, heq⟩⟩
    · rw [step, heq]
      exact grows_task conn .done
    · rw [step, heq]
      exact (grows_took conn text).trans (grows_respond rd _ _ _)
    · rw [step, heq]
      exact (grows_took conn text).trans (grows_task _ _)

/-- Only the main loop executes anything. -/
theorem executed_step (rd : Reader) (conn : Connection) (c : ℕ) (ch : Channel) (e : ConnEvent) :
    (conn.step rd c ch e).1.executed = ch.executed := by
  cases e with
  | readLine =>
    rw [step, readLine]
    dsimp only
    split
    · rfl
    · split
      · rfl
      · split
        · rfl
        · split <;> rfl
  | _ => rfl

/-- Nothing is written but answers. -/
theorem Inv.outbox_prefix {ch : Channel} {c : ℕ} (h : conn.Inv rd ch c) :
    conn.outbox <+: conn.answers := by
  have ht := h.task
  rw [TaskInv] at ht
  split at ht
  · exact ht.2 ▸ List.prefix_rfl
  · exact ht.2.1 ▸ List.prefix_rfl
  · exact ⟨_, ht.2.1⟩
  · exact ht.2.1

end Connection

/-! ## Responses -/

end Ipc

namespace Frame

namespace NullxesState

variable {s : NullxesState}

theorem count_planMoveFocused (m : WorkspaceManager) (target : ℕ) :
    (m.planMoveFocused target).1.count = m.count := by
  rcases hplan : m.planMoveFocused target with ⟨m', _ | ⟨src, tgt, id⟩⟩
  · have hnone : (m.planMoveFocused target).2 = none := by rw [hplan]
    have hsame := m.planMoveFocused_of_none hnone
    rw [hplan] at hsame
    rw [hsame]
  · obtain ⟨-, -, -, -, -, rfl⟩ := m.planMoveFocused_eq_some_iff.mp hplan
    simp

theorem count_moveFocused (s : NullxesState) (target : ℕ) :
    (s.moveFocused target).1.workspaceMgr.count = s.workspaceMgr.count := by
  have hplan := count_planMoveFocused s.workspaceMgr target
  simp only [moveFocused]
  split
  · rw [moveWindowBetweenWorkspaces]
    split
    · exact hplan
    · split <;> exact hplan
  · exact hplan

/-- No request changes how many workspaces there are. -/
theorem CountsFit.handleRequestOnMain (h : s.CountsFit) (req : Request) (disk : FrameConfig) :
    (s.handleRequestOnMain req disk).1.CountsFit := by
  cases req with
  | switchWorkspace idx =>
    have hcount := s.workspaceMgr.count_switchTo idx
    simp only [NullxesState.handleRequestOnMain]
    split
    · next heq =>
      rw [heq] at hcount
      exact ⟨h.1, hcount ▸ h.2⟩
    · next heq =>
      rw [heq] at hcount
      exact ⟨h.1, hcount ▸ h.2⟩
  | moveFocused target =>
    have hmgr := count_moveFocused s target
    have hmoved : (s.moveFocused target).1.workspaces.count = s.workspaces.count :=
      s.moveFocused_cases (P := fun t => t.workspaces.count = s.workspaces.count) target
        fun _ _ hcount => hcount
    simp only [NullxesState.handleRequestOnMain]
    rcases hr : s.moveFocused target with ⟨s', _ | _⟩ <;> rw [hr] at hmgr hmoved <;>
      exact ⟨hmoved ▸ h.1, hmgr ▸ h.2⟩
  | _ => exact h

/-- What the main loop answers can be written as numbers of 64 bits. -/
theorem CountsFit.fits (h : s.CountsFit) (req : Request) (disk : FrameConfig) :
    (s.handleRequestOnMain req disk).2.Fits := by
  cases req with
  | switchWorkspace idx =>
    simp only [NullxesState.handleRequestOnMain]
    split <;> exact trivial
  | moveFocused target =>
    simp only [NullxesState.handleRequestOnMain]
    split <;> exact trivial
  | getState =>
    refine ⟨h.2, s.workspaceMgr.active_lt.trans h.2, fun i hi => ?_⟩
    exact (s.workspaces.mem_occupied.mp hi).1.trans h.1
  | _ => exact trivial

end NullxesState

end Frame

namespace Ipc

open Nullxes.Frame

theorem Reader.fits_of_interpret (rd : Reader) {line : List Char} {response : Response}
    (h : rd.interpret line = .error response) : response.Fits := by
  rw [interpret] at h
  split at h
  · cases h
    exact trivial
  · split at h
    · cases h
      exact trivial
    · split at h
      · cases h
      · cases h
        exact trivial

/-- An answer fits when what is executed does. -/
theorem Reader.Answered.fits {rd : Reader} {ch : Channel} {caller : ℕ × ℕ} {line : List Char}
    {e : Envelope} (h : rd.Answered ch caller line e) (hs : Calls.Sound ch)
    (hd : Calls.Distinct ch) (hfits : ∀ x ∈ ch.executed, x.response.Fits) :
    ∃ response, e = Envelope.response (rd.correlationId line) response ∧ response.Fits := by
  obtain ⟨response, he, hwhy⟩ := h
  refine ⟨response, he, ?_⟩
  cases hi : rd.interpret line with
  | error r =>
    rw [hi] at hwhy
    obtain ⟨rfl, -⟩ := hwhy
    exact rd.fits_of_interpret hi
  | ok req =>
    rw [hi] at hwhy
    rcases hwhy with ⟨k, hk⟩ | ⟨-, message, rfl⟩
    · have hexec := hs.executions_of_sent hd hk rfl
      exact hfits _ (Calls.mem_executions.mp (hexec ▸ List.mem_singleton_self _)).1
    · exact trivial

/-! ## Lines that are cut off -/

/-- What is read from the beginning of the line of an envelope is that envelope, if anything. -/
theorem Reader.fromStr_prefix (rd : Reader) {e e' : Envelope} (he : e.Fits) {line : List Char}
    (hp : line <+: e.serialize.text ++ ['\n']) (h : rd.fromStr line = .ok e') : e' = e := by
  have hwhole : rd.fromStr (e.serialize.text ++ ['\n']) = .ok e := rd.fromStr_text he
  by_cases hall : trimEnd line = e.serialize.text
  · have htrim : trimEnd (e.serialize.text ++ ['\n']) = e.serialize.text := trimEnd_obj _
    rw [fromStr, htrim] at hwhole
    rw [fromStr, hall, hwhole] at h
    cases h
    rfl
  · have hpart : trimEnd line <+: e.serialize.text := by
      rcases List.prefix_concat_iff.mp hp with rfl | hshort
      · exact absurd (trimEnd_obj _) hall
      · exact (List.rdropWhile_prefix _ _).trans hshort
    have hdepth : e.serialize.depth < Json.depthLimit :=
      Nat.lt_of_le_of_lt e.shallow_serialize.depth_le (by decide)
    have hnone : Json.parse rd.inRange (trimEnd line) = none :=
      Json.parse_prefix e.shallow_serialize.plain hdepth hpart hall
    rw [fromStr, hnone] at h
    cases h

theorem Reader.interpret_prefix (rd : Reader) {id : UInt64} {req req' : Request}
    (he : (Envelope.request id req).Fits) {line : List Char}
    (hp : line <+: (Envelope.request id req).serialize.text ++ ['\n'])
    (h : rd.interpret line = .ok req') : req = req' := by
  rw [interpret] at h
  split at h
  · cases h
  · next e heq =>
    obtain rfl := rd.fromStr_prefix he hp heq
    have hv : (Envelope.request id req).v = protocolVersion := rfl
    rw [if_neg (not_not.mpr hv)] at h
    cases h
    rfl

/-! ## The client's end -/

namespace Caller

variable (rd : Reader) (k : Caller) (conn : Connection)

/-- What its calls write. -/
def envelopes : List Envelope :=
  k.calls.mapIdx fun i req => Envelope.request (UInt64.ofNat (i + 1)) req

/-- The line of the call of a number. -/
def line (i : ℕ) (req : Request) : List Char :=
  (Envelope.request (UInt64.ofNat (i + 1)) req).serialize.text ++ ['\n']

/-- The answers to the calls that have returned. -/
def read : List UInt8 := (conn.answered.take k.returned.length).flatMap Envelope.toLine

/-- How far a client that is there has got. -/
structure Live : Prop where
  shut : conn.shut = false
  closed : conn.closed = false
  /-- The server has not closed the stream. -/
  up : conn.task ≠ .done
  nextId : k.nextId = UInt64.ofNat (k.calls.length + 1)
  whole : conn.sent ++ k.unwritten = k.envelopes.flatMap Envelope.toLine
  returned : k.calls.length = k.returned.length + if k.task = .idle then 0 else 1
  writing : ∀ bytes, k.task = .writing bytes → bytes ≠ []
  taken : k.taken = (k.read conn).length
  read : k.read conn <+: conn.outbox

/-- The invariant of a client: each call that returned returned the response in the answer of its
number. -/
structure Inv : Prop where
  fits : ∀ req ∈ k.calls, req.Fits
  sent : conn.sent <+: k.envelopes.flatMap Envelope.toLine
  returned : ∀ i result, k.returned[i]? = some result → ∃ req id response,
    k.calls[i]? = some req ∧ conn.received[i]? = some (line i req) ∧ result = .ok response ∧
      conn.answered[i]? = some (Envelope.response id response)
  live : k.task ≠ .gone → k.Live conn

variable {rd k conn}

theorem getElem?_envelopes (i : ℕ) : k.envelopes[i]? =
    k.calls[i]?.map (Envelope.request (UInt64.ofNat (i + 1))) := by
  simp [envelopes]

theorem isLine_envelopes : ∀ l ∈ k.envelopes.map Envelope.toLine, Lines.IsLine 0x0a l := by
  intro l hl
  obtain ⟨e, -, rfl⟩ := List.mem_map.mp hl
  exact e.isLine_toLine

/-- A line that comes from a client is one it wrote, whole or cut off. -/
theorem Inv.line (h : k.Inv conn) {i : ℕ} {l : List UInt8}
    (hl : (Lines.lines 0x0a conn.sent)[i]? = some l) :
    ∃ req, k.calls[i]? = some req ∧
      l <+: (Envelope.request (UInt64.ofNat (i + 1)) req).toLine := by
  have hsent := h.sent
  rw [List.flatMap_def] at hsent
  obtain ⟨m, hm, hpre⟩ := Lines.getElem?_lines_prefix isLine_envelopes hsent hl
  rw [List.getElem?_map, getElem?_envelopes] at hm
  cases hcall : k.calls[i]? with
  | none => simp [hcall] at hm
  | some req =>
    refine ⟨req, rfl, ?_⟩
    rw [hcall] at hm
    cases hm
    exact hpre

/-- What is executed for a line of a client is what the call of that number asks for. -/
theorem Inv.interpret (h : k.Inv conn) {ch : Channel} {c i : ℕ} {line : List Char} {req : Request}
    (hb : conn.Base rd ch c) (hline : conn.received[i]? = some line)
    (hi : rd.interpret line = .ok req) : k.calls[i]? = some req := by
  have hl : (Lines.lines 0x0a conn.sent)[i]? = some (Utf8.encode line) := by
    have hlt := (List.getElem?_eq_some_iff.mp hline).1
    rw [hb.lines, List.getElem?_append_left (by simpa using hlt), List.getElem?_map, hline,
      Option.map_some]
  obtain ⟨req', hreq, hpre⟩ := h.line hl
  have hfits : (Envelope.request (UInt64.ofNat (i + 1)) req').Fits :=
    h.fits req' (List.mem_of_getElem? hreq)
  rw [Envelope.toLine_eq] at hpre
  rw [hreq, rd.interpret_prefix hfits (Utf8.isPrefix_of_encode hpre) hi]

/-- The next line of a client can be read. -/
theorem Inv.not_exhausted (h : k.Inv conn) (hl : k.Live conn) {ch : Channel} {c : ℕ}
    (hb : conn.Base rd ch c) : ¬ conn.Exhausted := by
  rintro (⟨-, hshut⟩ | ⟨hready, hd⟩)
  · rw [hl.shut] at hshut
    cases hshut
  have hmem := hready.resolve_right (by simp [hl.shut])
  have hne : conn.inbox ≠ [] := List.ne_nil_of_mem hmem
  have hnext : (Lines.lines 0x0a conn.sent)[conn.received.length]? =
      some (Lines.nextLine 0x0a conn.inbox).1 := by
    rw [hb.lines, List.getElem?_append_right (by simp), List.length_map, Nat.sub_self,
      Lines.lines_eq_nextLine hne]
    rfl
  obtain ⟨req, -, hpre⟩ := h.line hnext
  -- it has its line feed, so it is the whole line
  have hline := (Envelope.request (UInt64.ofNat (conn.received.length + 1)) req).isLine_toLine
  have hwhole := hline.isPrefix (hpre.trans (List.prefix_append _ []))
    (Lines.isLine_nextLine hmem).mem
  rw [hpre.eq_of_length_le hwhole.length_le, Envelope.toLine_eq, Utf8.decode_encode] at hd
  cases hd

/-- The lines read are the first ones the client has written. -/
theorem Live.received_prefix (hl : k.Live conn) {ch : Channel} {c : ℕ}
    (hb : conn.Base rd ch c) :
    conn.received.map Utf8.encode <+: k.envelopes.map Envelope.toLine := by
  obtain ⟨hlines, hsent⟩ := hb.whole hl.shut
  have hlines' : ∀ l ∈ conn.received.map Utf8.encode, Lines.IsLine 0x0a l := by
    intro l hmem
    obtain ⟨line, hline, rfl⟩ := List.mem_map.mp hmem
    exact hlines line hline
  have hflat : (conn.received.map Utf8.encode).flatten <+:
      (k.envelopes.map Envelope.toLine).flatten := by
    rw [← List.flatMap_def (l := k.envelopes), ← hl.whole, hsent, List.append_assoc]
    exact List.prefix_append _ _
  exact Lines.isPrefix_of_flatten hlines' isLine_envelopes hflat

/-- No more lines are read than there are calls. -/
theorem Live.received_le (hl : k.Live conn) {ch : Channel} {c : ℕ} (hb : conn.Base rd ch c) :
    conn.received.length + (if k.unwritten = [] then 0 else 1) ≤ k.calls.length := by
  have hpre := hl.received_prefix hb
  have hle : conn.received.length ≤ k.calls.length := by
    simpa [envelopes] using hpre.length_le
  split
  · exact hle
  · next hne =>
    refine Nat.lt_of_le_of_ne hle fun heq => hne ?_
    have hall : conn.received.map Utf8.encode = k.envelopes.map Envelope.toLine :=
      hpre.eq_of_length (by simp [envelopes, heq])
    have hwhole := hl.whole
    rw [(hb.whole hl.shut).2, hall, List.flatMap_def, List.append_assoc] at hwhole
    exact (List.append_eq_nil_iff.mp (List.append_right_eq_self.mp hwhole)).2

/-- When everything is written and no whole line is left, every line has been read. -/
theorem Live.length_received (hl : k.Live conn) {ch : Channel} {c : ℕ} (hb : conn.Base rd ch c)
    (hnone : k.unwritten = []) (hquiet : 0x0a ∉ conn.inbox) :
    conn.received.length = k.calls.length := by
  obtain ⟨more, hmore⟩ := hl.received_prefix hb
  have hinbox : conn.inbox = more.flatten := by
    have hwhole := hl.whole
    rw [hnone, List.append_nil, (hb.whole hl.shut).2, List.flatMap_def, ← hmore,
      List.flatten_append] at hwhole
    exact List.append_cancel_left hwhole
  cases more with
  | nil =>
    have hlen := congrArg List.length hmore
    simpa [envelopes] using hlen
  | cons l more =>
    have hline := isLine_envelopes (k := k) l (hmore ▸ by simp)
    exact absurd (hinbox ▸ List.mem_append_left _ hline.mem) hquiet

/-- A line that has been read is the line of its call. -/
theorem Live.received_eq (hl : k.Live conn) {ch : Channel} {c : ℕ} (hb : conn.Base rd ch c)
    {i : ℕ} (hi : i < conn.received.length) :
    ∃ req, k.calls[i]? = some req ∧ conn.received[i]? = some (line i req) := by
  have hpre := List.prefix_iff_getElem?.mp (hl.received_prefix hb) i (by simpa using hi)
  rw [List.getElem_map, List.getElem?_map, getElem?_envelopes] at hpre
  cases hcall : k.calls[i]? with
  | none => simp [hcall] at hpre
  | some req =>
    refine ⟨req, rfl, ?_⟩
    rw [hcall, Option.map_some, Option.map_some, Option.some.injEq, Envelope.toLine_eq] at hpre
    have hdecode := congrArg Utf8.decode hpre
    rw [Utf8.decode_encode, Utf8.decode_encode, Option.some.injEq] at hdecode
    rw [List.getElem?_eq_getElem hi, line, hdecode]

theorem interpret_line (rd : Reader) {i : ℕ} {req : Request} (h : req.Fits) :
    rd.interpret (line i req) = .ok req := by
  have hfits : (Envelope.request (UInt64.ofNat (i + 1)) req).Fits := h
  rw [Reader.interpret, line, rd.fromStr_text hfits]
  rfl

/-! ### What the server does -/

theorem Inv.length_returned_le (h : k.Inv conn) : k.returned.length ≤ conn.answered.length := by
  by_contra hlt
  have hpos : conn.answered.length < k.returned.length := by omega
  obtain ⟨_, _, _, -, -, -, hans⟩ :=
    h.returned conn.answered.length _ (List.getElem?_eq_getElem hpos)
  exact absurd (List.getElem?_eq_some_iff.mp hans).1 (Nat.lt_irrefl _)

theorem read_eq_of_grows {conn' : Connection} (h : k.Inv conn) (hg : conn.Grows conn') :
    k.read conn' = k.read conn := by
  have hle := h.length_returned_le
  obtain ⟨more, hmore⟩ := hg.answered
  rw [read, read, ← hmore, List.take_append_of_le_length hle]

/-- What the server does is none of the client's business. -/
theorem Inv.grows {conn' : Connection} (h : k.Inv conn) (hg : conn.Grows conn')
    (hup : k.task ≠ .gone → conn'.task ≠ .done) : k.Inv conn' where
  fits := h.fits
  sent := hg.sent ▸ h.sent
  returned i result hi := by
    obtain ⟨req, id, response, hreq, hline, hok, hans⟩ := h.returned i result hi
    obtain ⟨more, hmore⟩ := hg.answered
    obtain ⟨lines, hlines⟩ := hg.received
    refine ⟨req, id, response, hreq, ?_, hok, ?_⟩
    · rw [← hlines, List.getElem?_append_left (List.getElem?_eq_some_iff.mp hline).1, hline]
    · rw [← hmore, List.getElem?_append_left (List.getElem?_eq_some_iff.mp hans).1, hans]
  live hlive := by
    have hl := h.live hlive
    have hread := read_eq_of_grows h hg
    exact ⟨hg.shut.trans hl.shut, hg.closed.trans hl.closed, hup hlive, hl.nextId,
      hg.sent ▸ hl.whole, hl.returned, hl.writing, hread ▸ hl.taken,
      hread ▸ hl.read.trans hg.outbox⟩

/-- The server's own events do not close the stream of a client that is there. -/
theorem Inv.up_step (h : k.Inv conn) (hlive : k.task ≠ .gone) {ch : Channel} {c : ℕ}
    (hb : conn.Base rd ch c) {e : ConnEvent} (hown : (Event.conn c e).Own)
    (he : conn.Enabled ch e) : (conn.step rd c ch e).2.task ≠ .done := by
  have hl := h.live hlive
  have hopen : conn.closed ≠ true := by simp [hl.closed]
  cases e with
  | send bytes => cases hown
  | shutdown => cases hown
  | hangup => cases hown
  | readError => exact absurd he.2 hopen
  | writeError =>
    rw [Connection.Enabled] at he
    split at he
    · exact absurd he hopen
    · cases he
  | write n =>
    rw [Connection.step, Connection.write]
    split
    · dsimp only
      split <;> simp
    · exact hl.up
  | resume =>
    rw [Connection.step, Connection.resume]
    split
    · split
      · simp [Connection.respond]
      · simp [Connection.respond]
      · exact hl.up
    · exact hl.up
  | readLine =>
    rcases Connection.readLine_cases rd ch c he.2 with
      ⟨hend, -⟩ | ⟨text, -, -, ⟨response, heq, -⟩ | ⟨req, -, -, heq⟩⟩
    · exact absurd hend (h.not_exhausted hl hb)
    · rw [Connection.step, heq]
      simp [Connection.respond]
    · rw [Connection.step, heq]
      simp

/-! ### What the client does -/

theorem inv_connected : connected.Inv .accepted where
  fits _ h := nomatch h
  sent := List.prefix_rfl
  returned _ _ h := by cases h
  live _ := ⟨rfl, rfl, nofun, rfl, rfl, rfl, nofun, rfl, List.prefix_rfl⟩

theorem unwritten_eq_nil (h : ∀ bytes, k.task ≠ .writing bytes) : k.unwritten = [] := by
  rw [unwritten]
  split
  · next bytes htask => exact absurd htask (h bytes)
  · rfl

theorem envelopes_request (req : Request) : (k.request req).envelopes =
    k.envelopes ++ [Envelope.request (UInt64.ofNat (k.calls.length + 1)) req] := by
  simp [envelopes, Caller.request, List.mapIdx_concat]

theorem Inv.request (h : k.Inv conn) {req : Request} (he : k.Enabled conn (.request req)) :
    (k.request req).Inv conn := by
  obtain ⟨hidle, hfits⟩ := he
  have hl := h.live (by simp [hidle])
  have hnone : k.unwritten = [] := unwritten_eq_nil (by simp [hidle])
  have hwhole := hl.whole
  rw [hnone, List.append_nil] at hwhole
  have hcounted := hl.returned
  rw [if_pos hidle] at hcounted
  refine ⟨?_, ?_, fun i result hi => ?_, fun _ => ?_⟩
  · intro r hr
    rcases List.mem_append.mp hr with hold | hnew
    · exact h.fits r hold
    · exact List.mem_singleton.mp hnew ▸ hfits
  · rw [envelopes_request, List.flatMap_append]
    exact h.sent.trans (List.prefix_append _ _)
  · obtain ⟨r, id, response, hr, hrest⟩ := h.returned i result hi
    exact ⟨r, id, response, EventMachine.getElem?_concat_eq_some.mpr (.inl hr), hrest⟩
  · refine ⟨hl.shut, hl.closed, hl.up, ?_, ?_, ?_, ?_, hl.taken, hl.read⟩
    · simp [Caller.request, hl.nextId]
    · rw [envelopes_request, List.flatMap_append, ← hwhole, ← hl.nextId]
      simp [Caller.request, unwritten]
    · simp [Caller.request, hcounted]
    · rintro _ ⟨⟩
      exact (Envelope.isLine_toLine _).ne_nil

theorem unwritten_wrote (n : ℕ) : (k.wrote n).unwritten = k.unwritten.drop n := by
  rw [unwritten, wrote]
  split
  · next bytes htask =>
    dsimp only at htask
    split at htask
    · cases htask
    · cases htask
      rfl
  · next hno =>
    by_cases hn : k.unwritten.length ≤ n
    · rw [List.drop_eq_nil_of_le hn]
    · exact absurd (by simp [hn]) (hno (k.unwritten.drop n))

theorem Inv.wrote (h : k.Inv conn) {n : ℕ} (he : k.Enabled conn (.write n)) :
    (k.wrote n).Inv { conn with
      sent := conn.sent ++ k.unwritten.take n
      inbox := conn.inbox ++ k.unwritten.take n } := by
  obtain ⟨hpos, hle, -, -⟩ := he
  obtain ⟨bytes, htask⟩ : ∃ bytes, k.task = .writing bytes := by
    by_contra hno
    rw [unwritten_eq_nil fun bytes htask => hno ⟨bytes, htask⟩] at hle
    simp only [List.length_nil] at hle
    omega
  have hl := h.live (by simp [htask])
  have hwhole : conn.sent ++ k.unwritten.take n ++ k.unwritten.drop n =
      k.envelopes.flatMap Envelope.toLine := by
    rw [List.append_assoc, List.take_append_drop]
    exact hl.whole
  refine ⟨h.fits, ⟨_, hwhole⟩, h.returned, fun _ => ?_⟩
  refine ⟨hl.shut, hl.closed, hl.up, hl.nextId, ?_, ?_, ?_, hl.taken, hl.read⟩
  · rw [unwritten_wrote]
    exact hwhole
  · have hcounted := hl.returned
    rw [if_neg (by simp [htask])] at hcounted
    rw [if_neg]
    · exact hcounted
    · rw [Caller.wrote]
      dsimp only
      split <;> simp
  · intro rest hrest
    rw [Caller.wrote] at hrest
    dsimp only at hrest
    split at hrest
    · cases hrest
    · cases hrest
      simpa using Nat.lt_of_not_le ‹_›

/-- What has come for a call is its answer, once there is all of it. -/
theorem Inv.unread_eq (h : k.Inv conn) (hreading : k.task = .reading) {ch : Channel} {c : ℕ}
    (hc : conn.Inv rd ch c) (hmem : 0x0a ∈ k.unread conn) :
    ∃ e, conn.answered[k.returned.length]? = some e ∧ k.unread conn = e.toLine ∧
      conn.answered.length = k.returned.length + 1 := by
  have hl := h.live (by simp [hreading])
  have hcalls := hl.returned
  rw [if_neg (by simp [hreading])] at hcalls
  have hanswered : conn.answered.length ≤ k.returned.length + 1 := by
    have hreceived := hl.received_le hc.toBase
    have hle := hc.task.answered_le
    omega
  have hout : conn.outbox <+: k.read conn ++
      (conn.answered.drop k.returned.length).flatMap Envelope.toLine := by
    rw [read, ← List.flatMap_append, List.take_append_drop]
    exact hc.outbox_prefix
  obtain ⟨rest, hrest⟩ := hl.read
  have hunread : k.unread conn = rest := by
    rw [unread, hl.taken, ← hrest, List.drop_left]
  rw [← hrest, List.prefix_append_right_inj] at hout
  rw [hunread] at hmem ⊢
  have hlt : k.returned.length < conn.answered.length := by
    by_contra hge
    rw [List.drop_eq_nil_of_le (Nat.le_of_not_lt hge)] at hout
    rw [List.prefix_nil.mp hout] at hmem
    cases hmem
  have hlast : conn.answered.drop k.returned.length = [conn.answered[k.returned.length]] := by
    rw [List.drop_eq_getElem_cons hlt, List.drop_eq_nil_of_le (by omega)]
  rw [hlast, List.flatMap_cons, List.flatMap_nil, List.append_nil] at hout
  refine ⟨_, List.getElem?_eq_getElem hlt, ?_, by omega⟩
  have hline := (conn.answered[k.returned.length]).isLine_toLine
  exact hout.eq_of_length_le
    (hline.isPrefix (hout.trans (List.prefix_append _ [])) hmem).length_le

theorem Inv.receive (h : k.Inv conn) (he : k.Enabled conn .receive) {ch : Channel} {c : ℕ}
    (hc : conn.Inv rd ch c) (hfits : ∀ e ∈ conn.answered, ∃ id response,
      e = Envelope.response id response ∧ response.Fits) :
    (k.receive rd conn).Inv conn := by
  obtain ⟨hreading, hready⟩ := he
  have hl := h.live (by simp [hreading])
  have hmem := hready.resolve_right hl.up
  obtain ⟨e, hans, hunread, hlen⟩ := h.unread_eq hreading hc hmem
  obtain ⟨id, response, rfl, hresponse⟩ := hfits e (List.mem_of_getElem? hans)
  have hnext := Lines.nextLine_isLine (Envelope.isLine_toLine (.response id response))
  have hcalls := hl.returned
  rw [if_neg (by simp [hreading])] at hcalls
  have hkeep : k.receive rd conn = { k.return_ (.ok response) with
      taken := k.taken + (Envelope.response id response).toLine.length } := by
    have hfinish : rd.finish (Envelope.response id response).toLine = .ok response :=
      rd.finish_toLine hresponse
    rw [Caller.receive, hunread, hnext]
    dsimp only
    rw [← hfinish]
  have hread : (k.receive rd conn).read conn =
      k.read conn ++ (Envelope.response id response).toLine := by
    rw [hkeep, read, read, return_]
    dsimp only
    rw [List.length_append, List.length_singleton, List.take_add_one, hans, List.flatMap_append]
    simp
  refine ⟨?_, ?_, fun i result hi => ?_, fun _ => ?_⟩
  · rw [hkeep]
    exact h.fits
  · rw [hkeep]
    exact h.sent
  · rw [hkeep] at hi ⊢
    rcases EventMachine.getElem?_concat_eq_some.mp hi with hold | ⟨rfl, rfl⟩
    · exact h.returned i result hold
    · have hlt : k.returned.length < conn.received.length := by
        have hle := hc.task.answered_le
        omega
      obtain ⟨req, hreq, hline⟩ := hl.received_eq hc.toBase hlt
      exact ⟨req, id, response, hreq, hline, rfl, hans⟩
  · refine ⟨hl.shut, hl.closed, hl.up, ?_, ?_, ?_, ?_, ?_, ?_⟩
    · rw [hkeep]
      exact hl.nextId
    · have hnone : k.unwritten = [] := unwritten_eq_nil (by simp [hreading])
      have hwhole := hl.whole
      rw [hnone] at hwhole
      rw [hkeep]
      exact hwhole
    · rw [hkeep]
      simp [return_, hcalls]
    · rw [hkeep]
      exact nofun
    · rw [hread, hkeep, List.length_append, ← hl.taken]
    · rw [hread, ← hunread, unread, hl.taken]
      obtain ⟨rest, hrest⟩ := hl.read
      rw [← hrest, List.drop_left]

/-- The client goes; what it was returned it was returned. -/
theorem Inv.leave (h : k.Inv conn) :
    Caller.Inv { k with task := .gone } { conn with shut := true, closed := true } :=
  ⟨h.fits, h.sent, h.returned, fun hlive => absurd rfl hlive⟩

end Caller

/-! ## The whole -/

namespace System

variable (rd : Reader) (s : System)

/-- The invariant of the server and of each of its clients. -/
structure Inv : Prop where
  server : s.server.Inv rd
  counts : s.server.state.CountsFit
  executed : ∀ x ∈ s.server.channel.executed, ∃ state : NullxesState, state.CountsFit ∧
    ∃ disk, x.response = (state.handleRequestOnMain x.request disk).2
  length : s.callers.length = s.server.conns.length
  callers : ∀ (c : ℕ) conn k, s.server.conns[c]? = some conn → s.callers[c]? = some (some k) →
    k.Inv conn

variable {rd s}

theorem inv_start {state : NullxesState} (h : state.CountsFit) :
    Inv rd ⟨.start state, []⟩ where
  server := Server.inv_start state
  counts := h
  executed _ hx := nomatch hx
  length := rfl
  callers _ _ _ hc := by cases hc

namespace Inv

/-- The envelopes of a connection are responses that can be read. -/
theorem answered (h : s.Inv rd) {c : ℕ} {conn : Connection}
    (hc : s.server.conns[c]? = some conn) :
    ∀ e ∈ conn.answered, ∃ id response, e = Envelope.response id response ∧ response.Fits := by
  intro e he
  obtain ⟨i, hi⟩ := List.getElem?_of_mem he
  obtain ⟨line, -, hans⟩ := (h.server.conns c conn hc).answered i e hi
  obtain ⟨response, heq, hfits⟩ := hans.fits h.server.sound h.server.distinct fun x hx => by
    obtain ⟨state, hstate, disk, hresponse⟩ := h.executed x hx
    exact hresponse ▸ hstate.fits x.request disk
  exact ⟨_, response, heq, hfits⟩

/-- Somebody connects. -/
theorem accept (h : s.Inv rd) {caller : Option Caller}
    (hk : ∀ k, caller = some k → k = .connected) :
    Inv rd ⟨s.server.step rd .accept, s.callers ++ [caller]⟩ where
  server := h.server.accept
  counts := h.counts
  executed := h.executed
  length := by simp [Server.step, h.length]
  callers c conn k hc hcaller := by
    rcases EventMachine.getElem?_concat_eq_some.mp hc with hold | ⟨rfl, rfl⟩
    · have hlt := (List.getElem?_eq_some_iff.mp hold).1
      rw [List.getElem?_append_left (h.length ▸ hlt)] at hcaller
      exact h.callers c conn k hold hcaller
    · rw [← h.length, List.getElem?_concat_length] at hcaller
      obtain rfl := hk k (Option.some.inj hcaller)
      exact Caller.inv_connected

/-- A client does something that the server does not see. -/
theorem setCaller (h : s.Inv rd) {c : ℕ} {conn : Connection} {k k' : Caller}
    (hc : s.server.conns[c]? = some conn) (hcaller : s.callers[c]? = some (some k))
    (hk : k'.Inv conn) : Inv rd { s with callers := s.callers.set c (some k') } where
  server := h.server
  counts := h.counts
  executed := h.executed
  length := by simp [h.length]
  callers c' conn' k₀ hc' hk₀ := by
    rcases (EventMachine.getElem?_set_eq_some hcaller).mp hk₀ with ⟨rfl, heq⟩ | ⟨-, hold⟩
    · obtain rfl := Option.some.inj (hc.symm.trans hc')
      obtain rfl := Option.some.inj heq
      exact hk
    · exact h.callers c' conn' k₀ hc' hold

/-- A client does something to its connection. -/
theorem setBoth (h : s.Inv rd) {c : ℕ} {conn : Connection} {k k' : Caller} {e : ConnEvent}
    (hc : s.server.conns[c]? = some conn) (hcaller : s.callers[c]? = some (some k))
    (he : conn.Enabled s.server.channel e)
    (hch : (conn.step rd c s.server.channel e).1 = s.server.channel)
    (hk : k'.Inv (conn.step rd c s.server.channel e).2) :
    Inv rd ⟨s.server.step rd (.conn c e), s.callers.set c (some k')⟩ := by
  have henabled : s.server.Enabled (.conn c e) := by
    rw [Server.Enabled, hc]
    exact he
  have hstep : s.server.step rd (.conn c e) = { s.server with
      conns := s.server.conns.set c (conn.step rd c s.server.channel e).2 } := by
    rw [Server.step, hc]
    simp only [hch]
  refine ⟨h.server.step henabled, ?_, ?_, ?_, ?_⟩
  · rw [hstep]
    exact h.counts
  · rw [hstep]
    exact h.executed
  · rw [hstep]
    simp [h.length]
  · rw [hstep]
    intro c' conn' k₀ hc' hk₀
    rcases (EventMachine.getElem?_set_eq_some hcaller).mp hk₀ with ⟨rfl, heq⟩ | ⟨hne, hold⟩
    · rcases (EventMachine.getElem?_set_eq_some hc).mp hc' with ⟨-, rfl⟩ | ⟨hne, -⟩
      · obtain rfl := Option.some.inj heq
        exact hk
      · exact absurd rfl hne
    · rcases (EventMachine.getElem?_set_eq_some hc).mp hc' with ⟨heq, -⟩ | ⟨-, hc'⟩
      · exact absurd heq hne
      · exact h.callers c' conn' k₀ hc' hold

/-- One of the server's connections changes. -/
theorem conn (h : s.Inv rd) {c : ℕ} {e : ConnEvent} (he : s.server.Enabled (.conn c e))
    (hleaves : s.Leaves (.conn c e)) :
    Inv rd { s with server := s.server.step rd (.conn c e) } := by
  obtain ⟨conn, hc⟩ : ∃ conn, s.server.conns[c]? = some conn := by
    rw [Server.Enabled] at he
    split at he
    · exact ⟨_, ‹_›⟩
    · cases he
  have henabled : conn.Enabled s.server.channel e := by
    rwa [Server.Enabled, hc] at he
  have hstep : s.server.step rd (.conn c e) = { s.server with
      conns := s.server.conns.set c (conn.step rd c s.server.channel e).2
      channel := (conn.step rd c s.server.channel e).1 } := by
    rw [Server.step, hc]
  refine ⟨h.server.step he, ?_, ?_, ?_, ?_⟩
  · rw [hstep]
    exact h.counts
  · rw [hstep]
    dsimp only
    rw [conn.executed_step]
    exact h.executed
  · rw [hstep]
    simp [h.length]
  · rw [hstep]
    intro c' conn' k hc' hk
    rcases (EventMachine.getElem?_set_eq_some hc).mp hc' with ⟨rfl, rfl⟩ | ⟨-, hold⟩
    · -- it is not for the server to write or to go in the client's place
      have hown : (Event.conn c' e).Own := by
        cases e with
        | send bytes => simp [Leaves, hk] at hleaves
        | shutdown => simp [Leaves, hk] at hleaves
        | hangup => simp [Leaves, hk] at hleaves
        | _ => trivial
      have hold := h.callers c' conn k hc hk
      exact hold.grows (Connection.grows_step hown henabled) fun hlive =>
        hold.up_step hlive (h.server.conns c' conn hc).toBase hown henabled
    · exact h.callers c' conn' k hold hk

/-- The main loop takes a command. -/
theorem serve (h : s.Inv rd) (disk : FrameConfig) (he : s.server.Enabled (.serve disk)) :
    Inv rd { s with server := s.server.step rd (.serve disk) } := by
  have hserver := h.server.step he
  rw [Server.step, Server.serve] at hserver ⊢
  cases hq : s.server.channel.queue with
  | nil => exact absurd hq he.2
  | cons cmd rest =>
    simp only [hq] at hserver ⊢
    refine ⟨hserver, h.counts.handleRequestOnMain cmd.request disk, fun x hx => ?_, h.length,
      h.callers⟩
    have hmem : x ∈ s.server.channel.executed ++
        [⟨cmd.respond, cmd.request, (s.server.state.handleRequestOnMain cmd.request disk).2⟩] := by
      simpa [Calls.State.serve, hq] using hx
    rcases List.mem_append.mp hmem with hold | hnew
    · exact h.executed x hold
    · rw [List.mem_singleton.mp hnew]
      exact ⟨s.server.state, h.counts, disk, rfl⟩

/-- A client does something. -/
theorem caller (h : s.Inv rd) {c : ℕ} {e : CallerEvent} (he : s.Enabled (.caller c e)) :
    (s.step rd (.caller c e)).Inv rd := by
  obtain ⟨conn, k, hc, hk, he⟩ := he
  have hold := h.callers c conn k hc hk
  have hconn := h.server.conns c conn hc
  rw [System.step, hc, hk]
  cases e with
  | request req => exact h.setCaller hc hk (hold.request he)
  | write n =>
    obtain ⟨hpos, hle, hshut, hup⟩ := id he
    exact h.setBoth hc hk ⟨hshut, hup⟩ rfl (hold.wrote he)
  | writeError =>
    -- the server has not closed the stream
    obtain ⟨hne, hdone⟩ := he
    have hlive : k.task ≠ .gone := by
      intro hgone
      exact hne (Caller.unwritten_eq_nil (by simp [hgone]))
    exact absurd hdone (hold.live hlive).up
  | receive => exact h.setCaller hc hk (hold.receive he hconn (h.answered hc))
  | leave => exact h.setBoth hc hk (hold.live he).closed rfl hold.leave

/-- Whatever happens keeps the invariant. -/
theorem step (h : s.Inv rd) {e : SystemEvent} (he : s.Enabled e) : (s.step rd e).Inv rd := by
  cases e with
  | connect => exact h.accept fun k hk => (Option.some.inj hk).symm
  | caller c e => exact h.caller he
  | server e =>
    obtain ⟨henabled, hleaves⟩ := he
    cases e with
    | accept => exact h.accept nofun
    | conn c e => exact h.conn henabled hleaves
    | serve disk => exact h.serve disk henabled
    | other state => exact ⟨h.server.step henabled, hleaves, h.executed, h.length, h.callers⟩
    | stop => exact ⟨h.server.step henabled, h.counts, h.executed, h.length, h.callers⟩

end Inv

theorem inv_of_reachable (h : (system rd).Reachable s) : s.Inv rd := by
  refine h.invariant ?_ fun _ _ hs he => hs.step he
  rintro _ ⟨state, hstate, rfl⟩
  exact inv_start hstate

end System

namespace System

variable {rd : Reader} {s : System}

theorem length_callers_step (s : System) (e : SystemEvent) :
    s.callers.length ≤ (s.step rd e).callers.length := by
  cases e with
  | connect => simp [System.step]
  | caller c e =>
    rw [System.step]
    split
    · simp
    · exact le_rfl
  | server e =>
    cases e with
    | accept => simp [System.step]
    | _ => exact le_rfl

/-- What happens elsewhere does not touch a client, and it makes no calls by itself. -/
theorem callers_step {c : ℕ} {k : Caller} (hk : s.callers[c]? = some (some k)) {e : SystemEvent}
    (he : s.Enabled e) (hleave : e ≠ .caller c .leave)
    (hrequest : ∀ req, e ≠ .caller c (.request req)) :
    ∃ k', (s.step rd e).callers[c]? = some (some k') ∧ k'.calls = k.calls ∧
      (k.task ≠ .gone → k'.task ≠ .gone) ∧ (k.task = .gone → k' = k) := by
  have hsame : ∀ callers : List (Option Caller), callers[c]? = some (some k) →
      ∃ k', callers[c]? = some (some k') ∧ k'.calls = k.calls ∧
        (k.task ≠ .gone → k'.task ≠ .gone) ∧ (k.task = .gone → k' = k) :=
    fun _ hc => ⟨k, hc, rfl, id, fun _ => rfl⟩
  cases e with
  | connect => exact hsame _ (EventMachine.getElem?_concat_eq_some.mpr (.inl hk))
  | server e =>
    cases e with
    | accept => exact hsame _ (EventMachine.getElem?_concat_eq_some.mpr (.inl hk))
    | _ => exact hsame _ hk
  | caller c' e =>
    obtain ⟨conn, k₀, hc, hk₀, he⟩ := he
    rw [System.step, hc, hk₀]
    by_cases hne : c = c'
    · subst hne
      obtain rfl := Option.some.inj (Option.some.inj (hk.symm.trans hk₀))
      have hself : ∀ k' : Caller, (s.callers.set c (some k'))[c]? = some (some k') := fun k' =>
        (EventMachine.getElem?_set_eq_some hk).mpr (.inl ⟨rfl, rfl⟩)
      cases e with
      | request req => exact absurd rfl (hrequest req)
      | leave => exact absurd rfl hleave
      | write n =>
        refine ⟨_, hself _, rfl, fun _ => ?_, fun hgone => ?_⟩
        · simp only [Caller.step, Caller.wrote]
          split <;> simp
        · have hnone : k.unwritten = [] := Caller.unwritten_eq_nil (by simp [hgone])
          obtain ⟨hpos, hle, -⟩ := he
          rw [hnone, List.length_nil] at hle
          omega
      | writeError =>
        refine ⟨_, hself _, rfl, fun _ => nofun, fun hgone => ?_⟩
        exact absurd (Caller.unwritten_eq_nil (by simp [hgone])) he.1
      | receive =>
        refine ⟨_, hself _, rfl, fun _ => nofun, fun hgone => ?_⟩
        have hreading := he.1
        rw [hgone] at hreading
        cases hreading
    · exact hsame _ ((EventMachine.getElem?_set_eq_some hk₀).mpr (.inr ⟨hne, hk⟩))

end System

/-! ## Coming to rest -/

/-- The server does it, or a client that is in the middle of a call. -/
def SystemEvent.Own : SystemEvent → Prop
  | .caller _ (.write _) | .caller _ .writeError | .caller _ .receive => True
  | .caller _ _ | .connect => False
  | .server e => e.Own

namespace System

variable {rd : Reader} {s : System}

/-- What a client has to write. -/
def unwritten : Option Caller → ℕ
  | some k => k.unwritten.length
  | none => 0

/-- One for a client that waits. -/
def waits : Option Caller → ℕ
  | some k => if k.task = .reading then 1 else 0
  | none => 0

/-- What there is to do, the weightiest first. -/
def work (s : System) : ℕ ×ₗ (ℕ ×ₗ ℕ ×ₗ ℕ) ×ₗ ℕ :=
  toLex ((s.callers.map unwritten).sum, toLex (s.server.work, (s.callers.map waits).sum))

theorem work_lt {t : System}
    (h : (t.callers.map unwritten).sum < (s.callers.map unwritten).sum ∨
      (t.callers.map unwritten).sum = (s.callers.map unwritten).sum ∧
        (t.server.work < s.server.work ∨ t.server.work = s.server.work ∧
          (t.callers.map waits).sum < (s.callers.map waits).sum)) : t.work < s.work := by
  rw [work, work, Prod.Lex.toLex_lt_toLex, Prod.Lex.toLex_lt_toLex]
  exact h

theorem step_work_lt {e : SystemEvent} (hown : e.Own) (he : s.Enabled e) :
    (s.step rd e).work < s.work := by
  cases e with
  | connect => cases hown
  | server e =>
    have hwork : (s.server.step rd e).work < s.server.work := Server.step_work_lt hown he.1
    cases e with
    | accept => cases hown
    | other state => cases hown
    | stop => cases hown
    | conn c e => exact work_lt (.inr ⟨rfl, .inl hwork⟩)
    | serve disk => exact work_lt (.inr ⟨rfl, .inl hwork⟩)
  | caller c e =>
    obtain ⟨conn, k, hc, hk, he⟩ := he
    rw [System.step, hc, hk]
    cases e with
    | request req => cases hown
    | leave => cases hown
    | write n =>
      have hsum := sum_map_set unwritten (some (k.wrote n)) hk
      simp only [unwritten, Caller.unwritten_wrote, List.length_drop] at hsum
      obtain ⟨hpos, hle, -⟩ := he
      refine work_lt (.inl ?_)
      simp only [Caller.step]
      omega
    | writeError =>
      have hsum := sum_map_set unwritten (some (k.return_ (.error .io))) hk
      have hnone : (k.return_ (.error .io)).unwritten = [] := rfl
      have hpos := List.length_pos_of_ne_nil he.1
      simp only [unwritten, hnone, List.length_nil] at hsum
      refine work_lt (.inl ?_)
      simp only [Caller.step]
      omega
    | receive =>
      have hsum := sum_map_set unwritten (some (k.receive rd conn)) hk
      have hwaits := sum_map_set waits (some (k.receive rd conn)) hk
      have hnone : k.unwritten = [] := Caller.unwritten_eq_nil (by simp [he.1])
      have hnone' : (k.receive rd conn).unwritten = [] := rfl
      have hidle : (k.receive rd conn).task = .idle := rfl
      simp only [unwritten, hnone, hnone', waits, he.1, hidle, reduceCtorEq, if_true,
        if_false] at hsum hwaits
      refine work_lt (.inr ⟨?_, .inr ⟨rfl, ?_⟩⟩)
      · simp only [Caller.step]
        omega
      · simp only [Caller.step]
        omega

/-- With no new calls, server and clients stop sooner or later. -/
theorem comes_to_rest (run : ℕ → System) :
    ¬ ∀ n, ∃ e : SystemEvent, e.Own ∧ (run n).Enabled e ∧ run (n + 1) = (run n).step rd e := by
  intro hrun
  obtain ⟨n, hn⟩ := WellFounded.not_rel_apply_succ (r := (· < ·)) fun n => (run n).work
  obtain ⟨e, hown, he, hnext⟩ := hrun n
  refine hn ?_
  rw [hnext]
  exact step_work_lt hown he

end System

/-! ## Calls -/

namespace System

variable (rd : Reader) (s : System)

/-- What a client can count on. -/
structure Served : Prop where
  /-- A call that has returned returned the response of the one execution of its request, or that
  there was none because the main loop is gone. -/
  returned : ∀ (c : ℕ) k, s.callers[c]? = some (some k) → ∀ i result,
    k.returned[i]? = some result → ∃ req response, k.calls[i]? = some req ∧ result = .ok response ∧
      ((∃ call, s.server.channel.executions (c, i) = [⟨call, req, response⟩]) ∨
        s.server.channel.executions (c, i) = [] ∧ ∃ message, response = .err (.internal message))
  /-- Nothing is executed for it but what it has asked for, and that once, also when it was dropped
  in the middle of a line. -/
  executed : ∀ (c : ℕ) k, s.callers[c]? = some (some k) → ∀ i,
    ∀ x ∈ s.server.channel.executions (c, i),
      k.calls[i]? = some x.request ∧ s.server.channel.executions (c, i) = [x]
  /-- What is executed answers as the main loop did. -/
  main : ∀ x ∈ s.server.channel.executed, ∃ (state : NullxesState) (disk : FrameConfig),
    x.response = (state.handleRequestOnMain x.request disk).2
  /-- As long as it is there, the server does not close the stream. -/
  up : ∀ (c : ℕ) conn k, s.server.conns[c]? = some conn → s.callers[c]? = some (some k) →
    k.task ≠ .gone → conn.task ≠ .done

/-- None of their own events can happen. -/
def AtRest : Prop := ∀ e : SystemEvent, e.Own → ¬ s.Enabled e

/-- No client that is there is in the middle of a call. -/
def AllReturned : Prop :=
  ∀ (c : ℕ) k, s.callers[c]? = some (some k) → k.task ≠ .gone →
    k.task = .idle ∧ k.returned.length = k.calls.length

variable {rd s}

theorem Inv.conn_of_caller (h : s.Inv rd) {c : ℕ} {k : Caller}
    (hk : s.callers[c]? = some (some k)) :
    ∃ conn, s.server.conns[c]? = some conn ∧ conn.Inv rd s.server.channel c ∧ k.Inv conn := by
  have hlt := (List.getElem?_eq_some_iff.mp hk).1
  have hc := List.getElem?_eq_getElem (h.length ▸ hlt)
  exact ⟨_, hc, h.server.conns c _ hc, h.callers c _ k hc hk⟩

theorem Inv.callersServed (h : s.Inv rd) : s.Served where
  returned c k hk i result hi := by
    obtain ⟨conn, hc, hconn, hold⟩ := h.conn_of_caller hk
    obtain ⟨req, id, response, hreq, hline, rfl, hans⟩ := hold.returned i result hi
    refine ⟨req, response, hreq, rfl, ?_⟩
    obtain ⟨line, hline', hwhy⟩ := hconn.answered i _ hans
    obtain rfl := Option.some.inj (hline.symm.trans hline')
    obtain ⟨response', heq, hwhy⟩ := hwhy.answers h.server.sound h.server.distinct
    obtain rfl : response = response' := by
      simpa [Envelope.response] using congrArg Envelope.direction heq
    rwa [Caller.interpret_line rd (hold.fits req (List.mem_of_getElem? hreq))] at hwhy
  executed c k hk i x hx := by
    obtain ⟨conn, hc, hconn, hold⟩ := h.conn_of_caller hk
    obtain ⟨hmem, call, hcall, hcaller⟩ := Calls.mem_executions.mp hx
    obtain ⟨call', hcall', hrequest, hsent⟩ := h.server.sound.executed_call x hmem
    obtain rfl := Option.some.inj (hcall.symm.trans hcall')
    obtain ⟨conn', line, hconn', hline, hi⟩ := h.server.made x.call call hcall
    rw [hcaller] at hconn' hline
    obtain rfl := Option.some.inj (hc.symm.trans hconn')
    have honce := h.server.sound.executions_of_sent h.server.distinct hcall hsent
    rw [hcaller, hrequest] at honce
    exact ⟨hrequest ▸ hold.interpret hconn.toBase hline hi, honce⟩
  main x hx := by
    obtain ⟨state, -, disk, hresponse⟩ := h.executed x hx
    exact ⟨state, disk, hresponse⟩
  up c conn k hc hk hlive := ((h.callers c conn k hc hk).live hlive).up

theorem AtRest.server (h : s.AtRest) : s.server.AtRest := by
  intro e hown he
  refine h (.server e) hown ⟨he, ?_⟩
  cases e with
  | accept => cases hown
  | other state => cases hown
  | stop => cases hown
  | serve disk => trivial
  | conn c e =>
    cases e with
    | send bytes => cases hown
    | shutdown => cases hown
    | hangup => cases hown
    | _ => trivial

/-- **No call hangs.** When nothing more happens, every client has its response. -/
theorem Inv.allReturned (h : s.Inv rd) (hrest : s.AtRest) : s.AllReturned := by
  intro c k hk hlive
  obtain ⟨conn, hc, hconn, hold⟩ := h.conn_of_caller hk
  have hl := hold.live hlive
  have hidle : ∀ e, (SystemEvent.caller c e).Own → ¬ k.Enabled conn e := by
    intro e hown he
    exact hrest (.caller c e) hown ⟨conn, k, hc, hk, he⟩
  cases htask : k.task with
  | idle =>
    have hcounted := hl.returned
    rw [if_pos htask] at hcounted
    exact ⟨rfl, hcounted.symm⟩
  | gone => exact absurd htask hlive
  | writing bytes =>
    have hbytes : k.unwritten = bytes := by rw [Caller.unwritten, htask]
    have hpos := List.length_pos_of_ne_nil (hl.writing bytes htask)
    exact absurd ⟨Nat.one_pos, hbytes ▸ hpos, hl.shut, hl.up⟩ (hidle (.write 1) trivial)
  | reading =>
    exfalso
    obtain ⟨hlen, hout, hend⟩ := h.server.allAnswered hrest.server c conn hc hl.closed
    have hnone : k.unwritten = [] := Caller.unwritten_eq_nil (by simp [htask])
    have hquiet := (hend.resolve_left (hold.not_exhausted hl hconn.toBase)).1
    have hcounted := hl.returned
    rw [if_neg (by simp [htask])] at hcounted
    have hreceived := hl.length_received hconn.toBase hnone hquiet
    have hlt : k.returned.length < conn.answered.length := by omega
    have hout' : conn.outbox = k.read conn ++
        (conn.answered.drop k.returned.length).flatMap Envelope.toLine := by
      rw [hout, Caller.read, ← List.flatMap_append, List.take_append_drop, Connection.answers]
    refine hidle .receive trivial ⟨htask, .inl ?_⟩
    rw [Caller.unread, hl.taken, hout', List.drop_left, List.drop_eq_getElem_cons hlt,
      List.flatMap_cons]
    exact List.mem_append_left _ (Envelope.newline_mem_toLine _)

end System

/-- **Every call returns the response of its one execution.** However clients, other programs,
tasks and main loop interleave, a call that returns does so with the response to its own request,
which was executed once, or was not executed at all, and then the response is the internal error of
a main loop that is gone; and with no new calls everything comes to rest, with no call left open. -/
theorem served {rd : Reader} {s : System} (h : (system rd).Reachable s) :
    s.Served ∧ (s.AtRest → s.AllReturned) ∧
      ∀ run : ℕ → System, run 0 = s →
        ¬ ∀ n, ∃ e : SystemEvent, e.Own ∧ (run n).Enabled e ∧ run (n + 1) = (run n).step rd e :=
  have hinv := System.inv_of_reachable h
  ⟨hinv.callersServed, hinv.allReturned, fun run _ => System.comes_to_rest run⟩

/-! ### A run of one call -/

theorem init_system (rd : Reader) : (system rd).Init ⟨.desktop, []⟩ :=
  ⟨_, ⟨by decide, by decide⟩, rfl⟩

/-- The line of a client's first call. -/
def firstLine (req : Request) : List UInt8 := (Envelope.request 1 req).toLine

/-- A client connects, asks, and writes its line. -/
def asking (req : Request) : List SystemEvent :=
  [.connect, .caller 0 (.request req), .caller 0 (.write (firstLine req).length)]

/-- The answer to the call. -/
def answerTo (req : Request) (disk : FrameConfig) : Envelope :=
  .response 1 (Server.desktop.state.handleRequestOnMain req disk).2

/-- The line is read, executed and answered, and the client has its response. -/
def answering (req : Request) (disk : FrameConfig) : List SystemEvent :=
  [.server (.conn 0 .readLine), .server (.serve disk), .server (.conn 0 .resume),
    .server (.conn 0 (.write (answerTo req disk).toLine.length)), .caller 0 .receive]

/-- A call for the state. -/
def oneCall : List SystemEvent := asking .getState ++ answering .getState {}

namespace System

/-- The client waits for its line, and this is what the server has done so far. -/
def calling (req : Request) (conn : Connection) (channel : Channel) (state : NullxesState) :
    System :=
  ⟨⟨[conn], channel, state⟩, [some ⟨2, .reading, 0, [req], []⟩]⟩

/-- The line is written. -/
def asked (req : Request) : System :=
  calling req (.withLine (firstLine req)) .initial Server.desktop.state

/-- The connection when the line is read. -/
def lineRead (req : Request) : Connection :=
  (Connection.withLine (firstLine req)).took (Caller.line 0 req)

/-- The task waits for the main loop. -/
def called (req : Request) : System :=
  calling req { lineRead req with task := .waiting (Caller.line 0 req) 0 }
    (Calls.State.initial.enqueue (0, 0) req) Server.desktop.state

/-- The main loop has answered, and the task is at this. -/
def afterServe (req : Request) (disk : FrameConfig) (conn : Connection) : System :=
  calling req { conn with answered := [answerTo req disk] }
    ((Calls.State.initial.enqueue (0, 0) req).serve
      (Server.desktop.state.handleRequestOnMain req disk).2)
    (Server.desktop.state.handleRequestOnMain req disk).1

/-- The task writes the answer. -/
def woken (req : Request) (disk : FrameConfig) : System :=
  afterServe req disk { lineRead req with task := .writing (answerTo req disk).toLine }

/-- The answer is written. -/
def answered (req : Request) (disk : FrameConfig) : System :=
  afterServe req disk { lineRead req with outbox := (answerTo req disk).toLine }

variable (rd : Reader) {req : Request} (h : req.Fits) (disk : FrameConfig)

theorem run_asking (req : Request) : (system rd).run ⟨.desktop, []⟩ (asking req) = asked req := by
  have hwrote : (Caller.connected.request req).wrote (firstLine req).length =
      ⟨2, .reading, 0, [req], []⟩ := by
    have hle : (Caller.connected.request req).unwritten.length ≤ (firstLine req).length := le_rfl
    rw [Caller.wrote, if_pos hle]
    rfl
  have hrun : (system rd).run ⟨.desktop, []⟩ (asking req) =
      ⟨⟨[.withLine ((firstLine req).take (firstLine req).length)], .initial, Server.desktop.state⟩,
        [some ((Caller.connected.request req).wrote (firstLine req).length)]⟩ := rfl
  rw [hrun, hwrote, List.take_length]
  rfl

include h in
theorem readLine_asked : (asked req).step rd (.server (.conn 0 .readLine)) = called req := by
  have hline : firstLine req = Utf8.encode ((Envelope.request 1 req).serialize.text ++ ['\n']) :=
    Envelope.toLine_eq _
  have hdecode : Utf8.decode (Lines.nextLine 0x0a (Connection.withLine (firstLine req)).inbox).1 =
      some (Caller.line 0 req) := by
    rw [hline, Connection.decode_withLine (Envelope.newline_notMem_text _)]
    rfl
  have hread := Connection.readLine_eq rd .initial 0 hdecode
    (Envelope.isLine_toLine (.request 1 req)).ne_nil
  rw [Caller.interpret_line rd h] at hread
  have hstep : (asked req).step rd (.server (.conn 0 .readLine)) =
      calling req ((Connection.withLine (firstLine req)).readLine rd 0 .initial).2
        ((Connection.withLine (firstLine req)).readLine rd 0 .initial).1 Server.desktop.state := rfl
  rw [hstep, hread]
  rfl

include h in
theorem resume_called :
    ((called req).step rd (.server (.serve disk))).step rd (.server (.conn 0 .resume)) =
      woken req disk := by
  have hfits : (Envelope.request (UInt64.ofNat (0 + 1)) req).Fits := h
  have hid : rd.correlationId (Caller.line 0 req) = 1 := by
    rw [Reader.correlationId, Caller.line, rd.fromStr_text hfits]
    rfl
  have hstep : ((called req).step rd (.server (.serve disk))).step rd (.server (.conn 0 .resume)) =
      calling req ((lineRead req).respond rd (Caller.line 0 req)
          (Server.desktop.state.handleRequestOnMain req disk).2)
        ((Calls.State.initial.enqueue (0, 0) req).serve
          (Server.desktop.state.handleRequestOnMain req disk).2)
        (Server.desktop.state.handleRequestOnMain req disk).1 := rfl
  rw [hstep, Connection.respond, hid]
  rfl

theorem write_woken : (woken req disk).step rd
    (.server (.conn 0 (.write (answerTo req disk).toLine.length))) = answered req disk := by
  have hwrite : ({ lineRead req with
        task := .writing (answerTo req disk).toLine } : Connection).write
        (answerTo req disk).toLine.length =
      { lineRead req with outbox := (answerTo req disk).toLine } := by
    simp only [Connection.write, le_refl, if_true, List.take_length]
    rfl
  have hstep : (woken req disk).step rd
      (.server (.conn 0 (.write (answerTo req disk).toLine.length))) =
      afterServe req disk (({ lineRead req with
        task := .writing (answerTo req disk).toLine } : Connection).write
        (answerTo req disk).toLine.length) := rfl
  rw [hstep, hwrite]
  rfl

end System

theorem legal_asking (rd : Reader) {req : Request} (h : req.Fits) :
    (system rd).Legal ⟨.desktop, []⟩ (asking req) := by
  have hpos := List.length_pos_of_ne_nil (Envelope.isLine_toLine (.request 1 req)).ne_nil
  refine ⟨trivial, ?_, ?_, trivial⟩
  · exact ⟨.accepted, .connected, rfl, rfl, rfl, h⟩
  · exact ⟨.accepted, Caller.connected.request req, rfl, rfl, hpos, Nat.le_refl _, rfl, nofun⟩

variable (rd : Reader) {req : Request} (h : req.Fits) (disk : FrameConfig)

include h in
theorem step_answering :
    (system rd).step (.asked req) (.server (.conn 0 .readLine)) = .called req ∧
      (system rd).step ((system rd).step (.called req) (.server (.serve disk)))
        (.server (.conn 0 .resume)) = .woken req disk ∧
      (system rd).step (.woken req disk)
        (.server (.conn 0 (.write (answerTo req disk).toLine.length))) = .answered req disk :=
  ⟨System.readLine_asked rd h, System.resume_called rd h disk, System.write_woken rd disk⟩

include h in
/-- Everything that has to happen can happen. -/
theorem legal_answering : (system rd).Legal (.asked req) (answering req disk) := by
  have hpos := List.length_pos_of_ne_nil (Envelope.isLine_toLine (answerTo req disk)).ne_nil
  have hsent : ∀ response : Response, Calls.Reply.sent response ≠ .pending := by
    intro response heq
    cases heq
  obtain ⟨hread, hresume, hwrite⟩ := step_answering rd h disk
  simp only [answering, EventMachine.legal_cons, hread, hresume, hwrite]
  refine ⟨⟨⟨rfl, .inl (Envelope.newline_mem_toLine _)⟩, trivial⟩, ⟨⟨rfl, List.cons_ne_nil _ _⟩, trivial⟩,
    ⟨⟨_, rfl, hsent _⟩, trivial⟩, ⟨⟨hpos, le_rfl, rfl⟩, trivial⟩, ?_, trivial⟩
  exact ⟨_, _, rfl, rfl, rfl, .inl (Envelope.newline_mem_toLine _)⟩

include h in
/-- The client gets the response. -/
theorem callers_answering :
    ((system rd).run (.asked req) (answering req disk)).callers =
      [some ⟨2, .idle, (answerTo req disk).toLine.length, [req],
        [.ok (Server.desktop.state.handleRequestOnMain req disk).2]⟩] := by
  obtain ⟨hread, hresume, hwrite⟩ := step_answering rd h disk
  have hcounts : Server.desktop.state.CountsFit := ⟨by decide, by decide⟩
  have hfinish : rd.finish (answerTo req disk).toLine = .ok _ :=
    rd.finish_toLine (hcounts.fits req disk)
  have hrun : ((system rd).run (.asked req) (answering req disk)).callers =
      [some (Caller.receive rd ⟨2, .reading, 0, [req], []⟩
        { System.lineRead req with outbox := (answerTo req disk).toLine })] := by
    simp only [answering, EventMachine.run_cons, hread, hresume, hwrite]
    rfl
  have hline : Lines.nextLine 0x0a (answerTo req disk).toLine = ((answerTo req disk).toLine, []) :=
    Lines.nextLine_isLine (Envelope.isLine_toLine _)
  rw [hrun, Caller.receive, Caller.unread, List.drop_zero, hline]
  dsimp only
  rw [hfinish, Nat.zero_add]
  rfl

theorem served_oneCall : ((system .lax).run ⟨.desktop, []⟩ oneCall).Served ∧
    ∃ k, ((system .lax).run ⟨.desktop, []⟩ oneCall).callers = [some k] ∧
      k.returned = [.ok stateResponse] := by
  have hfits : Request.getState.Fits := trivial
  have hlegal : (system .lax).Legal ⟨.desktop, []⟩ oneCall := by
    refine (EventMachine.legal_append _).mpr ⟨legal_asking .lax hfits, ?_⟩
    rw [System.run_asking]
    exact legal_answering .lax hfits {}
  have hcallers := callers_answering .lax hfits {}
  rw [← System.run_asking, ← EventMachine.run_append] at hcallers
  exact ⟨(served ((EventMachine.Reachable.init (init_system .lax)).run hlegal)).1, _, hcallers,
    rfl⟩

end Ipc

end Nullxes
