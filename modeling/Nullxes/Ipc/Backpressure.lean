import Nullxes.Ipc.Discipline

/-!
# Backpressure

`ipc_server.rs` documents a queue bounded at `INBOUND_QUEUE_DEPTH` and a `busy` answer when it is
full. The constant is used nowhere and the channel is unbounded, so a request is queued whatever is
in the queue already. The queue keeps its bound for as long as no request arrives while it is full,
and then nobody needs to be told `busy`.

## Main results

* `Ipc.backpressure_iff` — the runs in which the bound is kept
* `Ipc.flood_exceeds_depth` — 257 clients and a busy main loop
-/

namespace Nullxes

namespace Ipc

open Nullxes.Frame

/-- `INBOUND_QUEUE_DEPTH`. -/
def inboundQueueDepth : ℕ := 256

/-- The next line of the connection is this one, and it is a request. -/
def Connection.Asks (rd : Reader) (conn : Connection) (line : List Char) : Prop :=
  conn.inbox ≠ [] ∧ Utf8.decode (Lines.nextLine 0x0a conn.inbox).1 = some line ∧
    ∃ req, rd.interpret line = .ok req

/-- A request arrives on this connection, in this line. -/
def Server.Arrives (rd : Reader) (s : Server) (e : Event) (c : ℕ) (conn : Connection)
    (line : List Char) : Prop :=
  e = .conn c .readLine ∧ s.conns[c]? = some conn ∧ conn.Asks rd line

/-- A request that arrives when the queue is full is answered `busy` and is not queued. -/
def Server.BusyWhenFull (rd : Reader) (s : Server) (e : Event) : Prop :=
  ∀ c conn line, s.Arrives rd e c conn line → inboundQueueDepth ≤ s.channel.queue.length →
    (s.step rd e).channel.queue = s.channel.queue ∧
      ∃ conn', (s.step rd e).conns[c]? = some conn' ∧
        conn'.answered =
          conn.answered ++ [Envelope.response (rd.correlationId line) (.err .busy)]

/-- A request that arrives finds room. -/
def Server.RoomOnArrival (rd : Reader) (s : Server) (e : Event) : Prop :=
  ∀ c conn line, s.Arrives rd e c conn line → s.channel.queue.length < inboundQueueDepth

namespace Server

variable {rd : Reader} {s : Server} {e : Event} {c : ℕ} {conn : Connection} {line : List Char}

theorem step_conn (hc : s.conns[c]? = some conn) (e : ConnEvent) :
    s.step rd (.conn c e) =
      { s with
        conns := s.conns.set c (conn.step rd c s.channel e).2
        channel := (conn.step rd c s.channel e).1 } := by
  rw [step, hc]

/-- A request that arrives is queued, unless there is nobody to serve it. -/
theorem queue_of_arrives (h : s.Arrives rd e c conn line) :
    (s.step rd e).channel.queue.length =
      s.channel.queue.length + if s.channel.listening then 1 else 0 := by
  obtain ⟨rfl, hc, hne, hd, req, hi⟩ := h
  have hread := Connection.readLine_eq rd s.channel c hd hne
  rw [hi] at hread
  rw [step_conn hc]
  cases hl : s.channel.listening <;> simp [Connection.step, hread, hl, Calls.State.enqueue]

/-- Without an arrival the queue does not grow. -/
theorem queue_of_not_arrives (h : ∀ c conn line, ¬ s.Arrives rd e c conn line)
    (he : s.Enabled e) : (s.step rd e).channel.queue.length ≤ s.channel.queue.length := by
  cases e with
  | accept => exact Nat.le_refl _
  | other state => exact Nat.le_refl _
  | stop => exact Nat.zero_le _
  | serve disk =>
    rw [step, serve]
    cases hq : s.channel.queue with
    | nil => simp [hq]
    | cons cmd rest => simp [Calls.Sound.serve_cons hq]
  | conn c e =>
    cases hc : s.conns[c]? with
    | none => simp [step, hc]
    | some conn =>
      rw [step_conn hc]
      cases e with
      | readLine =>
        simp only [Enabled, hc] at he
        rcases Connection.readLine_cases rd s.channel c he.2 with
          ⟨-, heq⟩ | ⟨text, hd, hne, ⟨response, heq, -⟩ | ⟨req, hi, -, -⟩⟩
        · simp [Connection.step, heq]
        · simp [Connection.step, heq]
        · exact absurd ⟨rfl, hc, hne, hd, req, hi⟩ (h c conn text)
      | _ => exact Nat.le_refl _

/-- A queue within its bound stays within it exactly if an arriving request finds room. -/
theorem depth_step_iff (hs : s.Inv rd) (hd : s.channel.queue.length ≤ inboundQueueDepth)
    (he : s.Enabled e) :
    (s.step rd e).channel.queue.length ≤ inboundQueueDepth ↔ s.RoomOnArrival rd e := by
  by_cases harrives : ∃ c conn line, s.Arrives rd e c conn line
  · obtain ⟨c, conn, line, harr⟩ := harrives
    rw [queue_of_arrives harr]
    cases hl : s.channel.listening with
    | false =>
      have hnil := hs.sound.closed hl
      refine ⟨fun _ c' conn' line' _ => ?_, fun _ => ?_⟩ <;> rw [hnil] <;> decide
    | true =>
      constructor
      · rintro hle c' conn' line' -
        rw [if_pos rfl] at hle
        omega
      · intro hroom
        exact hroom c conn line harr
  · have hnone : ∀ c conn line, ¬ s.Arrives rd e c conn line :=
      fun c conn line harr => harrives ⟨c, conn, line, harr⟩
    have hle := queue_of_not_arrives hnone he
    exact ⟨fun _ c conn line harr => absurd harr (hnone c conn line), fun _ => by omega⟩

end Server

/-- **Backpressure.** In a run the queue keeps within its bound and every request that finds it full
is answered `busy`, if and only if no request ever finds it full. -/
theorem backpressure_iff {rd : Reader} {s : Server} {es : List Event} (h : (server rd).Init s)
    (hl : (server rd).Legal s es) :
    ((server rd).Always (fun s => s.channel.queue.length ≤ inboundQueueDepth) s es ∧
        (server rd).EachStep (fun s e => s.BusyWhenFull rd e) s es) ↔
      (server rd).EachStep (fun s e => s.RoomOnArrival rd e) s es := by
  have hstart : s.Inv rd ∧ s.channel.queue.length ≤ inboundQueueDepth := by
    obtain ⟨state, rfl⟩ := h
    exact ⟨Server.inv_start state, Nat.zero_le _⟩
  have hbound : (server rd).Always (fun s => s.channel.queue.length ≤ inboundQueueDepth) s es ↔
      (server rd).EachStep (fun s e => s.RoomOnArrival rd e) s es :=
    EventMachine.always_iff_eachStep (fun _ _ hs he => hs.step he)
      (fun _ _ hs hd he => Server.depth_step_iff hs hd he) hstart.1 hstart.2 hl
  rw [hbound]
  refine and_iff_left_of_imp fun hroom pre e hp c conn line harr hfull => ?_
  exact absurd (hroom pre e hp c conn line harr) (Nat.not_lt.mpr hfull)

/-- One client asks for the state, and finds room. -/
theorem backpressure_iff_getState :
    (server .lax).Always (fun s => s.channel.queue.length ≤ inboundQueueDepth) .desktop
        (oneLine (Envelope.request 1 .getState).toLine) ∧
      (server .lax).EachStep (fun s e => s.BusyWhenFull .lax e) .desktop
        (oneLine (Envelope.request 1 .getState).toLine) := by
  refine (backpressure_iff (init_desktop _)
    (legal_oneLine _ (Envelope.newline_mem_toLine _))).mpr ?_
  simp only [oneLine, EventMachine.eachStep_cons, EventMachine.eachStep_nil, and_true]
  refine ⟨fun _ _ _ _ => ?_, fun _ _ _ _ => ?_, fun _ _ _ _ => ?_⟩ <;> decide

/-! ## A flood -/

/-- One more client connects and sends a line, which is read. -/
def join (line : List UInt8) (n : ℕ) : List Event :=
  [.accept, .conn n (.send line), .conn n .readLine]

/-- Clients come one after another, and the main loop is busy elsewhere. -/
def flood (line : List UInt8) : ℕ → List Event
  | 0 => []
  | n + 1 => flood line n ++ join line n

section

variable {rd : Reader} {s : Server} {line : List Char} {req : Request}

theorem run_join (hl : s.channel.listening = true) (h : '\n' ∉ line)
    (hi : rd.interpret (line ++ ['\n']) = .ok req) :
    let join := join (Utf8.encode (line ++ ['\n'])) s.conns.length
    let t := (server rd).run s join
    (server rd).Legal s join ∧ t.conns.length = s.conns.length + 1 ∧
      t.channel.listening = true ∧ t.channel.queue.length = s.channel.queue.length + 1 := by
  have hline := Utf8.isLine_encode h
  have htext := Connection.decode_withLine h
  -- the connection after each event
  have hnew : ({ s with conns := s.conns ++ [.accepted] } : Server).conns[s.conns.length]? =
      some .accepted := List.getElem?_concat_length
  have hsend : Server.step rd { s with conns := s.conns ++ [.accepted] }
      (.conn s.conns.length (.send (Utf8.encode (line ++ ['\n'])))) =
        { s with conns := s.conns ++ [.withLine (Utf8.encode (line ++ ['\n']))] } := by
    rw [Server.step_conn hnew]
    simp [Connection.step, Connection.withLine, Connection.accepted]
  have hcame : ({ s with
      conns := s.conns ++ [.withLine (Utf8.encode (line ++ ['\n']))] } : Server).conns[
        s.conns.length]? = some (.withLine (Utf8.encode (line ++ ['\n']))) :=
    List.getElem?_concat_length
  have hread := Connection.readLine_eq rd s.channel s.conns.length htext hline.ne_nil
  rw [hi] at hread
  simp only [hl, if_true] at hread
  have hmem : 0x0a ∈ Utf8.encode (line ++ ['\n']) := Utf8.newline_mem_encode.mpr (by simp)
  have hrun : (server rd).run s (join (Utf8.encode (line ++ ['\n'])) s.conns.length) =
      Server.step rd { s with conns := s.conns ++ [.withLine (Utf8.encode (line ++ ['\n']))] }
        (.conn s.conns.length .readLine) := by
    rw [← hsend]
    rfl
  refine ⟨⟨trivial, ?_, ?_, trivial⟩, ?_⟩
  · have henabled : Server.Enabled { s with conns := s.conns ++ [.accepted] }
        (.conn s.conns.length (.send (Utf8.encode (line ++ ['\n'])))) := by
      simp only [Server.Enabled, hnew]
      exact ⟨rfl, by decide⟩
    exact henabled
  · have henabled : Server.Enabled
        { s with conns := s.conns ++ [.withLine (Utf8.encode (line ++ ['\n']))] }
        (.conn s.conns.length .readLine) := by
      simp only [Server.Enabled, hcame]
      exact ⟨rfl, .inl hmem⟩
    rw [← hsend] at henabled
    exact henabled
  · rw [hrun, Server.step_conn hcame]
    simp [Connection.step, hread, Calls.State.enqueue, hl]

/-- After `n` clients the queue holds `n` commands. -/
theorem run_flood (h : '\n' ∉ line) (hi : rd.interpret (line ++ ['\n']) = .ok req) (n : ℕ) :
    let events := flood (Utf8.encode (line ++ ['\n'])) n
    let t := (server rd).run .desktop events
    (server rd).Legal .desktop events ∧ t.conns.length = n ∧
      t.channel.listening = true ∧ t.channel.queue.length = n := by
  induction n with
  | zero => exact ⟨trivial, rfl, rfl, rfl⟩
  | succ n ih =>
    obtain ⟨hlegal, hconns, hlistening, hqueue⟩ := ih
    obtain ⟨hlegal', hconns', hlistening', hqueue'⟩ := run_join hlistening h hi
    rw [hconns] at hlegal' hconns' hlistening' hqueue'
    rw [hqueue] at hqueue'
    simp only [flood, EventMachine.run_append]
    exact ⟨(EventMachine.legal_append _).mpr ⟨hlegal, hlegal'⟩, hconns', hlistening', hqueue'⟩

end

/-- `{"v":1,"id":1,"kind":"Get.State"}`. -/
theorem interpret_getState (rd : Reader) :
    rd.interpret ((Envelope.request 1 .getState).serialize.text ++ ['\n']) = .ok .getState := by
  have hfits : (Envelope.request 1 .getState).Fits := trivial
  rw [Reader.interpret, rd.fromStr_text hfits]
  rfl

/-- `n` clients ask for the state. -/
def getStateFlood (n : ℕ) : List Event := flood (Envelope.request 1 .getState).toLine n

theorem run_getStateFlood (rd : Reader) (n : ℕ) :
    (server rd).Legal .desktop (getStateFlood n) ∧
      ((server rd).run .desktop (getStateFlood n)).channel.queue.length = n := by
  have hrun := run_flood (Envelope.newline_notMem_text _) (interpret_getState rd) n
  rw [← Envelope.toLine_eq] at hrun
  exact ⟨hrun.1, hrun.2.2.2⟩

/-- As many clients as there should be room for, and more. -/
theorem getStateFlood_exceeds (rd : Reader) {n : ℕ} (hn : inboundQueueDepth < n) :
    (server rd).Init .desktop ∧ (server rd).Legal .desktop (getStateFlood n) ∧
      ¬ (server rd).Always (fun s => s.channel.queue.length ≤ inboundQueueDepth) .desktop
        (getStateFlood n) := by
  obtain ⟨hlegal, hqueue⟩ := run_getStateFlood rd n
  refine ⟨init_desktop rd, hlegal, fun halways => ?_⟩
  have hlast := halways.last
  rw [hqueue] at hlast
  omega

/-- 257 clients ask for the state while the main loop is busy: all 257 requests are queued. -/
theorem flood_exceeds_depth :
    (server .lax).Init .desktop ∧ (server .lax).Legal .desktop (getStateFlood 257) ∧
      ¬ (server .lax).Always (fun s => s.channel.queue.length ≤ inboundQueueDepth) .desktop
        (getStateFlood 257) :=
  getStateFlood_exceeds .lax (by decide)

end Ipc

end Nullxes
