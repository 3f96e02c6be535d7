import Mathlib.Data.Prod.Lex
import Mathlib.Order.WellFounded
import Nullxes.Ipc.Server

/-!
# Requests and responses

What the interleaving of clients, tasks and main loop cannot disturb: the lines of a connection are
answered in their order, one envelope each; a line is executed at most once, and when its answer
comes from the main loop, it is the answer of that one execution.

A call is made under the number of the connection and of the line, so no two lines share one. The
invariant says what each task has done; the channel carries its own.

## Main results

* `Ipc.Server.inv_of_reachable` — the invariant
* `Ipc.disciplined` — at most one answer to a line, in order, from its own execution; exactly one
  for every line once the server has come to rest, which it does when left alone
-/

namespace Nullxes

namespace Ipc

open Nullxes.Frame

/-! ## The invariant -/

/-- `e` answers `line`, read on behalf of `caller`. -/
def Reader.Answered (rd : Reader) (ch : Channel) (caller : ℕ × ℕ) (line : List Char)
    (e : Envelope) : Prop :=
  ∃ response, e = Envelope.response (rd.correlationId line) response ∧
    match rd.interpret line with
    | .error r => response = r ∧ Calls.Unserved caller ch
    | .ok req =>
      (∃ k : ℕ, ch.calls[k]? = some ⟨caller, req, .sent response⟩) ∨
        Calls.Unserved caller ch ∧ ∃ message, response = .err (.internal message)

theorem Reader.Answered.extend {rd : Reader} {ch ch' : Channel} {caller : ℕ × ℕ} {line : List Char}
    {e : Envelope} {new : ℕ × ℕ → Prop} (h : rd.Answered ch caller line e)
    (hext : Calls.Extends new ch ch') (hnew : ¬ new caller) : rd.Answered ch' caller line e := by
  obtain ⟨response, he, h⟩ := h
  refine ⟨response, he, ?_⟩
  cases hi : rd.interpret line with
  | error r =>
    rw [hi] at h
    exact ⟨h.1, h.2.extend hext hnew⟩
  | ok req =>
    rw [hi] at h
    rcases h with ⟨k, hk⟩ | ⟨hun, hmessage⟩
    · obtain ⟨⟨caller', req', reply'⟩, hc, rfl, rfl, hreply⟩ := hext.calls k _ hk
      obtain rfl : reply' = .sent response := hreply (by simp)
      exact .inl ⟨k, hc⟩
    · exact .inr ⟨hun.extend hext hnew, hmessage⟩

namespace Connection

variable (rd : Reader) (ch : Channel) (c : ℕ) (conn : Connection)

/-- The bytes of all answers. -/
def answers : List UInt8 := conn.answered.flatMap Envelope.toLine

/-- The next line cannot be read, or there is none. -/
def Exhausted : Prop :=
  (conn.inbox = [] ∧ conn.shut = true) ∨
    ((0x0a ∈ conn.inbox ∨ conn.shut = true) ∧
      Utf8.decode (Lines.nextLine 0x0a conn.inbox).1 = none)

/-- What the task has done so far. -/
def TaskInv : Prop :=
  match conn.task with
  | .reading => conn.answered.length = conn.received.length ∧ conn.outbox = conn.answers
  | .waiting line k =>
    conn.received.length = conn.answered.length + 1 ∧ conn.outbox = conn.answers ∧
      conn.received[conn.answered.length]? = some line ∧
      ∃ call, ch.calls[k]? = some call ∧ call.caller = (c, conn.answered.length) ∧
        rd.interpret line = .ok call.request
  | .writing bytes =>
    conn.answered.length = conn.received.length ∧ conn.outbox ++ bytes = conn.answers ∧ bytes ≠ []
  | .done =>
    conn.answered.length = conn.received.length ∧ conn.outbox <+: conn.answers ∧
      (conn.closed = true ∨ (conn.outbox = conn.answers ∧ conn.Exhausted))

/-- Lines are read as they were sent, and answered one by one. -/
structure Base : Prop where
  lines : Lines.lines 0x0a conn.sent =
    conn.received.map Utf8.encode ++ Lines.lines 0x0a conn.inbox
  whole : conn.shut = false →
    (∀ l ∈ conn.received, Lines.IsLine 0x0a (Utf8.encode l)) ∧
      conn.sent = (conn.received.map Utf8.encode).flatten ++ conn.inbox
  answered : ∀ i e, conn.answered[i]? = some e →
    ∃ line, conn.received[i]? = some line ∧ rd.Answered ch (c, i) line e

/-- The invariant of a connection. -/
structure Inv : Prop extends conn.Base rd ch c where
  task : conn.TaskInv rd ch c

variable {rd ch c conn}

theorem inv_accepted : accepted.Inv rd ch c where
  lines := rfl
  whole _ := ⟨fun _ h => (nomatch h), rfl⟩
  answered _ _ h := by cases h
  task := ⟨rfl, rfl⟩

theorem TaskInv.answered_le (h : conn.TaskInv rd ch c) :
    conn.answered.length ≤ conn.received.length := by
  rw [TaskInv] at h
  split at h
  · exact Nat.le_of_eq h.1
  · rw [h.1]
    exact Nat.le_succ _
  · exact Nat.le_of_eq h.1
  · exact Nat.le_of_eq h.1

/-- What happens on the channel elsewhere does not matter. -/
theorem Base.extend {ch' : Channel} {new : ℕ × ℕ → Prop} (h : conn.Base rd ch c)
    (hext : Calls.Extends new ch ch') (hnew : ∀ i < conn.answered.length, ¬ new (c, i)) :
    conn.Base rd ch' c where
  lines := h.lines
  whole := h.whole
  answered i e he := by
    obtain ⟨line, hline, hans⟩ := h.answered i e he
    exact ⟨line, hline, hans.extend hext (hnew i (List.getElem?_eq_some_iff.mp he).1)⟩

theorem Inv.extend {ch' : Channel} {new : ℕ × ℕ → Prop} (h : conn.Inv rd ch c)
    (hext : Calls.Extends new ch ch') (hnew : ∀ i < conn.answered.length, ¬ new (c, i)) :
    conn.Inv rd ch' c where
  toBase := h.toBase.extend hext hnew
  task := by
    have ht := h.task
    rw [TaskInv] at ht ⊢
    split at ht
    · exact ht
    · obtain ⟨hlen, hout, hline, call, hcall, hcaller, hreq⟩ := ht
      obtain ⟨call', hcall', hcaller', hreq', -⟩ := hext.calls _ _ hcall
      exact ⟨hlen, hout, hline, call', hcall', hcaller'.trans hcaller, by rw [hreq', hreq]⟩
    · exact ht
    · exact ht

/-! ## What a connection does -/

theorem answers_respond (line : List Char) (response : Response) :
    (conn.respond rd line response).answers =
      conn.answers ++ (Envelope.response (rd.correlationId line) response).toLine := by
  simp [answers, respond]

/-- Answering the line that was read last. -/
theorem inv_respond {line : List Char} {response : Response} (hb : conn.Base rd ch c)
    (hlen : conn.received.length = conn.answered.length + 1) (hout : conn.outbox = conn.answers)
    (hline : conn.received[conn.answered.length]? = some line)
    (hans : rd.Answered ch (c, conn.answered.length) line
      (Envelope.response (rd.correlationId line) response)) :
    (conn.respond rd line response).Inv rd ch c where
  lines := hb.lines
  whole := hb.whole
  answered i e he := by
    rcases EventMachine.getElem?_concat_eq_some.mp he with hold | ⟨rfl, rfl⟩
    · exact hb.answered i e hold
    · exact ⟨line, hline, hans⟩
  task := by
    refine ⟨?_, ?_, (Envelope.isLine_toLine _).ne_nil⟩
    · simp [respond, hlen]
    · rw [answers_respond, ← hout]
      rfl

theorem inv_send (h : conn.Inv rd ch c) {bytes : List UInt8} (hshut : conn.shut = false)
    (hopen : conn.task ≠ .done) :
    Inv rd ch c { conn with sent := conn.sent ++ bytes, inbox := conn.inbox ++ bytes } := by
  obtain ⟨hwhole, hsent⟩ := h.whole hshut
  have hsent' : conn.sent ++ bytes =
      (conn.received.map Utf8.encode).flatten ++ (conn.inbox ++ bytes) := by
    rw [hsent, List.append_assoc]
  have hlines : ∀ l ∈ conn.received.map Utf8.encode, Lines.IsLine 0x0a l := by
    intro l hl
    obtain ⟨line, hline, rfl⟩ := List.mem_map.mp hl
    exact hwhole line hline
  refine ⟨⟨?_, fun _ => ⟨hwhole, hsent'⟩, h.answered⟩, ?_⟩
  · rw [hsent']
    exact Lines.lines_flatten hlines _
  · have ht := h.task
    rw [TaskInv] at ht ⊢
    cases htask : conn.task with
    | done => exact absurd htask hopen
    | _ => simpa [htask, answers] using ht

theorem inv_shut (h : conn.Inv rd ch c) (closed : Bool)
    (hclosed : conn.closed = true → closed = true) :
    Inv rd ch c { conn with shut := true, closed := closed } := by
  refine ⟨⟨h.lines, fun hshut => (nomatch hshut), h.answered⟩, ?_⟩
  have ht := h.task
  rw [TaskInv] at ht ⊢
  cases htask : conn.task with
  | done =>
    simp only [htask] at ht ⊢
    obtain ⟨hlen, hout, hend⟩ := ht
    refine ⟨hlen, hout, hend.imp hclosed (And.imp_right ?_)⟩
    rintro (⟨hempty, -⟩ | ⟨-, hbad⟩)
    · exact .inl ⟨hempty, rfl⟩
    · exact .inr ⟨.inr rfl, hbad⟩
  | _ => simpa [htask, answers] using ht

theorem inv_readError (h : conn.Inv rd ch c) (htask : conn.task = .reading)
    (hclosed : conn.closed = true) : Inv rd ch c { conn with task := .done } := by
  have ht := h.task
  rw [TaskInv, htask] at ht
  exact ⟨⟨h.lines, h.whole, h.answered⟩, ht.1, ht.2 ▸ List.prefix_rfl, .inl hclosed⟩

theorem inv_writeError (h : conn.Inv rd ch c) (he : conn.Enabled ch .writeError) :
    Inv rd ch c { conn with task := .done } := by
  have ht := h.task
  cases htask : conn.task with
  | writing bytes =>
    simp only [Enabled, TaskInv, htask] at he ht
    exact ⟨⟨h.lines, h.whole, h.answered⟩, ht.1, ⟨bytes, ht.2.1⟩, .inl he⟩
  | _ => simp [Enabled, htask] at he

theorem inv_write (h : conn.Inv rd ch c) (n : ℕ) : (conn.write n).Inv rd ch c := by
  have ht := h.task
  rw [write]
  split
  · next bytes htask =>
    rw [TaskInv, htask] at ht
    obtain ⟨hlen, hout, -⟩ := ht
    refine ⟨⟨h.lines, h.whole, h.answered⟩, ?_⟩
    rw [TaskInv]
    by_cases hn : bytes.length ≤ n
    · simp only [if_pos hn, List.take_of_length_le hn]
      exact ⟨hlen, hout⟩
    · simp only [if_neg hn]
      refine ⟨hlen, ?_, by simpa using hn⟩
      rw [List.append_assoc, List.take_append_drop]
      exact hout
  · exact h

theorem received_write (n : ℕ) : (conn.write n).received = conn.received := by
  rw [write]
  split <;> rfl

theorem inv_resume (h : conn.Inv rd ch c) (hd : Calls.Distinct ch) :
    (conn.resume rd ch).Inv rd ch c := by
  rw [resume]
  split
  · next line k htask =>
    have ht := h.task
    rw [TaskInv, htask] at ht
    obtain ⟨hlen, hout, hline, call, hcall, hcaller, hreq⟩ := ht
    rw [hcall, Option.map_some]
    cases hreply : call.reply with
    | pending => exact h
    | sent response =>
      refine inv_respond h.toBase hlen hout hline ⟨response, rfl, ?_⟩
      rw [hreq]
      refine .inl ⟨k, ?_⟩
      rw [hcall, ← hcaller, ← hreply]
    | dropped =>
      refine inv_respond h.toBase hlen hout hline ⟨_, rfl, ?_⟩
      rw [hreq]
      refine .inr ⟨fun j d hd' hdc => ?_, _, rfl⟩
      obtain rfl : j = k := hd _ _ _ _ hd' hcall (hdc.trans hcaller.symm)
      obtain rfl := Option.some.inj (hcall.symm.trans hd')
      exact hreply
  · exact h

theorem received_resume : (conn.resume rd ch).received = conn.received := by
  rw [resume]
  split
  · split <;> rfl
  · rfl

/-- The connection with its next line read. -/
def took (conn : Connection) (text : List Char) : Connection :=
  { conn with
    inbox := (Lines.nextLine 0x0a conn.inbox).2
    received := conn.received ++ [text] }

section

variable (rd : Reader) (ch : Channel) (c : ℕ)

/-- What reading a text does. -/
theorem readLine_eq {text : List Char}
    (hd : Utf8.decode (Lines.nextLine 0x0a conn.inbox).1 = some text) (hne : conn.inbox ≠ []) :
    conn.readLine rd c ch =
      match rd.interpret text with
      | .error response => (ch, (conn.took text).respond rd text response)
      | .ok req =>
        if ch.listening then
          (ch.enqueue (c, conn.received.length) req,
            { conn.took text with task := .waiting text ch.calls.length })
        else
          (ch, (conn.took text).respond rd text (.err (.internal "compositor not listening"))) := by
  have hline := Lines.nextLine_ne_nil 0x0a hne
  rw [readLine]
  simp only [if_neg hline, hd]
  rfl

/-- A line is read and answered at once, or called for; or the connection is at its end. -/
theorem readLine_cases (hready : 0x0a ∈ conn.inbox ∨ conn.shut = true) :
    (conn.Exhausted ∧ conn.readLine rd c ch = (ch, { conn with task := .done })) ∨
    ∃ text, Utf8.decode (Lines.nextLine 0x0a conn.inbox).1 = some text ∧ conn.inbox ≠ [] ∧
      ((∃ response, conn.readLine rd c ch = (ch, (conn.took text).respond rd text response) ∧
          (rd.interpret text = .error response ∨ (∃ req, rd.interpret text = .ok req) ∧
            ch.listening = false ∧ response = .err (.internal "compositor not listening"))) ∨
        ∃ req, rd.interpret text = .ok req ∧ ch.listening = true ∧
          conn.readLine rd c ch = (ch.enqueue (c, conn.received.length) req,
            { conn.took text with task := .waiting text ch.calls.length })) := by
  by_cases hnil : conn.inbox = []
  · have hline : Lines.nextLine 0x0a conn.inbox = ([], []) := by rw [hnil]; rfl
    refine .inl ⟨.inl ⟨hnil, hready.resolve_left (by simp [hnil])⟩, ?_⟩
    simp [readLine, hline]
  have hne := Lines.nextLine_ne_nil 0x0a hnil
  cases hd : Utf8.decode (Lines.nextLine 0x0a conn.inbox).1 with
  | none =>
    refine .inl ⟨.inr ⟨hready, hd⟩, ?_⟩
    rw [readLine]
    simp only [if_neg hne, hd]
  | some text =>
    refine .inr ⟨text, rfl, hnil, ?_⟩
    rw [readLine_eq rd ch c hd hnil]
    cases hi : rd.interpret text with
    | error response => exact .inl ⟨response, rfl, .inl rfl⟩
    | ok req =>
      cases hl : ch.listening with
      | false => exact .inl ⟨_, rfl, .inr ⟨⟨req, rfl⟩, rfl, rfl⟩⟩
      | true => exact .inr ⟨req, rfl, rfl, rfl⟩

end

theorem base_took (h : conn.Base rd ch c) (hready : 0x0a ∈ conn.inbox ∨ conn.shut = true)
    {text : List Char} (hd : Utf8.decode (Lines.nextLine 0x0a conn.inbox).1 = some text)
    (hne : conn.inbox ≠ []) : (conn.took text).Base rd ch c where
  lines := by
    rw [took, h.lines, Lines.lines_eq_nextLine hne, List.map_append, List.append_assoc]
    simp [Utf8.encode_of_decode hd]
  whole hshut := by
    obtain ⟨hlines, hsent⟩ := h.whole hshut
    have hmem := hready.resolve_right (by simp [show conn.shut = false from hshut])
    have henc := Utf8.encode_of_decode hd
    constructor
    · intro l hl
      rcases List.mem_append.mp hl with hold | hnew
      · exact hlines l hold
      · obtain rfl := List.mem_singleton.mp hnew
        rw [henc]
        exact Lines.isLine_nextLine hmem
    · have hjoin := Lines.nextLine_append 0x0a conn.inbox
      simp only [took, List.map_append, List.map_cons, List.map_nil, List.flatten_append,
        List.flatten_cons, List.flatten_nil, List.append_nil, List.append_assoc, henc, hjoin]
      exact hsent
  answered i e he := by
    obtain ⟨line, hline, hans⟩ := h.answered i e he
    exact ⟨line, by rw [took]; exact EventMachine.getElem?_concat_eq_some.mpr (.inl hline), hans⟩

/-- Reading keeps the invariant, if nobody has called yet for the line that comes. -/
theorem inv_readLine (h : conn.Inv rd ch c) (htask : conn.task = .reading)
    (hready : 0x0a ∈ conn.inbox ∨ conn.shut = true)
    (hfresh : ∀ (k : ℕ) call, ch.calls[k]? = some call → call.caller ≠ (c, conn.received.length)) :
    (conn.readLine rd c ch).2.Inv rd (conn.readLine rd c ch).1 c := by
  have ht := h.task
  rw [TaskInv, htask] at ht
  obtain ⟨hlen, hout⟩ := ht
  rcases readLine_cases rd ch c hready with
    ⟨hend, heq⟩ | ⟨text, hd, hne, hcase⟩
  · rw [heq]
    exact ⟨⟨h.lines, h.whole, h.answered⟩, hlen, hout ▸ List.prefix_rfl, .inr ⟨hout, hend⟩⟩
  have hbase := base_took h.toBase hready hd hne
  have hlen' : (conn.took text).received.length = (conn.took text).answered.length + 1 := by
    simp [took, hlen]
  have hline : (conn.took text).received[(conn.took text).answered.length]? = some text := by
    simp [took, hlen]
  have hun : Calls.Unserved (c, (conn.took text).answered.length) ch := by
    intro k call hcall hcaller
    exact absurd (hcaller.trans (by rw [← hlen]; rfl)) (hfresh k call hcall)
  rcases hcase with ⟨response, heq, hwhy⟩ | ⟨req, hi, hl, heq⟩
  · rw [heq]
    refine inv_respond hbase hlen' hout hline ⟨response, rfl, ?_⟩
    rcases hwhy with hi | ⟨⟨req, hi⟩, -, rfl⟩
    · rw [hi]
      exact ⟨rfl, hun⟩
    · rw [hi]
      exact .inr ⟨hun, _, rfl⟩
  · rw [heq]
    have hext := Calls.extends_enqueue (s := ch) (c, conn.received.length) req
    have hnew : ∀ i < (conn.took text).answered.length, (c, i) ≠ (c, conn.received.length) := by
      intro i hi heq
      have hlt : i < conn.answered.length := hi
      rw [Prod.mk.injEq] at heq
      omega
    have hbase' := hbase.extend hext hnew
    refine ⟨⟨hbase'.lines, hbase'.whole, hbase'.answered⟩, hlen', hout, hline,
      ⟨(c, conn.received.length), req, .pending⟩, ?_, ?_, hi⟩
    · exact Calls.Sound.getElem?_enqueue.mpr (.inr ⟨rfl, rfl⟩)
    · rw [← hlen]
      rfl

end Connection

/-! ## What the server does -/

namespace Server

variable (rd : Reader) (s : Server)

structure Inv : Prop where
  sound : Calls.Sound s.channel
  distinct : Calls.Distinct s.channel
  /-- Calls are made for lines that have been read and ask for what is executed. -/
  made : ∀ (k : ℕ) call, s.channel.calls[k]? = some call →
    ∃ conn line, s.conns[call.caller.1]? = some conn ∧
      conn.received[call.caller.2]? = some line ∧ rd.interpret line = .ok call.request
  conns : ∀ (c : ℕ) conn, s.conns[c]? = some conn → conn.Inv rd s.channel c

variable {rd s}

theorem inv_start (state : NullxesState) : (start state).Inv rd where
  sound := Calls.sound_initial
  distinct _ _ _ _ h := by cases h
  made _ _ h := by cases h
  conns _ _ h := by cases h

namespace Inv

/-- Nobody has called for a line that has not been read. -/
theorem fresh (h : s.Inv rd) {c : ℕ} {conn : Connection} (hc : s.conns[c]? = some conn) (k : ℕ)
    (call : Calls.Call (ℕ × ℕ) Request Response) (hcall : s.channel.calls[k]? = some call) :
    call.caller ≠ (c, conn.received.length) := by
  intro heq
  obtain ⟨conn', line, hconn, hline, -⟩ := h.made k call hcall
  rw [heq] at hconn hline
  obtain rfl := Option.some.inj (hc.symm.trans hconn)
  exact absurd (List.getElem?_eq_some_iff.mp hline).1 (Nat.lt_irrefl _)

theorem accept (h : s.Inv rd) : Inv rd { s with conns := s.conns ++ [.accepted] } where
  sound := h.sound
  distinct := h.distinct
  made k call hcall := by
    obtain ⟨conn, line, hconn, hrest⟩ := h.made k call hcall
    exact ⟨conn, line, EventMachine.getElem?_concat_eq_some.mpr (.inl hconn), hrest⟩
  conns c conn hc := by
    rcases EventMachine.getElem?_concat_eq_some.mp hc with hold | ⟨-, rfl⟩
    · exact h.conns c conn hold
    · exact Connection.inv_accepted

/-- The main loop's side of the channel does something. -/
theorem channel (h : s.Inv rd) {ch : Channel} (hsound : Calls.Sound ch)
    (hext : Calls.Extends (fun _ => False) s.channel ch) (state : NullxesState) :
    Inv rd { s with channel := ch, state := state } where
  sound := hsound
  distinct := h.distinct.extend hext
  made k call hcall := by
    obtain ⟨call', hcall', hcaller, hrequest⟩ := hext.old hcall
    obtain ⟨conn, line, hconn, hline, hi⟩ := h.made k call' hcall'
    rw [hcaller] at hconn hline
    exact ⟨conn, line, hconn, hline, hrequest ▸ hi⟩
  conns c conn hc := (h.conns c conn hc).extend hext fun _ _ => id

/-- A line that was read stays read when a connection changes. -/
theorem read_set {c c' i : ℕ} {conn conn' conn₀ : Connection} {line : List Char}
    (hc : s.conns[c]? = some conn) (hread : conn.received <+: conn'.received)
    (hconn₀ : s.conns[c']? = some conn₀) (hline : conn₀.received[i]? = some line) :
    ∃ conn₁, (s.conns.set c conn')[c']? = some conn₁ ∧ conn₁.received[i]? = some line := by
  by_cases hk : c' = c
  · subst hk
    obtain rfl := Option.some.inj (hc.symm.trans hconn₀)
    obtain ⟨later, hlater⟩ := hread
    have hi := (List.getElem?_eq_some_iff.mp hline).1
    refine ⟨conn', (EventMachine.getElem?_set_eq_some hc).mpr (.inl ⟨rfl, rfl⟩), ?_⟩
    rw [← hlater, List.getElem?_append_left hi]
    exact hline
  · exact ⟨conn₀, (EventMachine.getElem?_set_eq_some hc).mpr (.inr ⟨hk, hconn₀⟩), hline⟩

/-- A connection changes; what it has read it has read. -/
theorem setConn (h : s.Inv rd) {c : ℕ} {conn conn' : Connection} (hc : s.conns[c]? = some conn)
    (hconn : conn'.Inv rd s.channel c) (hread : conn.received <+: conn'.received) :
    Inv rd { s with conns := s.conns.set c conn' } where
  sound := h.sound
  distinct := h.distinct
  made k call hcall := by
    obtain ⟨conn₀, line, hconn₀, hline, hi⟩ := h.made k call hcall
    obtain ⟨conn₁, hconn₁, hline₁⟩ := read_set hc hread hconn₀ hline
    exact ⟨conn₁, line, hconn₁, hline₁, hi⟩
  conns c' conn₀ hc' := by
    rcases (EventMachine.getElem?_set_eq_some hc).mp hc' with ⟨rfl, rfl⟩ | ⟨-, hold⟩
    · exact hconn
    · exact h.conns c' conn₀ hold

/-- A connection calls for the line it has just read. -/
theorem dispatch (h : s.Inv rd) {c : ℕ} {conn conn' : Connection} {text : List Char}
    {req : Request} (hc : s.conns[c]? = some conn) (hl : s.channel.listening = true)
    (hi : rd.interpret text = .ok req)
    (hconn : conn'.Inv rd (s.channel.enqueue (c, conn.received.length) req) c)
    (hread : conn'.received = conn.received ++ [text]) :
    Inv rd { s with
      conns := s.conns.set c conn'
      channel := s.channel.enqueue (c, conn.received.length) req } where
  sound := h.sound.enqueue hl _ req
  distinct := h.distinct.enqueue req (h.fresh hc)
  made k call hcall := by
    rcases Calls.Sound.getElem?_enqueue.mp hcall with hold | ⟨-, rfl⟩
    · obtain ⟨conn₀, line, hconn₀, hline, hi⟩ := h.made k call hold
      obtain ⟨conn₁, hconn₁, hline₁⟩ :=
        read_set hc (hread ▸ List.prefix_append _ _) hconn₀ hline
      exact ⟨conn₁, line, hconn₁, hline₁, hi⟩
    · have hlt := (List.getElem?_eq_some_iff.mp hc).1
      exact ⟨conn', text, by simp [hlt], by simp [hread], hi⟩
  conns c' conn₀ hc' := by
    rcases (EventMachine.getElem?_set_eq_some hc).mp hc' with ⟨rfl, rfl⟩ | ⟨hk, hold⟩
    · exact hconn
    · refine (h.conns c' conn₀ hold).extend (Calls.extends_enqueue _ req) fun i _ heq => hk ?_
      exact (Prod.mk.inj heq).1

/-- Whatever happens keeps the invariant. -/
theorem step (h : s.Inv rd) {e : Event} (he : s.Enabled e) : (s.step rd e).Inv rd := by
  cases e with
  | accept => exact h.accept
  | other state => exact ⟨h.sound, h.distinct, h.made, h.conns⟩
  | stop => exact h.channel h.sound.close (Calls.extends_close h.sound _) s.state
  | serve disk =>
    rw [Server.step, serve]
    cases hq : s.channel.queue with
    | nil => exact h
    | cons cmd rest => exact h.channel (h.sound.serve _) (Calls.extends_serve h.sound _ _) _
  | conn c e =>
    cases hc : s.conns[c]? with
    | none =>
      rw [Server.step, hc]
      exact h
    | some conn =>
      have hconn := h.conns c conn hc
      rw [Server.Enabled, hc] at he
      rw [Server.step, hc]
      cases e with
      | send bytes => exact h.setConn hc (Connection.inv_send hconn he.1 he.2) List.prefix_rfl
      | shutdown => exact h.setConn hc (Connection.inv_shut hconn _ id) List.prefix_rfl
      | hangup => exact h.setConn hc (Connection.inv_shut hconn true fun _ => rfl) List.prefix_rfl
      | readError =>
        exact h.setConn hc (Connection.inv_readError hconn he.1 he.2) List.prefix_rfl
      | writeError =>
        exact h.setConn hc (Connection.inv_writeError hconn he) List.prefix_rfl
      | write n =>
        refine h.setConn hc (Connection.inv_write hconn n) ?_
        rw [Connection.received_write]
      | resume =>
        refine h.setConn hc (Connection.inv_resume hconn h.distinct) ?_
        rw [Connection.received_resume]
      | readLine =>
        obtain ⟨htask, hready⟩ := he
        have hread := Connection.inv_readLine hconn htask hready (h.fresh hc)
        simp only [Connection.step]
        rcases Connection.readLine_cases rd s.channel c hready with
          ⟨-, heq⟩ | ⟨text, -, -, ⟨response, heq, -⟩ | ⟨req, hi, hl, heq⟩⟩
        · rw [heq] at hread ⊢
          exact h.setConn hc hread List.prefix_rfl
        · rw [heq] at hread ⊢
          exact h.setConn hc hread (List.prefix_append _ _)
        · rw [heq] at hread ⊢
          exact h.dispatch hc hl hi hread rfl

end Inv

theorem inv_of_reachable (h : (server rd).Reachable s) : s.Inv rd := by
  refine h.invariant ?_ fun _ _ hs he => hs.step he
  rintro _ ⟨state, rfl⟩
  exact inv_start state

end Server

/-! ## Coming to rest -/

/-- The server does it, not a client, nor the rest of the compositor. -/
def Event.Own : Event → Prop
  | .conn _ (.send _) | .conn _ .shutdown | .conn _ .hangup => False
  | .conn _ _ => True
  | .serve _ => True
  | .accept | .other _ | .stop => False

/-- What is to be read, and one for a task that has not returned. -/
def Connection.unread (conn : Connection) : ℕ :=
  conn.inbox.length + if conn.task = .done then 0 else 1

/-- One for a task that waits for a reply. -/
def Connection.waits (conn : Connection) : ℕ :=
  match conn.task with
  | .waiting _ _ => 1
  | _ => 0

/-- What is to be written. -/
def Connection.unwritten (conn : Connection) : ℕ :=
  match conn.task with
  | .writing bytes => bytes.length
  | _ => 0

theorem sum_map_set {α : Type} (f : α → ℕ) {l : List α} {i : ℕ} {a : α} (b : α)
    (h : l[i]? = some a) : ((l.set i b).map f).sum + f a = (l.map f).sum + f b := by
  induction l generalizing i with
  | nil => cases h
  | cons x l ih =>
    cases i with
    | zero =>
      obtain rfl : x = a := by simpa using h
      simp only [List.set_cons_zero, List.map_cons, List.sum_cons]
      omega
    | succ i =>
      have hrest := ih (by simpa using h)
      simp only [List.set_cons_succ, List.map_cons, List.sum_cons]
      omega

namespace Server

variable {rd : Reader} {s : Server}

/-- What the server has to do, the weightiest first. -/
def work (s : Server) : ℕ ×ₗ ℕ ×ₗ ℕ :=
  toLex ((s.conns.map Connection.unread).sum,
    toLex (s.channel.queue.length + (s.conns.map Connection.waits).sum,
      (s.conns.map Connection.unwritten).sum))

theorem work_lt {t : Server} (h : (t.conns.map Connection.unread).sum <
      (s.conns.map Connection.unread).sum ∨
    (t.conns.map Connection.unread).sum = (s.conns.map Connection.unread).sum ∧
      (t.channel.queue.length + (t.conns.map Connection.waits).sum <
          s.channel.queue.length + (s.conns.map Connection.waits).sum ∨
        t.channel.queue.length + (t.conns.map Connection.waits).sum =
            s.channel.queue.length + (s.conns.map Connection.waits).sum ∧
          (t.conns.map Connection.unwritten).sum < (s.conns.map Connection.unwritten).sum)) :
    t.work < s.work := by
  rw [work, work, Prod.Lex.toLex_lt_toLex, Prod.Lex.toLex_lt_toLex]
  exact h

/-- What is left to do on a connection after one of its own events. -/
theorem work_conn (rd : Reader) {c : ℕ} {conn : Connection} {e : ConnEvent}
    (hown : (Event.conn c e).Own) (he : conn.Enabled s.channel e) :
    let next := (conn.step rd c s.channel e).2
    next.unread < conn.unread ∨ (conn.step rd c s.channel e).1 = s.channel ∧
      next.unread = conn.unread ∧ (next.waits < conn.waits ∨
        next.waits = conn.waits ∧ next.unwritten < conn.unwritten) := by
  cases e with
  | send bytes => cases hown
  | shutdown => cases hown
  | hangup => cases hown
  | readError =>
    left
    simp [Connection.step, Connection.unread, he.1]
  | writeError =>
    left
    cases htask : conn.task with
    | writing bytes => simp [Connection.step, Connection.unread, htask]
    | _ => simp [Connection.Enabled, htask] at he
  | write n =>
    right
    cases htask : conn.task with
    | writing bytes =>
      simp only [Connection.Enabled, htask] at he
      simp only [Connection.step, Connection.write, Connection.unread, Connection.waits,
        Connection.unwritten, htask]
      by_cases hn : bytes.length ≤ n
      · simp [hn]
        omega
      · simp [hn]
        omega
    | _ => simp [Connection.Enabled, htask] at he
  | resume =>
    right
    cases htask : conn.task with
    | waiting line k =>
      simp only [Connection.Enabled, htask] at he
      obtain ⟨call, hcall, hreply⟩ := he
      have hcall' : s.channel.calls[k]? = some call := hcall
      simp only [Connection.step, Connection.resume, Connection.unread, Connection.waits, htask,
        hcall', Option.map_some]
      cases hr : call.reply with
      | pending => exact absurd hr hreply
      | _ => simp [Connection.respond]
    | _ => simp [Connection.Enabled, htask] at he
  | readLine =>
    left
    obtain ⟨htask, hready⟩ := he
    have hlen := congrArg List.length (Lines.nextLine_append 0x0a conn.inbox)
    rw [List.length_append] at hlen
    simp only [Connection.step]
    rcases Connection.readLine_cases rd s.channel c hready with
      ⟨-, heq⟩ | ⟨text, -, hne, hcase⟩
    · simp [heq, Connection.unread, htask]
    · have hpos := List.length_pos_of_ne_nil (Lines.nextLine_ne_nil 0x0a hne)
      rcases hcase with ⟨response, heq, -⟩ | ⟨req, -, -, heq⟩ <;>
        simp [heq, Connection.unread, Connection.respond, Connection.took, htask] <;> omega

theorem step_work_lt {e : Event} (hown : e.Own) (he : s.Enabled e) :
    (s.step rd e).work < s.work := by
  cases e with
  | accept => cases hown
  | other state => cases hown
  | stop => cases hown
  | serve disk =>
    rw [step, serve]
    cases hq : s.channel.queue with
    | nil => exact absurd hq he.2
    | cons cmd rest =>
      refine work_lt (.inr ⟨rfl, .inl ?_⟩)
      simp [Calls.Sound.serve_cons hq, hq]
  | conn c e =>
    cases hc : s.conns[c]? with
    | none => simp [Enabled, hc] at he
    | some conn =>
      simp only [Enabled, hc] at he
      have hwork := work_conn rd hown he
      simp only [step, hc]
      set next := conn.step rd c s.channel e with hnext
      have hunread := sum_map_set Connection.unread next.2 hc
      have hwaits := sum_map_set Connection.waits next.2 hc
      have hunwritten := sum_map_set Connection.unwritten next.2 hc
      refine work_lt ?_
      rcases hwork with hlt | ⟨hch, heq, hrest⟩
      · left
        simp only
        omega
      · simp only [hch]
        omega

/-- Left alone, the server stops sooner or later. -/
theorem comes_to_rest (run : ℕ → Server) :
    ¬ ∀ n, ∃ e : Event, e.Own ∧ (run n).Enabled e ∧ run (n + 1) = (run n).step rd e := by
  intro hrun
  obtain ⟨n, hn⟩ := WellFounded.not_rel_apply_succ (r := (· < ·)) fun n => (run n).work
  obtain ⟨e, hown, he, hnext⟩ := hrun n
  refine hn ?_
  rw [hnext]
  exact step_work_lt hown he

end Server

/-! ## The discipline -/

/-- `e` is what a line gets: at once, and then nothing is executed for it, or from the one execution
of its request; or the main loop is gone, and then nothing is executed either. -/
def Reader.Answers (rd : Reader) (ch : Channel) (caller : ℕ × ℕ) (line : List Char)
    (e : Envelope) : Prop :=
  ∃ response, e = Envelope.response (rd.correlationId line) response ∧
    match rd.interpret line with
    | .error r => response = r ∧ ch.executions caller = []
    | .ok req =>
      (∃ k, ch.executions caller = [⟨k, req, response⟩]) ∨
        ch.executions caller = [] ∧ ∃ message, response = .err (.internal message)

theorem Reader.Answered.answers {rd : Reader} {ch : Channel} {caller : ℕ × ℕ} {line : List Char}
    {e : Envelope} (h : rd.Answered ch caller line e) (hs : Calls.Sound ch)
    (hd : Calls.Distinct ch) : rd.Answers ch caller line e := by
  obtain ⟨response, he, h⟩ := h
  have hnone : Calls.Unserved caller ch → ch.executions caller = [] := by
    refine fun hun => hs.executions_eq_nil fun k call a hcall hcaller hsent => ?_
    rw [hun k call hcall hcaller] at hsent
    cases hsent
  refine ⟨response, he, ?_⟩
  cases hi : rd.interpret line with
  | error r =>
    rw [hi] at h
    exact ⟨h.1, hnone h.2⟩
  | ok req =>
    rw [hi] at h
    rcases h with ⟨k, hk⟩ | ⟨hun, hmessage⟩
    · exact .inl ⟨k, hs.executions_of_sent hd hk rfl⟩
    · exact .inr ⟨hnone hun, hmessage⟩

namespace Server

variable (rd : Reader) (s : Server)

structure Disciplined : Prop where
  /-- The lines read on a connection are the first ones its client sent. -/
  received : ∀ (c : ℕ) conn, s.conns[c]? = some conn →
    conn.received.map Utf8.encode <+: Lines.lines 0x0a conn.sent
  /-- They are answered in order, by one envelope each, and each by its own. -/
  answered : ∀ (c : ℕ) conn, s.conns[c]? = some conn →
    conn.answered.length ≤ conn.received.length ∧
      ∀ i e, conn.answered[i]? = some e →
        ∃ line, conn.received[i]? = some line ∧ rd.Answers s.channel (c, i) line e
  /-- Nothing else is written. -/
  written : ∀ (c : ℕ) conn, s.conns[c]? = some conn → conn.outbox <+: conn.answers
  /-- At most the last line has no answer yet; its command is queued, or its reply is there. -/
  pending : ∀ (c : ℕ) conn, s.conns[c]? = some conn →
    conn.answered.length = conn.received.length ∨
      conn.received.length = conn.answered.length + 1 ∧
        ∃ line k call, conn.task = .waiting line k ∧ s.channel.calls[k]? = some call ∧
          (k ∈ s.channel.queued ∨ call.reply ≠ .pending)
  /-- What is executed was asked for by a line, and is all that is executed for it. -/
  executed : ∀ x ∈ s.channel.executed, ∃ (c i : ℕ) (conn : Connection) (line : List Char),
    s.conns[c]? = some conn ∧ conn.received[i]? = some line ∧
      rd.interpret line = .ok x.request ∧ s.channel.executions (c, i) = [x]

/-- None of the server's own events can happen. -/
def AtRest : Prop := ∀ e : Event, e.Own → ¬ s.Enabled e

/-- On every connection that is up, each line has its answer, which has been written, and there is
no further line: none has come, or what has come next is no text. -/
def AllAnswered : Prop :=
  ∀ (c : ℕ) conn, s.conns[c]? = some conn → conn.closed = false →
    conn.answered.length = conn.received.length ∧ conn.outbox = conn.answers ∧
      (conn.Exhausted ∨ (0x0a ∉ conn.inbox ∧ conn.shut = false))

variable {rd s}

theorem Inv.discipline (h : s.Inv rd) : s.Disciplined rd where
  received c conn hc := by
    rw [(h.conns c conn hc).lines]
    exact List.prefix_append _ _
  answered c conn hc := by
    have hconn := h.conns c conn hc
    refine ⟨hconn.task.answered_le, fun i e he => ?_⟩
    obtain ⟨line, hline, hans⟩ := hconn.answered i e he
    exact ⟨line, hline, hans.answers h.sound h.distinct⟩
  written c conn hc := by
    have ht := (h.conns c conn hc).task
    rw [Connection.TaskInv] at ht
    split at ht
    · exact ht.2 ▸ List.prefix_rfl
    · exact ht.2.1 ▸ List.prefix_rfl
    · exact ⟨_, ht.2.1⟩
    · exact ht.2.1
  pending c conn hc := by
    have ht := (h.conns c conn hc).task
    rw [Connection.TaskInv] at ht
    split at ht
    · exact .inl ht.1
    · next line k htask =>
      obtain ⟨hlen, -, -, call, hcall, -⟩ := ht
      refine .inr ⟨hlen, line, k, call, htask, hcall, ?_⟩
      rw [← h.sound.pending_iff k call hcall]
      exact Classical.em _
    · exact .inl ht.1
    · exact .inl ht.1
  executed x hx := by
    obtain ⟨call, hcall, hrequest, hsent⟩ := h.sound.executed_call x hx
    obtain ⟨conn, line, hconn, hline, hi⟩ := h.made x.call call hcall
    refine ⟨call.caller.1, call.caller.2, conn, line, hconn, hline, hrequest ▸ hi, ?_⟩
    have honce := h.sound.executions_of_sent h.distinct hcall hsent
    rwa [hrequest] at honce

/-- For a line that asks for nothing nothing is executed. -/
theorem Inv.executions_eq_nil (h : s.Inv rd) {c i : ℕ} {conn : Connection} {line : List Char}
    (hc : s.conns[c]? = some conn) (hline : conn.received[i]? = some line)
    (hno : ∀ req, rd.interpret line ≠ .ok req) : s.channel.executions (c, i) = [] := by
  refine h.sound.executions_eq_nil fun k call _ hcall hcaller _ => ?_
  obtain ⟨conn', line', hconn', hline', hi⟩ := h.made k call hcall
  rw [hcaller] at hconn' hline'
  obtain rfl := Option.some.inj (hc.symm.trans hconn')
  obtain rfl := Option.some.inj (hline.symm.trans hline')
  exact hno _ hi

theorem Inv.allAnswered (h : s.Inv rd) (hrest : s.AtRest) : s.AllAnswered := by
  intro c conn hc hclosed
  have hconn := h.conns c conn hc
  have hidle : ∀ e, (Event.conn c e).Own → ¬ conn.Enabled s.channel e := by
    intro e hown he
    refine hrest (.conn c e) hown ?_
    rw [Enabled, hc]
    exact he
  have ht := hconn.task
  cases htask : conn.task with
  | reading =>
    simp only [Connection.TaskInv, htask] at ht
    refine ⟨ht.1, ht.2, .inr ?_⟩
    have hread := hidle .readLine trivial
    simpa [Connection.Enabled, htask] using hread
  | waiting line k =>
    simp only [Connection.TaskInv, htask] at ht
    obtain ⟨-, -, -, call, hcall, -⟩ := ht
    -- the reply has not come, so its command is queued, and the main loop can serve
    have hpending : call.reply = .pending := by
      by_contra hreply
      refine hidle .resume trivial ?_
      simp only [Connection.Enabled, htask]
      exact ⟨call, hcall, hreply⟩
    have hqueued := (h.sound.pending_iff k call hcall).mp hpending
    have hne : s.channel.queue ≠ [] := by
      rintro hnil
      rw [Calls.State.queued, hnil] at hqueued
      cases hqueued
    cases hl : s.channel.listening with
    | true => exact absurd ⟨hl, hne⟩ (hrest (.serve {}) trivial)
    | false => exact absurd (h.sound.closed hl) hne
  | writing bytes =>
    simp only [Connection.TaskInv, htask] at ht
    refine absurd ?_ (hidle (.write bytes.length) trivial)
    simp only [Connection.Enabled, htask]
    exact ⟨List.length_pos_of_ne_nil ht.2.2, Nat.le_refl _, hclosed⟩
  | done =>
    simp only [Connection.TaskInv, htask] at ht
    obtain ⟨hlen, -, hend⟩ := ht
    obtain ⟨hout, hexhausted⟩ := hend.resolve_left (by simp [hclosed])
    exact ⟨hlen, hout, .inl hexhausted⟩

end Server

/-! ### A run of one line -/

/-- A client connects and sends a line, which is read. -/
def oneLine (line : List UInt8) : List Event :=
  [.accept, .conn 0 (.send line), .conn 0 .readLine]

theorem legal_oneLine (rd : Reader) {line : List UInt8} (h : 0x0a ∈ line) :
    (server rd).Legal .desktop (oneLine line) :=
  ⟨trivial, ⟨rfl, by decide⟩, ⟨rfl, .inl h⟩, trivial⟩

theorem reachable_oneLine (rd : Reader) {line : List UInt8} (h : 0x0a ∈ line) :
    (server rd).Reachable ((server rd).run .desktop (oneLine line)) :=
  (EventMachine.Reachable.init (init_desktop rd)).run (legal_oneLine rd h)

/-- A connection on which a line has come. -/
def Connection.withLine (line : List UInt8) : Connection :=
  { accepted with sent := line, inbox := line }

/-- It is read as it was written. -/
theorem Connection.decode_withLine {text : List Char} (h : '\n' ∉ text) :
    Utf8.decode (Lines.nextLine 0x0a (withLine (Utf8.encode (text ++ ['\n']))).inbox).1 =
      some (text ++ ['\n']) := by
  rw [withLine, Lines.nextLine_isLine (Utf8.isLine_encode h), Utf8.decode_encode]

theorem run_oneLine (rd : Reader) (line : List UInt8) :
    (server rd).run .desktop (oneLine line) =
      ⟨[((Connection.withLine line).readLine rd 0 .initial).2],
        ((Connection.withLine line).readLine rd 0 .initial).1, Server.desktop.state⟩ := rfl

/-- A line that is answered at once. -/
theorem run_oneLine_of_error (rd : Reader) {text : List Char} {response : Response}
    (h : '\n' ∉ text) (hi : rd.interpret (text ++ ['\n']) = .error response) :
    (server rd).run .desktop (oneLine (Utf8.encode (text ++ ['\n']))) =
      ⟨[((Connection.withLine (Utf8.encode (text ++ ['\n']))).took (text ++ ['\n'])).respond rd
        (text ++ ['\n']) response], .initial, Server.desktop.state⟩ := by
  have hread := Connection.readLine_eq rd .initial 0 (Connection.decode_withLine h)
    (Utf8.isLine_encode h).ne_nil
  rw [hi] at hread
  rw [run_oneLine, hread]

/-- **Requests and responses.** However clients, tasks and main loop interleave, lines are answered
in order, once each, from their own execution; a server left alone comes to rest; and when it is at
rest every line has been answered. -/
theorem disciplined {rd : Reader} {s : Server} (h : (server rd).Reachable s) :
    s.Disciplined rd ∧ (s.AtRest → s.AllAnswered) ∧
      ∀ run : ℕ → Server, run 0 = s →
        ¬ ∀ n, ∃ e : Event, e.Own ∧ (run n).Enabled e ∧ run (n + 1) = (run n).step rd e := by
  have hinv := Server.inv_of_reachable h
  exact ⟨hinv.discipline, hinv.allAnswered, fun run _ => Server.comes_to_rest run⟩

/-- A client asks for the state; the request is read. -/
theorem disciplined_getState :
    ((server .lax).run .desktop (oneLine (Envelope.request 1 .getState).toLine)).Disciplined .lax :=
  (disciplined (reachable_oneLine .lax (Envelope.newline_mem_toLine _))).1

end Ipc

end Nullxes
