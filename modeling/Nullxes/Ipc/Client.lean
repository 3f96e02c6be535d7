import Nullxes.Ipc.RoundTrip
import Nullxes.Ipc.Server
import Nullxes.Library.EventMachine

/-!
# The control client

`client.rs`: `Client::request` numbers its envelope, writes it, reads one line and returns the
response in it. It never compares the number in the response with its own. Its future can be dropped
while it reads; then the response to it stays unread, and the next call takes it for its own.

The server at the other end is any that answers each request at most once, with a response under the
id of the request, in whatever order.

## Main results

* `Ipc.correlated_of_noneStale` — as long as no call follows one that was dropped, every response is
  that of the call it is returned from; and a call that does follow one can get the wrong response
* `Ipc.dropped_shifts` — the run of the second half, from the start
-/

namespace Nullxes

namespace Ipc

open Nullxes.Frame

/-- `ClientError`, as far as `request` returns it. -/
inductive ClientError
  | io
  | decode (error : String)
  | hangup
  | misframed
  deriving DecidableEq, Repr

/-- `Client::request` from the line it has read. -/
def Reader.finish (rd : Reader) (line : List UInt8) : Except ClientError Response :=
  if line = [] then .error .hangup
  else
    match rd.decodeLine line with
    | none => .error .io
    | some (.error e) => .error (.decode e)
    | some (.ok resp) =>
      match resp.direction with
      | .response r => .ok r
      | .request _ => .error .misframed

/-- A call that has returned: its id, the line it read, and its result. -/
structure Outcome where
  id : UInt64
  line : List UInt8
  result : Except ClientError Response

/-- A client, the stream from the server, and what the server has to answer. -/
structure Link where
  /-- `next_id`. -/
  nextId : UInt64
  /-- The id of the call that is reading its line. -/
  awaiting : Option UInt64
  /-- What the server has written and the client has not read. -/
  inbox : List UInt8
  /-- The requests that the server has not answered. -/
  unanswered : List Envelope
  /-- The server has closed the connection. -/
  closed : Bool
  /-- The calls that have returned. -/
  outcomes : List Outcome
  /-- A call was dropped after its bytes were written. -/
  dropped : Bool

inductive LinkEvent
  /-- A call begins and writes its bytes. -/
  | request (req : Request)
  /-- The call that is reading returns. -/
  | receive
  /-- The call that is reading is dropped, with what it had read of a line. -/
  | drop (n : ℕ)
  /-- The server answers a request. -/
  | answer (i : ℕ) (v : UInt8) (response : Response)
  /-- The server closes the connection. -/
  | close

namespace Link

/-- `Client::connect`. -/
def connected : Link := ⟨1, none, [], [], false, [], false⟩

variable (rd : Reader) (s : Link)

/-- `&mut self`: a call begins only when no other is under way. -/
def Enabled : LinkEvent → Prop
  | .request req => s.awaiting = none ∧ req.Fits
  | .receive => s.awaiting.isSome ∧ (0x0a ∈ s.inbox ∨ s.closed = true)
  | .drop n => s.awaiting.isSome ∧ n ≤ s.inbox.length ∧ 0x0a ∉ s.inbox.take n
  | .answer i _ response => i < s.unanswered.length ∧ s.closed = false ∧ response.Fits
  | .close => True

/-- `Client::request` up to its first wait: writing to a closed connection fails. -/
def request (req : Request) : Link :=
  let s' := { s with nextId := s.nextId + 1 }
  if s.closed then { s' with outcomes := s.outcomes ++ [⟨s.nextId, [], .error .io⟩] }
  else
    { s' with
      awaiting := some s.nextId
      unanswered := s.unanswered ++ [Envelope.request s.nextId req] }

/-- `Client::request` from `read_line` on. -/
def receive : Link :=
  match s.awaiting with
  | none => s
  | some id =>
    let (line, rest) := Lines.nextLine 0x0a s.inbox
    { s with
      awaiting := none
      inbox := rest
      outcomes := s.outcomes ++ [⟨id, line, rd.finish line⟩] }

/-- The server answers a request under its id. -/
def answer (i : ℕ) (v : UInt8) (response : Response) : Link :=
  match s.unanswered[i]? with
  | none => s
  | some env =>
    { s with
      inbox := s.inbox ++ Envelope.toLine ⟨v, env.id, .response response⟩
      unanswered := s.unanswered.eraseIdx i }

def step : LinkEvent → Link
  | .request req => s.request req
  | .receive => s.receive rd
  | .drop n => { s with awaiting := none, inbox := s.inbox.drop n, dropped := true }
  | .answer i v response => s.answer i v response
  | .close => { s with closed := true }

end Link

/-- A client and a server that echoes ids. -/
def link (rd : Reader) : EventMachine Link LinkEvent where
  Init s := s = .connected
  Enabled s e := s.Enabled e
  step s e := s.step rd e

/-- If the call returned a response, it is that of an envelope under the id of the call. -/
def Outcome.Correlated (rd : Reader) (o : Outcome) : Prop :=
  ∀ r, o.result = .ok r →
    ∃ env, rd.decodeLine o.line = some (.ok env) ∧ env.id = o.id ∧ env.direction = .response r

namespace Link

def Correlated (rd : Reader) (s : Link) : Prop := ∀ o ∈ s.outcomes, o.Correlated rd

/-- A call begins on an open connection only if none was dropped before. -/
def NoneStale (s : Link) : LinkEvent → Prop
  | .request _ => s.closed = true ∨ s.dropped = false
  | _ => True

/-! ## What is outstanding

Until a call follows a dropped one, at most one request or response is on its way, and it is that of
the last call. -/

/-- The states of such a link. -/
inductive Phase (s : Link) : Prop
  | idle (awaiting : s.awaiting = none) (unanswered : s.unanswered = []) (inbox : s.inbox = [])
      (dropped : s.dropped = false)
  | asked (env : Envelope) (awaiting : s.awaiting = some env.id) (next : s.nextId = env.id + 1)
      (unanswered : s.unanswered = [env]) (inbox : s.inbox = []) (dropped : s.dropped = false)
  | answered (v : UInt8) (id : UInt64) (resp : Response) (awaiting : s.awaiting = some id)
      (next : s.nextId = id + 1) (unanswered : s.unanswered = []) (fits : resp.Fits)
      (inbox : s.inbox = Envelope.toLine ⟨v, id, .response resp⟩) (dropped : s.dropped = false)
  /-- The call was dropped before its response came. -/
  | abandoned (env : Envelope) (awaiting : s.awaiting = none) (next : s.nextId = env.id + 1)
      (unanswered : s.unanswered = [env]) (inbox : s.inbox = []) (dropped : s.dropped = true)
  /-- The rest of a response to a call that was dropped. -/
  | leftOver (awaiting : s.awaiting = none) (unanswered : s.unanswered = [])
      (inbox : Lines.IsLine 0x0a s.inbox) (dropped : s.dropped = true)
  | ended (awaiting : s.awaiting = none) (closed : s.closed = true)

end Link

@[simp] theorem Reader.finish_nil (rd : Reader) : rd.finish [] = .error .hangup := rfl

theorem Reader.finish_toLine (rd : Reader) {v : UInt8} {id : UInt64} {resp : Response}
    (h : resp.Fits) : rd.finish (Envelope.toLine ⟨v, id, .response resp⟩) = .ok resp := by
  have hfits : Envelope.Fits ⟨v, id, .response resp⟩ := h
  rw [Reader.finish, if_neg (Envelope.isLine_toLine _).ne_nil, rd.decodeLine_toLine hfits]

theorem Outcome.correlated_error (rd : Reader) (id : UInt64) (line : List UInt8)
    (error : ClientError) : Outcome.Correlated rd ⟨id, line, .error error⟩ := by
  intro r hr
  cases hr

/-- A response that has its own line is correlated exactly when the ids agree. -/
theorem Outcome.correlated_toLine (rd : Reader) {v : UInt8} {id id' : UInt64} {resp : Response}
    (h : resp.Fits) :
    Outcome.Correlated rd
        ⟨id', Envelope.toLine ⟨v, id, .response resp⟩,
          rd.finish (Envelope.toLine ⟨v, id, .response resp⟩)⟩ ↔ id = id' := by
  have hfits : Envelope.Fits ⟨v, id, .response resp⟩ := h
  have hdecode := rd.decodeLine_toLine hfits
  have hok : rd.finish (Envelope.toLine ⟨v, id, .response resp⟩) = .ok resp := rd.finish_toLine h
  generalize Envelope.toLine ⟨v, id, .response resp⟩ = line at hdecode hok ⊢
  constructor
  · intro hcorr
    obtain ⟨env, henv, hid, -⟩ := hcorr resp hok
    rw [hdecode] at henv
    cases henv
    exact hid
  · rintro rfl r hr
    rw [hok] at hr
    cases hr
    exact ⟨_, hdecode, rfl, rfl⟩

namespace Link

variable {rd : Reader} {s t : Link}

theorem Correlated.of_outcomes (h : s.Correlated rd) (ht : t.outcomes = s.outcomes) :
    t.Correlated rd := by
  rw [Correlated, ht]
  exact h

theorem correlated_concat {o : Outcome} (ht : t.outcomes = s.outcomes ++ [o]) :
    t.Correlated rd ↔ s.Correlated rd ∧ o.Correlated rd := by
  simp [Correlated, ht, or_imp, forall_and]

/-! ### One step -/

theorem request_of_closed (req : Request) (h : s.closed = true) :
    s.request req =
      { s with
        nextId := s.nextId + 1
        outcomes := s.outcomes ++ [⟨s.nextId, [], .error .io⟩] } := by
  simp [request, h]

theorem request_of_open (req : Request) (h : s.closed = false) :
    s.request req =
      { s with
        nextId := s.nextId + 1
        awaiting := some s.nextId
        unanswered := s.unanswered ++ [Envelope.request s.nextId req] } := by
  simp [request, h]

theorem receive_eq (rd : Reader) {id : UInt64} (h : s.awaiting = some id) :
    s.receive rd =
      { s with
        awaiting := none
        inbox := (Lines.nextLine 0x0a s.inbox).2
        outcomes := s.outcomes ++ [⟨id, (Lines.nextLine 0x0a s.inbox).1,
          rd.finish (Lines.nextLine 0x0a s.inbox).1⟩] } := by
  simp only [receive, h]

theorem answer_zero {env : Envelope} {rest : List Envelope} (v : UInt8) (response : Response)
    (h : s.unanswered = env :: rest) :
    s.answer 0 v response =
      { s with
        inbox := s.inbox ++ Envelope.toLine ⟨v, env.id, .response response⟩
        unanswered := rest } := by
  simp [answer, h]

theorem phase_connected : connected.Phase := .idle rfl rfl rfl rfl

/-- What has begun on an open connection without one that was dropped. -/
theorem Phase.request {req : Request} (h : s.Phase) (he : s.Enabled (.request req))
    (hc : s.NoneStale (.request req)) (hr : s.Correlated rd) :
    (s.request req).Phase ∧ (s.request req).Correlated rd := by
  obtain ⟨hnone, -⟩ := he
  by_cases hclosed : s.closed = true
  · rw [request_of_closed req hclosed]
    refine ⟨.ended hnone hclosed, (correlated_concat rfl).mpr ⟨hr, ?_⟩⟩
    exact Outcome.correlated_error rd s.nextId [] .io
  have hopen : s.closed = false := by simpa using hclosed
  have hdropped : s.dropped = false := hc.resolve_left hclosed
  rw [request_of_open req hopen]
  refine ⟨?_, hr.of_outcomes rfl⟩
  cases h with
  | idle _ hunanswered hinbox _ =>
    exact .asked (Envelope.request s.nextId req) rfl rfl (by simp [hunanswered]) hinbox hdropped
  | asked env hsome => simp [hnone] at hsome
  | answered v id resp hsome => simp [hnone] at hsome
  | abandoned _ _ _ _ _ hd => simp [hdropped] at hd
  | leftOver _ _ _ hd => simp [hdropped] at hd
  | ended _ hcl => simp [hopen] at hcl

theorem Phase.receive (h : s.Phase) (he : s.Enabled .receive) (hr : s.Correlated rd) :
    (s.receive rd).Phase ∧ (s.receive rd).Correlated rd := by
  obtain ⟨hsome, hready⟩ := he
  cases h with
  | asked env hawaiting _ _ hinbox =>
    -- there is no line, so the server has hung up
    have hclosed : s.closed = true := by simpa [hinbox] using hready
    rw [receive_eq rd hawaiting, hinbox]
    refine ⟨.ended rfl hclosed, (correlated_concat rfl).mpr ⟨hr, ?_⟩⟩
    exact Outcome.correlated_error rd env.id [] .hangup
  | answered v id resp hawaiting _ hunanswered hfits hinbox hdropped =>
    rw [receive_eq rd hawaiting, hinbox, Lines.nextLine_isLine (Envelope.isLine_toLine _)]
    refine ⟨.idle rfl hunanswered rfl hdropped, (correlated_concat rfl).mpr ⟨hr, ?_⟩⟩
    exact (Outcome.correlated_toLine rd hfits).mpr rfl
  | idle hnone => simp [hnone] at hsome
  | abandoned _ hnone => simp [hnone] at hsome
  | leftOver hnone => simp [hnone] at hsome
  | ended hnone => simp [hnone] at hsome

theorem Phase.drop {n : ℕ} (h : s.Phase) (he : s.Enabled (.drop n)) :
    (s.step rd (.drop n)).Phase := by
  obtain ⟨hsome, -, hpartial⟩ := he
  cases h with
  | asked env _ hnext hunanswered hinbox _ =>
    exact .abandoned env rfl hnext hunanswered (by simp [step, hinbox]) rfl
  | answered v id resp _ _ hunanswered _ hinbox _ =>
    have hline : Lines.IsLine 0x0a s.inbox := hinbox ▸ Envelope.isLine_toLine _
    exact .leftOver rfl hunanswered (hline.drop hpartial) rfl
  | idle hnone => simp [hnone] at hsome
  | abandoned _ hnone => simp [hnone] at hsome
  | leftOver hnone => simp [hnone] at hsome
  | ended hnone => simp [hnone] at hsome

theorem Phase.answer {i : ℕ} {v : UInt8} {resp : Response} (h : s.Phase)
    (he : s.Enabled (.answer i v resp)) :
    (s.answer i v resp).Phase ∧ (s.answer i v resp).outcomes = s.outcomes := by
  obtain ⟨hi, hopen, hfits⟩ := he
  cases h with
  | asked env hawaiting hnext hunanswered hinbox hdropped =>
    obtain rfl : i = 0 := by simpa [hunanswered] using hi
    rw [answer_zero v resp hunanswered, hinbox]
    exact ⟨.answered v env.id resp hawaiting hnext rfl hfits rfl hdropped, rfl⟩
  | abandoned env hnone hnext hunanswered hinbox hdropped =>
    obtain rfl : i = 0 := by simpa [hunanswered] using hi
    rw [answer_zero v resp hunanswered, hinbox]
    exact ⟨.leftOver hnone rfl (Envelope.isLine_toLine _) hdropped, rfl⟩
  | idle _ hunanswered => simp [hunanswered] at hi
  | answered _ _ _ _ _ hunanswered => simp [hunanswered] at hi
  | leftOver _ hunanswered => simp [hunanswered] at hi
  | ended _ hclosed => simp [hopen] at hclosed

theorem Phase.close (h : s.Phase) : (s.step rd .close).Phase := by
  cases h with
  | idle h₁ h₂ h₃ h₄ => exact .idle h₁ h₂ h₃ h₄
  | asked env h₁ h₂ h₃ h₄ h₅ => exact .asked env h₁ h₂ h₃ h₄ h₅
  | answered v id resp h₁ h₂ h₃ h₄ h₅ h₆ => exact .answered v id resp h₁ h₂ h₃ h₄ h₅ h₆
  | abandoned env h₁ h₂ h₃ h₄ h₅ => exact .abandoned env h₁ h₂ h₃ h₄ h₅
  | leftOver h₁ h₂ h₃ h₄ => exact .leftOver h₁ h₂ h₃ h₄
  | ended h₁ _ => exact .ended h₁ rfl

/-- A step that does not follow a dropped call keeps the pairing. -/
theorem Phase.step {e : LinkEvent} (h : s.Phase ∧ s.Correlated rd) (he : s.Enabled e)
    (hc : s.NoneStale e) : (s.step rd e).Phase ∧ (s.step rd e).Correlated rd := by
  obtain ⟨hphase, hr⟩ := h
  cases e with
  | request req => exact hphase.request he hc hr
  | receive => exact hphase.receive he hr
  | drop n => exact ⟨hphase.drop he, hr.of_outcomes rfl⟩
  | answer i v resp =>
    obtain ⟨hphase', houtcomes⟩ := hphase.answer he
    exact ⟨hphase', hr.of_outcomes houtcomes⟩
  | close => exact ⟨hphase.close, hr.of_outcomes rfl⟩

theorem phase_of_noneStale {es : List LinkEvent} (hl : (link rd).Legal connected es)
    (hc : (link rd).EachStep NoneStale connected es) :
    (link rd).Always (fun s => s.Phase ∧ s.Correlated rd) connected es := by
  have hstart : connected.Phase ∧ connected.Correlated rd :=
    ⟨phase_connected, fun o ho => by cases ho⟩
  exact EventMachine.Always.of_eachStep (fun s e hs he hc => Phase.step hs he hc) hstart hl hc

/-! ### After a dropped call -/

/-- A call that finds the response to another returns it. -/
theorem mispaired (rd : Reader) {v : UInt8} {id id' : UInt64} {resp : Response}
    (hid : id ≠ id') (hawaiting : s.awaiting = some id') (hfits : resp.Fits)
    (hinbox : s.inbox = Envelope.toLine ⟨v, id, .response resp⟩) :
    s.Enabled .receive ∧ ¬ (s.receive rd).Correlated rd := by
  constructor
  · refine ⟨by simp [hawaiting], .inl ?_⟩
    rw [hinbox]
    exact (Envelope.isLine_toLine _).mem
  · rw [receive_eq rd hawaiting, hinbox, Lines.nextLine_isLine (Envelope.isLine_toLine _)]
    intro hcorr
    have hlast := ((correlated_concat rfl).mp hcorr).2
    exact hid ((Outcome.correlated_toLine rd hfits).mp hlast)

/-- The response to a dropped call comes after the next one has begun. -/
theorem exists_mispaired_late (rd : Reader) {req : Request} {env : Envelope}
    (he : s.Enabled (.request req)) (hopen : s.closed = false) (hne : env.id ≠ s.nextId)
    (hunanswered : s.unanswered = [env]) (hinbox : s.inbox = []) :
    ∃ fs, (link rd).Legal s (.request req :: fs) ∧
      ¬ ((link rd).run s (.request req :: fs)).Correlated rd := by
  have hfits : Response.Fits (.ok none) := trivial
  have hrequest := request_of_open req hopen
  have hanswer : (s.request req).answer 0 protocolVersion (.ok none) =
      { s.request req with
        inbox := Envelope.toLine ⟨protocolVersion, env.id, .response (.ok none)⟩
        unanswered := [Envelope.request s.nextId req] } := by
    simp [Link.answer, hrequest, hunanswered, hinbox]
  have hasked : (s.request req).Enabled (.answer 0 protocolVersion (.ok none)) := by
    rw [hrequest]
    exact ⟨by simp, hopen, hfits⟩
  have hawaiting :
      ((s.request req).answer 0 protocolVersion (.ok none)).awaiting = some s.nextId := by
    rw [hanswer, hrequest]
  obtain ⟨hready, hwrong⟩ := mispaired rd hne hawaiting hfits (by rw [hanswer])
  exact ⟨[.answer 0 protocolVersion (.ok none), .receive], ⟨he, hasked, hready, trivial⟩, hwrong⟩

/-- A call that is answered while a line is there takes that line. -/
theorem run_round (rd : Reader) {req : Request} (he : s.Enabled (.request req))
    (hopen : s.closed = false) (hunanswered : s.unanswered = [])
    (hline : Lines.IsLine 0x0a s.inbox) :
    let round : List LinkEvent := [.request req, .answer 0 protocolVersion (.ok none), .receive]
    (link rd).Legal s round ∧
      (link rd).run s round =
        { s with
          nextId := s.nextId + 1
          awaiting := none
          inbox := Envelope.toLine ⟨protocolVersion, s.nextId, .response (.ok none)⟩
          unanswered := []
          outcomes := s.outcomes ++ [⟨s.nextId, s.inbox, rd.finish s.inbox⟩] } := by
  have hrequest := request_of_open req hopen
  have hanswer : (s.request req).answer 0 protocolVersion (.ok none) =
      { s.request req with
        inbox := s.inbox ++ Envelope.toLine ⟨protocolVersion, s.nextId, .response (.ok none)⟩
        unanswered := [] } := by
    simp [Link.answer, hrequest, hunanswered, Envelope.request]
  have hasked : (s.request req).Enabled (.answer 0 protocolVersion (.ok none)) := by
    rw [hrequest]
    exact ⟨by simp, hopen, trivial⟩
  have hready : ((s.request req).answer 0 protocolVersion (.ok none)).Enabled .receive := by
    rw [hanswer, hrequest]
    exact ⟨rfl, .inl (List.mem_append_left _ hline.mem)⟩
  refine ⟨⟨he, hasked, hready, trivial⟩, ?_⟩
  show ((s.request req).answer 0 protocolVersion (.ok none)).receive rd = _
  rw [hanswer, hrequest, receive_eq rd rfl]
  simp only [Lines.nextLine_isLine_append hline]

/-- The rest of a response to a dropped call is there: the next call takes that, and the one after
it takes the response to the next. -/
theorem exists_mispaired_early (rd : Reader) {req : Request} (he : s.Enabled (.request req))
    (hopen : s.closed = false) (hunanswered : s.unanswered = [])
    (hline : Lines.IsLine 0x0a s.inbox) :
    ∃ fs, (link rd).Legal s (.request req :: fs) ∧
      ¬ ((link rd).run s (.request req :: fs)).Correlated rd := by
  obtain ⟨hlegal, hrun⟩ := run_round rd he hopen hunanswered hline
  obtain ⟨t, ht⟩ : ∃ t, (link rd).run s
      [.request req, .answer 0 protocolVersion (.ok none), .receive] = t := ⟨_, rfl⟩
  rw [ht] at hrun
  have hopen' : t.closed = false := by
    rw [hrun]
    exact hopen
  have hfree : t.Enabled (.request .getState) := by
    rw [hrun]
    exact ⟨rfl, trivial⟩
  have hawaiting : (t.request .getState).awaiting = some (s.nextId + 1) := by
    rw [request_of_open .getState hopen', hrun]
  have hinbox : (t.request .getState).inbox =
      Envelope.toLine ⟨protocolVersion, s.nextId, .response (.ok none)⟩ := by
    rw [request_of_open .getState hopen', hrun]
  have hne : s.nextId ≠ s.nextId + 1 := by simp
  have hfits : Response.Fits (.ok none) := trivial
  obtain ⟨hready, hwrong⟩ := mispaired rd hne hawaiting hfits hinbox
  have hagain : (link rd).Legal t [.request .getState, .receive] := ⟨hfree, hready, trivial⟩
  rw [← ht] at hagain hwrong
  exact ⟨[.answer 0 protocolVersion (.ok none), .receive, .request .getState, .receive],
    (EventMachine.legal_append (link rd)).mpr ⟨hlegal, hagain⟩, hwrong⟩

/-- A call after one that was dropped can go wrong, or make the next one go wrong. -/
theorem Phase.exists_mispaired (rd : Reader) {req : Request} (h : s.Phase)
    (he : s.Enabled (.request req)) (hc : ¬ s.NoneStale (.request req)) :
    ∃ fs, (link rd).Legal s (.request req :: fs) ∧
      ¬ ((link rd).run s (.request req :: fs)).Correlated rd := by
  obtain ⟨hopen, hdropped⟩ : s.closed = false ∧ s.dropped = true := by
    simpa [NoneStale] using hc
  cases h with
  | abandoned env _ hnext hunanswered hinbox _ =>
    have hne : env.id ≠ s.nextId := by simp [hnext]
    exact exists_mispaired_late rd he hopen hne hunanswered hinbox
  | leftOver _ hunanswered hline _ =>
    exact exists_mispaired_early rd he hopen hunanswered hline
  | idle _ _ _ hd => simp [hdropped] at hd
  | asked _ _ _ _ _ hd => simp [hdropped] at hd
  | answered _ _ _ _ _ _ _ _ hd => simp [hdropped] at hd
  | ended _ hclosed => simp [hopen] at hclosed

end Link

/-- **Responses are those of their calls as long as none was dropped.** In a run in which no call
begins on an open connection after one that was dropped, every response is returned from the call
under whose id it came. Of every call that does begin after one that was dropped, there is a run in
which it or the next returns the response to another. -/
theorem correlated_of_noneStale (rd : Reader) {es : List LinkEvent}
    (hl : (link rd).Legal .connected es) (hc : (link rd).EachStep Link.NoneStale .connected es) :
    (link rd).Always (Link.Correlated rd) .connected es ∧
      ∀ req, (link rd).Enabled ((link rd).run .connected es) (.request req) →
        ¬ Link.NoneStale ((link rd).run .connected es) (.request req) →
        ∃ fs, (link rd).Legal .connected (es ++ .request req :: fs) ∧
          ¬ (link rd).Always (Link.Correlated rd) .connected (es ++ .request req :: fs) := by
  have halways := Link.phase_of_noneStale hl hc
  refine ⟨halways.mono fun s hs => hs.2, fun req he hstale => ?_⟩
  obtain ⟨fs, hlegal, hwrong⟩ := halways.last.1.exists_mispaired rd he hstale
  refine ⟨fs, (EventMachine.legal_append _).mpr ⟨hl, hlegal⟩, fun hall => hwrong ?_⟩
  rw [← EventMachine.run_append]
  exact hall.last

/-- A call that is answered. -/
def answeredCall : List LinkEvent :=
  [.request .getState, .answer 0 protocolVersion (.ok none), .receive]

theorem correlated_of_noneStale_answeredCall :
    (link .lax).Always (Link.Correlated .lax)
      .connected answeredCall := by
  have hready : 0x0a ∈ Envelope.toLine ⟨protocolVersion, 1, .response (.ok none)⟩ :=
    (Envelope.isLine_toLine _).mem
  have hlegal : (link .lax).Legal .connected answeredCall :=
    ⟨⟨rfl, trivial⟩, ⟨by decide, rfl, trivial⟩, ⟨rfl, .inl hready⟩, trivial⟩
  have hnone : (link .lax).EachStep Link.NoneStale .connected answeredCall := by
    simp [answeredCall, EventMachine.eachStep_cons, Link.NoneStale, Link.connected]
  exact (correlated_of_noneStale _ hlegal hnone).1

/-- The response to a call for the state. -/
def stateResponse : Response := .ok (some (.state ⟨9, 0, [], false⟩))

/-- A call for the state is dropped, and the response to it comes when the next call reads. -/
def droppedCall : List LinkEvent :=
  [.request .getState, .drop 0, .request (.switchWorkspace 3),
    .answer 0 protocolVersion stateResponse, .receive]

/-- The call that switches the workspace returns the state. -/
theorem dropped_shifts :
    (link .lax).Init .connected ∧ (link .lax).Legal .connected droppedCall ∧
      ((link .lax).run .connected droppedCall).outcomes.map (fun o => (o.id, o.result)) =
        [(2, .ok stateResponse)] ∧
      ¬ (link .lax).Always (Link.Correlated .lax) .connected droppedCall := by
  obtain ⟨t, ht⟩ : ∃ t : Link, t =
      { nextId := 3, awaiting := some 2, outcomes := [], closed := false, dropped := true,
        inbox := Envelope.toLine ⟨protocolVersion, 1, .response stateResponse⟩,
        unanswered := [Envelope.request 2 (.switchWorkspace 3)] } := ⟨_, rfl⟩
  have hrun : (link .lax).run .connected (droppedCall.take 4) = t := by
    rw [ht]
    rfl
  have hfits : stateResponse.Fits := by
    show 9 < UInt64.size ∧ 0 < UInt64.size ∧ ∀ i ∈ [], i < UInt64.size
    decide
  have hawaiting : t.awaiting = some 2 := by rw [ht]
  have hinbox : t.inbox = Envelope.toLine ⟨protocolVersion, 1, .response stateResponse⟩ := by
    rw [ht]
  have hlegal : (link .lax).Legal .connected (droppedCall.take 4) :=
    ⟨⟨rfl, trivial⟩, ⟨rfl, by simp, by simp⟩, ⟨rfl, (by decide : 3 < UInt64.size)⟩,
      ⟨by decide, rfl, hfits⟩, trivial⟩
  have hreturn : (link .lax).run .connected droppedCall = t.receive .lax := by
    rw [← hrun]
    rfl
  obtain ⟨hready, hwrong⟩ := Link.mispaired .lax (by decide) hawaiting hfits hinbox
  refine ⟨rfl, ?_, ?_, fun halways => hwrong ?_⟩
  · have hreads : (link .lax).Legal t [.receive] := ⟨hready, trivial⟩
    rw [← hrun] at hreads
    exact (EventMachine.legal_append _).mpr ⟨hlegal, hreads⟩
  · rw [hreturn, Link.receive_eq .lax hawaiting, hinbox,
      Lines.nextLine_isLine (Envelope.isLine_toLine _)]
    simp [ht, Reader.finish_toLine .lax hfits]
  · rw [← hreturn]
    exact halways.last

end Ipc

end Nullxes
