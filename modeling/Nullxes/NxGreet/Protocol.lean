import Nullxes.Library.Logs
import Nullxes.NxGreet.Redraw

/-!
# The conversation with greetd

What the greeter says to greetd over a reliable connection. A session is being configured from its
`CreateSession` to the next `CancelSession`; the greeter has no field for it, but between two keys
`awaiting_response` says whether there is one, and `pending` stays on once greetd has said yes.

## Main definitions

* `Conversation`, `protocolLaw` — the session being configured, and what may be asked of it
* `Phase` — the part of the greeter that the conversation depends on
* `GreetState.Moves` — what an event can do to it
* `greeter` — the greeter under the events of the compositor

## Main results

* `GreetState.moves_dispatch` — everything the greeter does is one of the moves
* `greeter_obeys_protocol` — nothing is asked out of turn
-/

namespace Nullxes

namespace NxGreet

open Wlcommon

/-! ## The protocol -/

/-- The session being configured, if there is one, and its last answer. -/
inductive Conversation
  | idle
  | last (answer : Answer)
  deriving DecidableEq, Repr

/-- What an exchange does to the session. -/
def Conversation.next (c : Conversation) (x : Exchange) : Conversation :=
  match x.request, c with
  | .createSession _, _ => .last x.answer
  | .cancelSession, _ => .idle
  | _, .idle => .idle
  | _, .last _ => .last x.answer

/-- The conversation after these exchanges. -/
def conversation (past : List Exchange) : Conversation := past.foldl Conversation.next .idle

/-- **The law.** A session is created when there is none, a question is answered when it is the last
thing that was said, and a session is started right after greetd has said yes. -/
def protocolLaw (past : List Exchange) (x : Exchange) : Prop :=
  match x.request with
  | .createSession _ => conversation past = .idle
  | .postAuthMessageResponse _ =>
    ∃ ty message, conversation past = .last (.response (.authMessage ty message))
  | .startSession .. => conversation past = .last (.response .success) ∧
    past.getLast?.map Exchange.answer = some (.response .success)
  | .cancelSession => True

@[simp] theorem conversation_concat (past : List Exchange) (x : Exchange) :
    conversation (past ++ [x]) = (conversation past).next x := by
  simp [conversation]

/-! ## Phases -/

/-- What `GreetState` knows of the conversation. -/
structure Phase where
  greetd : Bool
  username : String
  pending : Bool
  awaitingResponse : Bool
  link : Link
  exchanged : List Exchange

/-- The other end can answer so. -/
def Link.Gives (l : Link) (a : Answer) : Prop := ∃ n, l.answers n = a

/-- What an attempt to say something leaves on the connection. -/
def said (r : Request) (a : Answer) (shown : String) : List Exchange :=
  match a with
  | .unwritten _ => []
  | _ => [⟨r, a, shown⟩]

namespace Phase

/-- Something is said to greetd. -/
def heard (p : Phase) (r : Request) (a : Answer) : Phase :=
  { p with exchanged := p.exchanged ++ said r a p.username }

/-- What a submission asks in this phase. -/
def Asks (p : Phase) : Request → Prop
  | .createSession username => p.awaitingResponse = false ∧ username = p.username
  | .postAuthMessageResponse _ => p.awaitingResponse = true
  | _ => False

/-- What is made of an answer; `b` is the answer to what follows. -/
def answered (p : Phase) (a b : Answer) : Phase :=
  match a with
  | .response (.authMessage ..) => { p with awaitingResponse := true, pending := false }
  | .response .success => p.heard (.startSession sessionCmd []) b
  | .response (.error ..) =>
    { p.heard .cancelSession b with awaitingResponse := false, pending := false }
  | _ => { p with pending := false }

/-- A submission. -/
def submitted (p : Phase) (r : Request) (a b : Answer) : Phase :=
  { p.heard r a with greetd := true, pending := true }.answered a b

/-- The form is cleared. -/
def escaped (p : Phase) (a : Answer) : Phase :=
  let q := { p with username := "", awaitingResponse := false }
  if p.greetd then q.heard .cancelSession a else q

end Phase

namespace GreetState

variable {s : GreetState}

/-- The phase of a greeter. -/
def phase (s : GreetState) : Phase :=
  ⟨s.greetd, s.username, s.pending, s.awaitingResponse, s.link, s.exchanged⟩

/-- The event edits the user name: text for it, or a Backspace that finds something to delete. -/
def editsName (s : GreetState) : ServerEvent → Bool
  | .key key true =>
    s.focus = .username &&
      match s.keymap.processKey key with
      | .text _ => true
      | .action .backspace => s.username ≠ ""
      | _ => false
  | _ => false

/-- What an event can do to the phase. -/
inductive Moves (s : GreetState) (e : ServerEvent) : Phase → Prop
  | same : s.Moves e s.phase
  | edited (name : String) (h : s.editsName e = false → name = s.username) :
      s.Moves e { s.phase with username := name }
  | escaped (a : Answer) (ha : s.link.Gives a) : s.Moves e (s.phase.escaped a)
  | submitted (r : Request) (a b : Answer) (hr : s.phase.Asks r) (hp : s.pending = false)
      (ha : s.link.Gives a) (hb : s.link.Gives b) : s.Moves e (s.phase.submitted r a b)

@[simp] theorem phase_redraw (s : GreetState) : s.redraw.phase = s.phase := by
  rcases s.redraw_cases with h | ⟨shm, buffer, made, commit, _, h, _⟩
  · rw [h]
  · rw [h]
    rfl

/-- A request leaves what was said, and the rest of the form. -/
theorem talk_eq (s : GreetState) (r : Request) :
    s.talk r =
      ({ s with
          asked := s.asked + 1
          exchanged := s.exchanged ++ said r (s.link.answers s.asked) s.username },
        s.link.answers s.asked) := by
  rw [talk]
  cases h : s.link.answers s.asked <;> simp [said]

theorem phase_talk (s : GreetState) (r : Request) :
    (s.talk r).1.phase = s.phase.heard r (s.link.answers s.asked) := by
  rw [talk_eq]
  rfl

theorem phase_submitRequest (s : GreetState) :
    ∃ r, s.phase.Asks r ∧ s.submitRequest.2 = s.link.answers s.asked ∧
      s.submitRequest.1.phase = s.phase.heard r (s.link.answers s.asked) := by
  unfold submitRequest
  cases h : s.awaitingResponse with
  | false =>
    refine ⟨.createSession s.username, ⟨h, rfl⟩, ?_, ?_⟩
    · simp [talk_eq]
    · simp [phase_talk]
  | true =>
    refine ⟨.postAuthMessageResponse (if s.password.isEmpty then none else some s.password), h,
      ?_, ?_⟩
    · simp [talk_eq]
    · simp [talk_eq, phase, Phase.heard, h]

theorem phase_submitAnswer (hg : s.greetd = true) (a : Answer) :
    ∃ b, s.link.Gives b ∧ (s.submitAnswer a).phase = s.phase.answered a b := by
  refine ⟨s.link.answers s.asked, ⟨s.asked, rfl⟩, ?_⟩
  match a with
  | .response (.authMessage ..) => rfl
  | .response .success =>
    simp [submitAnswer, classify, startSession, talk_eq, phase, Phase.answered, Phase.heard, hg]
  | .response (.error ..) =>
    simp [submitAnswer, classify, cancel, talk_eq, phase, Phase.answered, Phase.heard, hg]
  | .unwritten _ => rfl
  | .unread _ => rfl

theorem submitOver_eq (s : GreetState) :
    s.submitOver =
      ({ s with pending := true }.submitRequest.1.submitAnswer
        { s with pending := true }.submitRequest.2).redraw :=
  rfl

/-- `submit` once it is connected. -/
theorem phase_submitOver (s : GreetState) :
    ∃ r a b, s.phase.Asks r ∧ s.link.Gives a ∧ s.link.Gives b ∧
      { s with greetd := true }.submitOver.phase = s.phase.submitted r a b := by
  set t : GreetState := { s with greetd := true, pending := true } with ht
  obtain ⟨r, hr, ha, hphase⟩ := t.phase_submitRequest
  have hlink : t.submitRequest.1.link = s.link := congrArg Phase.link hphase
  have hgreetd : t.submitRequest.1.greetd = true := congrArg Phase.greetd hphase
  obtain ⟨b, hb, hanswer⟩ := phase_submitAnswer hgreetd (s.link.answers s.asked)
  refine ⟨r, s.link.answers s.asked, b, hr, ⟨s.asked, rfl⟩, hlink ▸ hb, ?_⟩
  rw [submitOver_eq, phase_redraw, ha, hanswer, hphase]
  rfl

theorem submit_moves (s : GreetState) (e : ServerEvent) : s.Moves e s.submit.phase := by
  unfold submit
  split
  · exact .same
  next hp =>
  have hp : s.pending = false := by simpa using hp
  split
  · rw [phase_redraw]
    exact .same
  split
  · dsimp only
    split
    · obtain ⟨r, a, b, hr, ha, hb, heq⟩ :=
        phase_submitOver { s with attempts := s.attempts + 1 }
      rw [heq]
      exact .submitted r a b hr hp ha hb
    · rw [phase_redraw]
      exact .same
  next hg =>
  obtain ⟨r, a, b, hr, ha, hb, heq⟩ := phase_submitOver s
  have hself : s = { s with greetd := true } := by
    have hg : s.greetd = true := by simpa using hg
    rw [← hg]
  rw [hself, heq]
  exact .submitted r a b hr hp ha hb

theorem escape_moves (s : GreetState) (e : ServerEvent) :
    s.Moves e (s.handleAction .escape).phase := by
  have heq : (s.handleAction .escape).phase = s.phase.escaped (s.link.answers s.asked) := by
    rw [handleAction, phase_redraw]
    dsimp only [Phase.escaped, phase]
    split
    · rw [cancel, talk_eq]
      rfl
    · rfl
  rw [heq]
  exact .escaped _ ⟨s.asked, rfl⟩

theorem action_moves (s : GreetState) {e : ServerEvent} {action : Action}
    (he : action = .backspace → s.focus = .username → s.username ≠ "" → s.editsName e = true) :
    s.Moves e (s.handleAction action).phase := by
  cases action with
  | tab =>
    rw [handleAction, phase_redraw]
    exact .same
  | backspace =>
    rw [handleAction]
    split
    next hf =>
      rw [phase_redraw]
      refine .edited _ fun hno => ?_
      have hempty : s.username = "" := by
        by_contra hne
        rw [he rfl hf hne] at hno
        cases hno
      rw [hempty]
      rfl
    · rw [phase_redraw]
      exact .same
  | enter =>
    rw [handleAction]
    split
    · rw [phase_redraw]
      exact .same
    · exact s.submit_moves e
  | escape => exact s.escape_moves e
  | _ =>
    rw [handleAction, phase_redraw]
    · exact .same
    all_goals simp

theorem text_moves (s : GreetState) {e : ServerEvent} {text : String}
    (he : s.focus = .username → s.editsName e = true) : s.Moves e (s.handleText text).phase := by
  rw [handleText]
  split
  · exact .same
  split
  next hf =>
    rw [phase_redraw]
    exact .edited _ fun hno => absurd (he hf) (by rw [hno]; decide)
  · rw [phase_redraw]
    exact .same

/-- **Everything the greeter does is one of the moves.** -/
theorem moves_dispatch (s : GreetState) (e : ServerEvent) : s.Moves e (s.dispatch e).phase := by
  cases e with
  | ping serial => exact .same
  | configure serial =>
    rw [dispatch, dispatchConfigure, phase_redraw]
    exact .same
  | toplevelConfigure width height =>
    rw [dispatch, dispatchToplevel]
    split <;> split <;> exact .same
  | close => exact .same
  | capabilities keyboard =>
    rw [dispatch, dispatchCapabilities]
    split <;> exact .same
  | keymap xkbV1 loaded =>
    rw [dispatch]
    split <;> exact .same
  | modifiers mods => exact .same
  | release wlBuf => exact .same
  | other => exact .same
  | key key pressed =>
    rw [dispatch, dispatchKey]
    split
    next hpressed =>
      split
      next action hkey =>
        refine s.action_moves fun hback hf hne => ?_
        simp [editsName, hpressed, hkey, hback, hf, hne]
      next text hkey =>
        refine s.text_moves fun hf => ?_
        simp [editsName, hpressed, hkey, hf]
      · exact .same
    · exact .same

end GreetState

/-! ## The greeter -/

/-- The greeter on a compositor whose shared memory fails as told, with this other end. -/
def greeter (failure : ℕ → Option String) (link : Link) : EventMachine GreetState ServerEvent where
  Init s := s = (GreetState.new failure link).initSurface
  Enabled _ _ := True
  step := GreetState.dispatch

theorem greeter_legal (failure : ℕ → Option String) (link : Link) (s : GreetState)
    (es : List ServerEvent) : (greeter failure link).Legal s es :=
  EventMachine.legal_of_enabled (fun _ _ => trivial) s es

/-- Every exchange is answered. -/
def Link.Reliable (l : Link) : Prop := ∀ n, ∃ r, l.answers n = .response r

theorem Link.Reliable.response {l : Link} {a : Answer} (h : l.Reliable) (ha : l.Gives a) :
    ∃ r, a = .response r := by
  obtain ⟨n, rfl⟩ := ha
  exact h n

/-- Nothing was out of turn, and between two events `awaiting_response` says which turn it is. -/
structure Phase.InTurn (p : Phase) : Prop where
  reliable : p.link.Reliable
  lawful : Logs.Lawful protocolLaw p.exchanged
  unconnected : p.greetd = false → conversation p.exchanged = .idle
  awaited : p.pending = false → p.awaitingResponse = true →
    ∃ ty message, conversation p.exchanged = .last (.response (.authMessage ty message))
  idle : p.pending = false → p.awaitingResponse = false → conversation p.exchanged = .idle

namespace Phase.InTurn

variable {p : Phase} {r : Response}

theorem escaped (h : p.InTurn) {a : Answer} (ha : p.link.Gives a) : (p.escaped a).InTurn := by
  obtain ⟨r, rfl⟩ := h.reliable.response ha
  unfold Phase.escaped
  cases hg : p.greetd with
  | false =>
    exact ⟨h.reliable, h.lawful, fun _ => h.unconnected hg, nofun, fun _ _ => h.unconnected hg⟩
  | true =>
    have hidle : conversation (p.exchanged ++ said .cancelSession (.response r) "") = .idle :=
      conversation_concat _ _
    exact ⟨h.reliable, Logs.lawful_concat.mpr ⟨h.lawful, trivial⟩, fun _ => hidle, nofun,
      fun _ _ => hidle⟩

/-- What a submission asks is in turn, and its answer is the last of the session. -/
theorem asks (h : p.InTurn) (hp : p.pending = false) {q : Request} (hq : p.Asks q) (r : Response) :
    Logs.Lawful protocolLaw (p.heard q (.response r)).exchanged ∧
      conversation (p.heard q (.response r)).exchanged = .last (.response r) := by
  have hheard : (p.heard q (.response r)).exchanged =
      p.exchanged ++ [⟨q, .response r, p.username⟩] := rfl
  rw [hheard, Logs.lawful_concat, conversation_concat]
  cases q with
  | createSession username => exact ⟨⟨h.lawful, h.idle hp hq.1⟩, rfl⟩
  | postAuthMessageResponse response =>
    obtain ⟨ty, message, hlast⟩ := h.awaited hp hq
    exact ⟨⟨h.lawful, ty, message, hlast⟩, by rw [hlast]; rfl⟩
  | startSession cmd env => exact hq.elim
  | cancelSession => exact hq.elim

theorem submitted (h : p.InTurn) (hp : p.pending = false) {q : Request} (hq : p.Asks q)
    {a b : Answer} (ha : p.link.Gives a) (hb : p.link.Gives b) : (p.submitted q a b).InTurn := by
  obtain ⟨r, rfl⟩ := h.reliable.response ha
  obtain ⟨t, rfl⟩ := h.reliable.response hb
  obtain ⟨hlawful, hlast⟩ := h.asks hp hq r
  cases r with
  | authMessage ty message =>
    exact ⟨h.reliable, hlawful, nofun, fun _ _ => ⟨ty, message, hlast⟩, nofun⟩
  | success =>
    have hlaw : protocolLaw (p.heard q (.response .success)).exchanged
        ⟨.startSession sessionCmd [], .response t, p.username⟩ :=
      ⟨hlast, by simp [Phase.heard, said]⟩
    exact ⟨h.reliable, Logs.lawful_concat.mpr ⟨hlawful, hlaw⟩, nofun, nofun, nofun⟩
  | error ty description =>
    have hidle : conversation ((p.heard q (.response (.error ty description))).exchanged ++
        [⟨.cancelSession, .response t, p.username⟩]) = .idle :=
      conversation_concat _ _
    exact ⟨h.reliable, Logs.lawful_concat.mpr ⟨hlawful, trivial⟩, nofun, nofun,
      fun _ _ => hidle⟩

/-- No move is out of turn. -/
theorem moves {s : GreetState} {e : ServerEvent} {p : Phase} (h : s.phase.InTurn)
    (hm : s.Moves e p) : p.InTurn := by
  cases hm with
  | same => exact h
  | edited name _ => exact ⟨h.reliable, h.lawful, h.unconnected, h.awaited, h.idle⟩
  | escaped a ha => exact h.escaped ha
  | submitted r a b hr hp ha hb => exact h.submitted hp hr ha hb

end Phase.InTurn

/-- **The greeter obeys the protocol.** Whatever is typed and whatever greetd answers, over a
connection on which every exchange is answered: a session is created when there is none, a question
is answered when it was the last thing said, and a session is started right after a yes. -/
theorem greeter_obeys_protocol (failure : ℕ → Option String) {link : Link} (hlink : link.Reliable)
    {es : List ServerEvent} :
    (greeter failure link).Always (fun s => Logs.Lawful protocolLaw s.exchanged)
      (GreetState.new failure link).initSurface es := by
  have hstart : (GreetState.new failure link).initSurface.phase.InTurn :=
    ⟨hlink, Logs.lawful_nil, fun _ => rfl, nofun, fun _ _ => rfl⟩
  have hall : (greeter failure link).Always (fun s => s.phase.InTurn)
      (GreetState.new failure link).initSurface es :=
    .of_invariant (fun s e hs _ => hs.moves (s.moves_dispatch e)) hstart
      (greeter_legal failure link _ es)
  exact hall.mono fun s hs => hs.lawful

/-- Key codes for `a`, Enter, Backspace and Tab. -/
def loginKeymap : Keymap where
  oneSym _ key :=
    if key = 38 then 0x61 else if key = 36 then 0xff0d else if key = 22 then 0xff08
    else if key = 23 then 0xff09 else 0
  utf8 _ key := if key = 38 then "a" else ""

/-- A greetd that asks for a password and is then content. -/
def passwordLink : Link where
  connects _ := .ok ()
  answers n := if n = 0 then .response (.authMessage .secret "Password:") else .response .success

/-- A name and a password are entered. -/
def login : List ServerEvent :=
  [.keymap true (some loginKeymap), .key 30 true, .key 28 true, .key 28 true, .key 30 true,
    .key 28 true]

theorem greeter_obeys_protocol_login :
    (greeter (fun _ => none) passwordLink).Always
        (fun s => Logs.Lawful protocolLaw s.exchanged)
        (GreetState.new (fun _ => none) passwordLink).initSurface login ∧
      ((greeter (fun _ => none) passwordLink).run
          (GreetState.new (fun _ => none) passwordLink).initSurface login).exchanged.map
          Exchange.request =
        [.createSession "a", .postAuthMessageResponse (some "a"), .startSession sessionCmd []] :=
  ⟨greeter_obeys_protocol (fun _ => none) fun n => by
    cases n with
    | zero => exact ⟨_, rfl⟩
    | succ n => exact ⟨_, rfl⟩, by decide⟩

end NxGreet

end Nullxes
