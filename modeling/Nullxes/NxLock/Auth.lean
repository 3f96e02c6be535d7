import Nullxes.Library.EventMachine
import Nullxes.NxLock.Process
import Nullxes.NxLock.Repaint

/-!
# One password at a time

What the lock client does with a password, over every interleaving of the events it dispatches, the
steps of the PAM worker and the rounds of the loop of `poll_auth`.

The argument is about a handful of fields. `Prompt` is those fields and `Prompt.react` what typing
does to them; `LockState.prompt_dispatch` says that `dispatch` does to the prompt what the typing in
the event does, repainting included. Of the prompt the invariant is a few lines: what is in flight
sits in one of the two channels or with the worker, and `pending` says whether there is anything.

## Main definitions

* `Session` — the state with everything asked of PAM and every result taken so far
* `lockClient` — the client with its worker
* `Session.OneAtATime` — what is in flight, and what that means for the prompt

## Main results

* `LockState.prompt_dispatch`, `lockClient_prompt` — the client's prompt is a `Prompt`
* `auth_one_at_a_time` — one request at a time, with the count of the failures
-/

namespace Nullxes

namespace NxLock

open Wlcommon

/-! ## The client and its worker -/

/-- One round of the loop of `poll_auth`; without a result the loop is over. -/
def LockState.tryRecv (s : LockState) : LockState :=
  match s.results with
  | [] => s
  | r :: rest => { s with results := rest }.takeResult r

/-- A poll with one result at most is one round. -/
theorem LockState.pollAuth_eq_tryRecv {s : LockState} (h : s.results.length ≤ 1) :
    s.pollAuth = s.tryRecv := by
  rw [pollAuth, tryRecv]
  match hres : s.results with
  | [] => exact congrArg (fun r => { s with results := r }) hres.symm
  | [r] => rfl
  | _ :: _ :: _ =>
    rw [hres, List.length_cons, List.length_cons] at h
    omega

/-- A state, with the requests sent to the worker and the results taken from it so far. -/
structure Session (σ : Type) where
  state : σ
  asked : List AuthRequest
  taken : List AuthResult

/-- The steps of the client and of its worker; `ε` is what the client dispatches. -/
inductive Exchange (ε : Type)
  | dispatch (ev : ε)
  /-- The worker receives a request. -/
  | takeRequest
  /-- The worker sends what PAM said. -/
  | answer (result : AuthResult)
  /-- A round of `poll_auth`. The worker can go on between two rounds. -/
  | tryRecv

namespace Session

/-- What was asked of the worker in a step that left these requests. -/
def ask {σ : Type} (s : Session σ) (before after : List AuthRequest) : List AuthRequest :=
  s.asked ++ after.drop before.length

/-- What `Exchange` does. -/
def exchange (s : Session LockState) : Exchange ServerEvent → Session LockState
  | .dispatch ev =>
    ⟨s.state.dispatch ev, s.ask s.state.requests (s.state.dispatch ev).requests, s.taken⟩
  | .takeRequest => { s with state := Process.takeRequest s.state }
  | .answer result =>
    { s with state := { s.state with checking := none, results := s.state.results ++ [result] } }
  | .tryRecv => ⟨s.state.tryRecv, s.asked, s.taken ++ s.state.results.head?.toList⟩

/-- The worker receives when it is idle and answers when it is not. -/
def canExchange {ε : Type} (checking : Option AuthRequest) (requests : List AuthRequest) :
    Exchange ε → Bool
  | .dispatch _ | .tryRecv => true
  | .takeRequest => checking.isNone && !requests.isEmpty
  | .answer _ => checking.isSome

/-- How often PAM said no. -/
def fails {σ : Type} (s : Session σ) : ℕ := s.taken.countP (· ≠ .ok)

/-- What is in flight: sent, and its result not taken. -/
def inFlight {σ : Type} (s : Session σ) : ℕ := s.asked.length - s.taken.length

end Session

/-- The client before its loop. -/
def engaged (username : String) (failure : ℕ → Option String) : Session LockState :=
  ⟨(LockState.new username failure).engage, [], []⟩

/-- The client with its worker. -/
def lockClient (username : String) (failure : ℕ → Option String) :
    EventMachine (Session LockState) (Exchange ServerEvent) where
  Init s := s = engaged username failure
  Enabled s e := Session.canExchange s.state.checking s.state.requests e
  step := Session.exchange

/-! ## The prompt -/

/-- What is typed, as far as the prompt goes. -/
inductive Gesture
  | text (t : String)
  | enter
  | backspace
  | escape
  | other
  deriving DecidableEq, Repr

/-- What a symbol is to the prompt. -/
def Gesture.ofSymbol : KeySymbol → Gesture
  | .action .enter => .enter
  | .action .backspace => .backspace
  | .action .escape => .escape
  | .text t => .text t
  | _ => .other

/-- The fields of `LockState` that a password goes through. -/
structure Prompt where
  username : String
  password : String
  failCount : UInt32
  pending : Bool
  requests : List AuthRequest
  checking : Option AuthRequest
  results : List AuthResult
  deriving DecidableEq, Repr

namespace Prompt

variable (p : Prompt)

/-- Enter. -/
def submit : Prompt :=
  if p.password.isEmpty || p.pending then p
  else
    { p with
      pending := true
      requests := p.requests ++ [⟨p.username, p.password⟩]
      password := "" }

/-- What typing does. -/
def react : Gesture → Prompt
  | .text t => if p.pending then p else { p with password := p.password ++ t }
  | .enter => p.submit
  | .backspace => { p with password := String.ofList p.password.toList.dropLast }
  | .escape => { p with password := "" }
  | .other => p

/-- What a result does. -/
def take : AuthResult → Prompt
  | .ok => { p with pending := false }
  | .fail _ => { p with pending := false, failCount := p.failCount + 1, password := "" }

/-- A round of the loop. -/
def tryRecv : Prompt :=
  match p.results with
  | [] => p
  | r :: rest => { p with results := rest }.take r

/-- The worker receives. -/
def takeRequest : Prompt :=
  match p.requests with
  | [] => p
  | r :: rest => { p with requests := rest, checking := some r }

end Prompt

namespace LockState

variable (s : LockState)

/-- The prompt of a client. -/
def prompt : Prompt :=
  ⟨s.username, s.password, s.failCount, s.pending, s.requests, s.checking, s.results⟩

/-- What an event types. -/
def gesture : ServerEvent → Gesture
  | .key key true => .ofSymbol (s.keymap.processKey key)
  | _ => .other

/-- Painting changes the outputs and what was requested. -/
@[simp] theorem prompt_repaintOutput (i : ℕ) : (s.repaintOutput i).prompt = s.prompt := by
  rcases s.repaintOutput_cases i with h | ⟨out, shm, buffer, made, commit, -, -, h, -⟩
  · rw [h]
  · rw [h]
    rfl

theorem prompt_foldl {α : Type} {f : LockState → α → LockState}
    (h : ∀ s a, (f s a).prompt = s.prompt) (l : List α) : (l.foldl f s).prompt = s.prompt := by
  induction l generalizing s with
  | nil => rfl
  | cons a l ih => rw [List.foldl_cons, ih, h]

@[simp] theorem prompt_repaintAll : s.repaintAll.prompt = s.prompt :=
  prompt_foldl s prompt_repaintOutput _

@[simp] theorem prompt_createLockSurfaceFor (i : ℕ) (lock : Proxy) :
    (s.createLockSurfaceFor i lock).prompt = s.prompt := by
  simp only [createLockSurfaceFor]
  split
  · rfl
  · split <;> rfl

theorem prompt_takeResult (r : AuthResult) : (s.takeResult r).prompt = s.prompt.take r := by
  cases r with
  | ok =>
    simp only [takeResult]
    split <;> rfl
  | fail reason => exact prompt_repaintAll _

theorem prompt_tryRecv : s.tryRecv.prompt = s.prompt.tryRecv := by
  rw [tryRecv, Prompt.tryRecv, show s.prompt.results = s.results from rfl]
  split
  · rfl
  · exact prompt_takeResult _ _

theorem prompt_takeRequest : (Process.takeRequest s).prompt = s.prompt.takeRequest := by
  rw [Process.takeRequest, Prompt.takeRequest, show s.prompt.requests = s.requests from rfl]
  cases s.requests <;> rfl

theorem prompt_submitPassword : s.submitPassword.prompt = s.prompt.submit := by
  rw [submitPassword, Prompt.submit, show s.prompt.password = s.password from rfl,
    show s.prompt.pending = s.pending from rfl]
  split
  · rfl
  · -- What is sent is read from the state after the repaint.
    set t := ({ s with pending := true } : LockState).repaintAll
    have ht : t.prompt = { s.prompt with pending := true } := prompt_repaintAll _
    show ({ t.prompt with
      requests := t.prompt.requests ++ [⟨t.prompt.username, t.prompt.password⟩]
      password := "" } : Prompt) = _
    rw [ht]
    rfl

theorem prompt_handleText (t : String) : (s.handleText t).prompt = s.prompt.react (.text t) := by
  simp only [handleText, Prompt.react, show s.prompt.pending = s.pending from rfl]
  cases s.pending with
  | false => exact prompt_repaintAll _
  | true => rfl

theorem prompt_dispatchKey (key : UInt32) :
    (s.dispatchKey key true).prompt = s.prompt.react (.ofSymbol (s.keymap.processKey key)) := by
  rw [dispatchKey, if_pos rfl]
  cases s.keymap.processKey key with
  | action a =>
    cases a with
    | enter => exact s.prompt_submitPassword
    | backspace => exact prompt_repaintAll _
    | escape => exact prompt_repaintAll _
    | _ => rfl
  | text t => exact s.prompt_handleText t
  | none => rfl

/-- **What an event does to the prompt is what it types.** -/
theorem prompt_dispatch (ev : ServerEvent) :
    (s.dispatch ev).prompt = s.prompt.react (s.gesture ev) := by
  cases ev with
  | locked =>
    exact prompt_foldl _ (fun s i => s.prompt_createLockSurfaceFor i _) _
  | configure surf serial width height =>
    simp only [dispatch, dispatchConfigure]
    split
    · rfl
    · exact prompt_repaintOutput _ _
  | mode output width height =>
    obtain ⟨outputs, -, ⟨-, h⟩ | ⟨lock, -, h⟩⟩ := s.dispatchMode_cases output width height
    · rw [dispatch, h]
      rfl
    · rw [dispatch, h]
      exact prompt_createLockSurfaceFor _ _ _
  | capabilities keyboard =>
    simp only [dispatch, dispatchCapabilities]
    split <;> rfl
  | keymap xkbV1 loaded =>
    simp only [dispatch]
    split <;> rfl
  | key key pressed =>
    cases pressed with
    | false => rfl
    | true => exact s.prompt_dispatchKey key
  | _ => rfl

end LockState

/-! ## The dialogue -/

namespace Session

/-- What `Exchange` does to a prompt. -/
def reply (s : Session Prompt) : Exchange Gesture → Session Prompt
  | .dispatch g => ⟨s.state.react g, s.ask s.state.requests (s.state.react g).requests, s.taken⟩
  | .takeRequest => { s with state := s.state.takeRequest }
  | .answer result =>
    { s with state := { s.state with checking := none, results := s.state.results ++ [result] } }
  | .tryRecv => ⟨s.state.tryRecv, s.asked, s.taken ++ s.state.results.head?.toList⟩

/-- The prompt of a session. -/
def prompt (s : Session LockState) : Session Prompt := ⟨s.state.prompt, s.asked, s.taken⟩

/-- An exchange, as far as the prompt goes. -/
def promptExchange (s : Session LockState) : Exchange ServerEvent → Exchange Gesture
  | .dispatch ev => .dispatch (s.state.gesture ev)
  | .takeRequest => .takeRequest
  | .answer result => .answer result
  | .tryRecv => .tryRecv

theorem prompt_exchange (s : Session LockState) (e : Exchange ServerEvent) :
    (s.exchange e).prompt = s.prompt.reply (s.promptExchange e) := by
  cases e with
  | dispatch ev =>
    have h := s.state.prompt_dispatch ev
    have hreq : (s.state.dispatch ev).requests =
        (s.state.prompt.react (s.state.gesture ev)).requests := congrArg Prompt.requests h
    simp only [exchange, prompt, promptExchange, reply, h, hreq]
    rfl
  | takeRequest => simp only [exchange, prompt, promptExchange, reply, LockState.prompt_takeRequest]
  | answer result => rfl
  | tryRecv =>
    simp only [exchange, prompt, promptExchange, reply, LockState.prompt_tryRecv]
    rfl

/-- Where a session stands: what is in flight sits in the channels or with the worker. -/
structure Accounted (s : Session Prompt) : Prop where
  asked_length : s.asked.length = s.taken.length +
    (s.state.requests.length + s.state.checking.toList.length + s.state.results.length)
  pending : s.state.requests.length + s.state.checking.toList.length + s.state.results.length =
    s.state.pending.toNat
  password : s.state.pending = true → s.state.password = ""
  asked : ∀ r ∈ s.asked, r.password ≠ ""
  failCount : s.state.failCount = UInt32.ofNat s.fails

end Session

/-- A prompt with its worker. -/
def dialogue (username : String) : EventMachine (Session Prompt) (Exchange Gesture) where
  Init s := s = ⟨⟨username, "", 0, false, [], none, []⟩, [], []⟩
  Enabled s e := Session.canExchange s.state.checking s.state.requests e
  step := Session.reply

/-- **The client's prompt is a prompt.** -/
def lockClient_prompt (username : String) (failure : ℕ → Option String) :
    (lockClient username failure).Simulation (dialogue username) where
  abs := Session.prompt
  act := Session.promptExchange
  Inv _ := True
  inv_init _ _ := trivial
  inv_step _ _ _ _ := trivial
  init := by
    rintro _ rfl
    rfl
  enabled s e _ he := by cases e <;> exact he
  step s e _ _ := s.prompt_exchange e

/-! ### The invariant -/

namespace Session

theorem ask_self {σ : Type} (s : Session σ) (l : List AuthRequest) : s.ask l l = s.asked := by
  simp [ask]

theorem ask_concat {σ : Type} (s : Session σ) (l : List AuthRequest) (r : AuthRequest) :
    s.ask l (l ++ [r]) = s.asked ++ [r] := by
  simp [ask]

namespace Accounted

variable {s : Session Prompt}

/-- A gesture that asks nothing and leaves a pending password empty. -/
theorem dispatch (h : s.Accounted) {p : Prompt} (hreq : p.requests = s.state.requests)
    (hchecking : p.checking = s.state.checking) (hresults : p.results = s.state.results)
    (hpending : p.pending = s.state.pending) (hfail : p.failCount = s.state.failCount)
    (hpw : p.pending = true → p.password = "") :
    Accounted ⟨p, s.ask s.state.requests p.requests, s.taken⟩ := by
  rw [hreq, ask_self]
  refine ⟨?_, ?_, hpw, h.asked, hfail.trans h.failCount⟩
  · simpa only [hreq, hchecking, hresults] using h.asked_length
  · simpa only [hreq, hchecking, hresults, hpending] using h.pending

theorem submit (h : s.Accounted) :
    Accounted ⟨s.state.submit, s.ask s.state.requests s.state.submit.requests, s.taken⟩ := by
  rw [Prompt.submit]
  split
  · exact h.dispatch rfl rfl rfl rfl rfl h.password
  · next hidle =>
    obtain ⟨hpw, hpending⟩ : s.state.password ≠ "" ∧ s.state.pending = false := by
      simpa using hidle
    have hnone := h.pending
    rw [hpending, Bool.toNat_false] at hnone
    rw [ask_concat]
    refine ⟨?_, ?_, fun _ => rfl, fun r hr => ?_, h.failCount⟩
    · have := h.asked_length
      simp only [List.length_append, List.length_singleton]
      omega
    · simp only [List.length_append, List.length_singleton, Bool.toNat_true]
      omega
    · rcases List.mem_append.mp hr with hr | hr
      · exact h.asked r hr
      · rw [List.mem_singleton.mp hr]
        exact hpw

theorem react (h : s.Accounted) (g : Gesture) :
    Accounted ⟨s.state.react g, s.ask s.state.requests (s.state.react g).requests, s.taken⟩ := by
  cases g with
  | enter => exact h.submit
  | text t =>
    simp only [Prompt.react]
    split
    · exact h.dispatch rfl rfl rfl rfl rfl h.password
    next hidle => exact h.dispatch rfl rfl rfl rfl rfl fun hp => absurd hp hidle
  | backspace =>
    refine h.dispatch rfl rfl rfl rfl rfl fun hp => ?_
    have hpw : s.state.password = "" := h.password hp
    simp [Prompt.react, hpw]
  | escape => exact h.dispatch rfl rfl rfl rfl rfl fun _ => rfl
  | other => exact h.dispatch rfl rfl rfl rfl rfl h.password

theorem take (h : s.Accounted) {r : AuthResult} {rest : List AuthResult}
    (hres : s.state.results = r :: rest) :
    Accounted ⟨{ s.state with results := rest }.take r, s.asked, s.taken ++ [r]⟩ := by
  have hlen := h.asked_length
  have hone := h.pending
  have hfail := h.failCount
  have hle := Bool.toNat_le s.state.pending
  rw [hres, List.length_cons] at hlen hone
  cases r with
  | ok =>
    refine ⟨?_, ?_, nofun, h.asked, ?_⟩
    · simp only [Prompt.take, List.length_append, List.length_singleton]
      omega
    · simp only [Prompt.take, Bool.toNat_false]
      omega
    · simpa [Prompt.take, fails] using hfail
  | fail reason =>
    refine ⟨?_, ?_, nofun, h.asked, ?_⟩
    · simp only [Prompt.take, List.length_append, List.length_singleton]
      omega
    · simp only [Prompt.take, Bool.toNat_false]
      omega
    · rw [fails] at hfail
      simp [Prompt.take, fails, hfail]

theorem reply (h : s.Accounted) {e : Exchange Gesture}
    (he : canExchange s.state.checking s.state.requests e = true) : (s.reply e).Accounted := by
  have hlen := h.asked_length
  have hone := h.pending
  cases e with
  | dispatch g => exact h.react g
  | takeRequest =>
    simp only [Session.reply, Prompt.takeRequest]
    split
    · exact h
    · next r rest hreq =>
      have hidle : s.state.checking = none := by
        simp only [canExchange, Bool.and_eq_true, Option.isNone_iff_eq_none] at he
        exact he.1
      rw [hreq, hidle] at hlen hone
      refine ⟨?_, ?_, h.password, h.asked, h.failCount⟩
      · simp at hlen ⊢
        omega
      · simp at hone ⊢
        omega
  | answer result =>
    obtain ⟨r, hr⟩ := Option.isSome_iff_exists.mp he
    rw [hr] at hlen hone
    refine ⟨?_, ?_, h.password, h.asked, h.failCount⟩
    · simp [Session.reply] at hlen ⊢
      omega
    · simp [Session.reply] at hone ⊢
      omega
  | tryRecv =>
    simp only [Session.reply, Prompt.tryRecv]
    split
    next hres =>
      rw [hres]
      simpa using h
    next r rest hres =>
      rw [hres]
      exact h.take hres

end Accounted

end Session

/-! ### What the client guarantees -/

/-- Where a client stands between two of its steps. -/
structure Session.OneAtATime (s : Session LockState) : Prop where
  taken_le : s.taken.length ≤ s.asked.length
  /-- What is in flight is in a channel or with the worker. -/
  channels : s.inFlight =
    s.state.requests.length + s.state.checking.toList.length + s.state.results.length
  inFlight_le : s.inFlight ≤ 1
  inFlight_iff : s.inFlight = 1 ↔ s.state.pending = true
  password : s.state.pending = true → s.state.password = ""
  asked : ∀ r ∈ s.asked, r.password ≠ ""

theorem Session.Accounted.oneAtATime {s : Session LockState} (h : s.prompt.Accounted) :
    s.OneAtATime := by
  have hlen : s.asked.length = s.taken.length +
      (s.state.requests.length + s.state.checking.toList.length + s.state.results.length) :=
    h.asked_length
  have hone : s.state.requests.length + s.state.checking.toList.length + s.state.results.length =
      s.state.pending.toNat := h.pending
  have hle := Bool.toNat_le s.state.pending
  refine ⟨by omega, ?_, ?_, ?_, h.password, h.asked⟩
  · rw [inFlight]
    omega
  · rw [inFlight]
    omega
  · rw [inFlight, ← Bool.toNat_eq_one]
    omega

theorem dialogue_accounted (username : String) {es : List (Exchange Gesture)} {s : Session Prompt}
    (hs : s.Accounted) (h : (dialogue username).Legal s es) :
    (dialogue username).Always Session.Accounted s es :=
  .of_invariant (fun _ _ hI he => hI.reply he) hs h

/-- Keys 28 and 30 are Enter and a letter. -/
def letterKeymap : Keymap where
  oneSym _ code := if code = 36 then 0xff0d else 0x61
  utf8 _ _ := "a"

/-- A wrong password, from its letter to its result. -/
def wrongGuess : List (Exchange ServerEvent) :=
  [.dispatch (.key 30 true), .dispatch (.key 28 true), .takeRequest, .answer (.fail ""), .tryRecv]

/-- **One password at a time.** Whatever is typed and however the worker runs, at most one request
is in flight, one exactly while the prompt is pending, with an empty password field then; no empty
password is sent. The failures are counted in a `u32`. -/
theorem auth_one_at_a_time (username : String) (failure : ℕ → Option String)
    {es : List (Exchange ServerEvent)}
    (h : (lockClient username failure).Legal (engaged username failure) es) :
    (lockClient username failure).Always
      (fun s => s.OneAtATime ∧ s.state.failCount.toNat = s.fails % UInt32.size)
      (engaged username failure) es := by
  set R := lockClient_prompt username failure
  have hstart : Session.Accounted (R.abs (engaged username failure)) :=
    ⟨rfl, rfl, nofun, by simp [R, lockClient_prompt, Session.prompt, engaged], rfl⟩
  have hall : (lockClient username failure).Always (fun s => s.prompt.Accounted)
      (engaged username failure) es :=
    (R.always_iff trivial h).mpr (dialogue_accounted username hstart (R.legal_acts trivial h))
  refine hall.mono fun s hs => ⟨hs.oneAtATime, ?_⟩
  have hfail : s.state.failCount = UInt32.ofNat s.fails := hs.failCount
  rw [hfail]
  exact UInt32.toNat_ofNat'

theorem auth_one_at_a_time_wrongGuess :
    (lockClient "u" fun _ => none).Always
      (fun s => s.OneAtATime ∧ s.state.failCount.toNat = s.fails % UInt32.size)
      (engaged "u" fun _ => none)
      (.dispatch (.keymap true (some letterKeymap)) :: wrongGuess) :=
  auth_one_at_a_time "u" (fun _ => none) ⟨rfl, rfl, rfl, rfl, rfl, rfl, trivial⟩

/-- In a state between two steps a whole poll is one round: there is no second result. -/
theorem Session.OneAtATime.pollAuth_eq {s : Session LockState} (h : s.OneAtATime) :
    s.state.pollAuth = s.state.tryRecv := by
  have hle := h.inFlight_le
  rw [h.channels] at hle
  exact LockState.pollAuth_eq_tryRecv (by omega)

/-! #### Where the count starts again -/

/-- A client without outputs that can be typed at. -/
def typist (asked : List AuthRequest) (taken : List AuthResult) (count : UInt32) :
    Session LockState :=
  ⟨{ (engaged "u" fun _ => none).state with
      keymap := KeyboardState.new.applyKeymap (some letterKeymap), failCount := count },
    asked, taken⟩

theorem run_wrongGuess (asked : List AuthRequest) (taken : List AuthResult) (count : UInt32) :
    (lockClient "u" fun _ => none).run (typist asked taken count) wrongGuess =
      typist (asked ++ [⟨"u", "a"⟩]) (taken ++ [.fail ""]) (count + 1) := by
  have h : (lockClient "u" fun _ => none).run (typist asked taken count) wrongGuess =
      typist (asked ++ [] ++ [⟨"u", "a"⟩]) (taken ++ [.fail ""]) (count + 1) := rfl
  rwa [List.append_nil] at h

theorem legal_wrongGuess (asked : List AuthRequest) (taken : List AuthResult) (count : UInt32) :
    (lockClient "u" fun _ => none).Legal (typist asked taken count) wrongGuess :=
  ⟨rfl, rfl, rfl, rfl, rfl, trivial⟩

/-- Any number of wrong guesses, each with its failure counted. -/
theorem wrongGuesses (n : ℕ) :
    let guesses := (List.replicate n wrongGuess).flatten
    (lockClient "u" fun _ => none).Legal (typist [] [] 0) guesses ∧
      (lockClient "u" fun _ => none).run (typist [] [] 0) guesses =
        typist (List.replicate n ⟨"u", "a"⟩) (List.replicate n (.fail "")) (.ofNat n) := by
  induction n with
  | zero => exact ⟨trivial, rfl⟩
  | succ n ih =>
    obtain ⟨hl, hr⟩ := ih
    simp only [List.replicate_succ', List.flatten_append, List.flatten_singleton]
    refine ⟨(EventMachine.legal_append _).mpr ⟨hl, ?_⟩, ?_⟩
    · rw [hr]
      exact legal_wrongGuess _ _ _
    · rw [EventMachine.run_append, hr, run_wrongGuess, UInt32.ofNat_add]
      rfl

/-- After as many wrong passwords as a `u32` has values, the count is back at its start. -/
theorem not_failures_counted :
    ¬ ∀ (username : String) (failure : ℕ → Option String) (es : List (Exchange ServerEvent)),
      (lockClient username failure).Legal (engaged username failure) es →
      (lockClient username failure).Always
        (fun s => s.OneAtATime ∧ s.state.failCount.toNat = s.fails)
        (engaged username failure) es := by
  intro h
  obtain ⟨hl, hr⟩ := wrongGuesses UInt32.size
  have hkeymap : (lockClient "u" fun _ => none).step (engaged "u" fun _ => none)
      (.dispatch (.keymap true (some letterKeymap))) = typist [] [] 0 := rfl
  have hlast := (h "u" (fun _ => none)
    (.dispatch (.keymap true (some letterKeymap)) ::
      (List.replicate UInt32.size wrongGuess).flatten)
    ⟨rfl, by rw [hkeymap]; exact hl⟩).last.2
  rw [EventMachine.run_cons, hkeymap, hr] at hlast
  have hfails : (typist (List.replicate UInt32.size ⟨"u", "a"⟩)
      (List.replicate UInt32.size (.fail "")) (.ofNat UInt32.size)).fails = UInt32.size := by
    simp [Session.fails, typist, List.countP_replicate]
  rw [hfails] at hlast
  exact absurd hlast (by simp [typist])

end NxLock

end Nullxes
