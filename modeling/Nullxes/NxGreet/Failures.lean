import Nullxes.NxGreet.Protocol

/-!
# When greetd fails

What is left of the greeter when greetd refuses to start the session, and when an exchange with it
fails. `submit` does not look at the answer to its `StartSession`, and keeps the connection and the
question it was asked whatever becomes of an exchange.

## Main definitions

* `Ledger` — what the conversation leaves of the greeter
* `GreetState.Does` — what each event does to it
* `GreetState.Leaves`, `GreetState.Starts` — the greeter leaves for a session that was started only
* `GreetState.Recovers`, `GreetState.Spared` — a connection that failed is not used again

## Main results

* `GreetState.does_dispatch` — the events and what they do
* `leaves_iff_starts` — the greeter leaves rightly exactly where `StartSession` succeeds
* `recovers_iff_spared` — it recovers exactly where nothing is asked of a connection that failed
-/

namespace Nullxes

namespace NxGreet

open Wlcommon

/-! ## The ledger -/

/-- What the conversation with greetd leaves of the greeter. -/
structure Ledger where
  shouldClose : Bool
  pending : Bool
  greetd : Bool
  attempts : ℕ
  asked : ℕ
  exchanged : List Exchange
  deriving DecidableEq, Repr

namespace Ledger

variable (l : Ledger)

/-- A request is made. -/
def talk (r : Request) (a : Answer) (shown : String) : Ledger :=
  { l with asked := l.asked + 1, exchanged := l.exchanged ++ said r a shown }

/-- A submission; `b` is the answer to what follows. -/
def submitted (r : Request) (a b : Answer) (shown : String) : Ledger :=
  let l := { l with greetd := true, pending := true }.talk r a shown
  match a with
  | .response (.authMessage ..) => { l with pending := false }
  | .response .success => { l.talk (.startSession sessionCmd []) b shown with shouldClose := true }
  | .response (.error ..) => { l.talk .cancelSession b shown with pending := false }
  | .unwritten _ | .unread _ => { l with pending := false }

variable {l} {r : Request} {a b : Answer} {shown : String}

/-- A submission that greetd says yes to. -/
theorem submitted_success : l.submitted r (.response .success) b shown =
    { l with
      shouldClose := true
      pending := true
      greetd := true
      asked := l.asked + 2
      exchanged := l.exchanged ++ (⟨r, .response .success, shown⟩ ::
        said (.startSession sessionCmd []) b shown) } := by
  simp [submitted, talk, said]

/-- Any other. -/
theorem submitted_of_ne (ha : a ≠ .response .success) :
    (l.submitted r a b shown).shouldClose = l.shouldClose ∧
      (l.submitted r a b shown).pending = false := by
  cases a with
  | response r =>
    cases r with
    | success => exact absurd rfl ha
    | authMessage ty message => exact ⟨rfl, rfl⟩
    | error ty description => exact ⟨rfl, rfl⟩
  | unwritten e => exact ⟨rfl, rfl⟩
  | unread e => exact ⟨rfl, rfl⟩

theorem greetd_submitted : (l.submitted r a b shown).greetd = true := by
  cases a with
  | response r => cases r <;> rfl
  | unwritten e => rfl
  | unread e => rfl

theorem attempts_submitted : (l.submitted r a b shown).attempts = l.attempts := by
  cases a with
  | response r => cases r <;> rfl
  | unwritten e => rfl
  | unread e => rfl

end Ledger

namespace GreetState

variable (s : GreetState)

/-- The ledger of a greeter. -/
def ledger : Ledger :=
  ⟨s.shouldClose, s.pending, s.greetd, s.attempts, s.asked, s.exchanged⟩

@[simp] theorem ledger_redraw : s.redraw.ledger = s.ledger := by
  rcases s.redraw_cases with h | ⟨shm, buffer, made, commit, _, h, _⟩
  · rw [h]
  · rw [h]
    rfl

/-- What `submit` asks. -/
def asks : Request :=
  if !s.awaitingResponse then .createSession s.username
  else .postAuthMessageResponse (if s.password.isEmpty then none else some s.password)

/-- The conversation of `submit`. -/
theorem ledger_submitOver :
    { s with greetd := true }.submitOver.ledger =
      s.ledger.submitted s.asks (s.link.answers s.asked) (s.link.answers (s.asked + 1))
        s.username := by
  rw [submitOver_eq, ledger_redraw]
  cases hawait : s.awaitingResponse <;>
    cases ha : s.link.answers s.asked with
    | response r =>
      cases r <;> simp [submitRequest, talk_eq, submitAnswer, classify, startSession, cancel,
        ledger, Ledger.submitted, Ledger.talk, asks, hawait, ha]
    | unwritten e =>
      simp [submitRequest, talk_eq, submitAnswer, ledger, Ledger.submitted, Ledger.talk, asks,
        hawait, ha]
    | unread e =>
      simp [submitRequest, talk_eq, submitAnswer, ledger, Ledger.submitted, Ledger.talk, asks,
        hawait, ha]

/-- The event is a key that means this. -/
def Types (action : Action) : ServerEvent → Prop
  | .key key true => s.keymap.processKey key = .action action
  | _ => False

/-- Enter is a submission: it does not only move on from the name, none is pending, and the name is
not missing. -/
def Submits (e : ServerEvent) : Prop :=
  s.Types .enter e ∧ ¬ (s.focus = .username ∧ s.awaitingResponse = false) ∧ s.pending = false ∧
    ¬ (s.username.toList.all isWhitespace = true ∧ s.focus = .username)

/-- There is a connection, or there is going to be. -/
def Connects : Prop := s.greetd = true ∨ s.link.connects s.attempts = .ok ()

/-- What an event does to the ledger. -/
inductive Does (s : GreetState) (e : ServerEvent) : Ledger → Prop
  | submitted (h : s.Submits e) (hc : s.Connects) : s.Does e
      ({ s.ledger with attempts := if s.greetd then s.attempts else s.attempts + 1 }.submitted s.asks
        (s.link.answers s.asked) (s.link.answers (s.asked + 1)) s.username)
  | unreachable (h : s.Submits e) (hc : ¬ s.Connects) :
      s.Does e { s.ledger with attempts := s.attempts + 1 }
  | escaped (h : s.Types .escape e) (hg : s.greetd = true) :
      s.Does e (s.ledger.talk .cancelSession (s.link.answers s.asked) "")
  | closed (h : e = .close) : s.Does e { s.ledger with shouldClose := true }
  | same (hs : ¬ s.Submits e) (he : s.Types .escape e → s.greetd = false) (hc : e ≠ .close) :
      s.Does e s.ledger

theorem does_submit {e : ServerEvent} (he : s.Types .enter e)
    (hf : ¬ (s.focus = .username ∧ s.awaitingResponse = false)) (hesc : ¬ s.Types .escape e)
    (hclose : e ≠ .close) : s.Does e s.submit.ledger := by
  unfold submit
  split
  next hp => exact .same (fun h => by simp [h.2.2.1] at hp) (fun h => absurd h hesc) hclose
  next hp =>
  have hp : s.pending = false := by simpa using hp
  split
  next hblank =>
    rw [ledger_redraw]
    refine .same (fun h => h.2.2.2 ?_) (fun h => absurd h hesc) hclose
    simpa using hblank
  next hblank =>
  have hsubmits : s.Submits e := ⟨he, hf, hp, by simpa using hblank⟩
  by_cases hg : s.greetd = true
  · have hself : s = { s with greetd := true } := by rw [← hg]
    have hdoes := Does.submitted hsubmits (.inl hg)
    have hledger := s.ledger_submitOver
    rw [if_pos hg] at hdoes
    rw [← hself] at hledger
    rw [if_neg (by simpa using hg), hledger]
    exact hdoes
  · rw [if_pos (by simpa using hg)]
    dsimp only
    split
    next hok =>
      have hdoes := Does.submitted hsubmits (.inr hok)
      rw [if_neg hg] at hdoes
      rw [ledger_submitOver { s with attempts := s.attempts + 1 }]
      exact hdoes
    next e' hfail =>
      rw [ledger_redraw]
      refine .unreachable hsubmits fun hc => ?_
      rcases hc with hc | hc
      · exact hg hc
      · rw [hc] at hfail
        cases hfail

theorem ledger_handleAction {action : Action} (henter : action ≠ .enter)
    (hescape : action ≠ .escape) : (s.handleAction action).ledger = s.ledger := by
  cases action with
  | enter => exact absurd rfl henter
  | escape => exact absurd rfl hescape
  | tab =>
    rw [handleAction, ledger_redraw]
    rfl
  | backspace =>
    rw [handleAction]
    split <;> rw [ledger_redraw] <;> rfl
  | _ => rw [handleAction, ledger_redraw] <;> simp

theorem types_unique {e : ServerEvent} {a b : Action} (ha : s.Types a e) (hb : s.Types b e) :
    a = b := by
  cases e with
  | key key pressed =>
    cases pressed with
    | true => exact KeySymbol.action.inj (Eq.trans (Eq.symm ha) hb)
    | false => exact ha.elim
  | _ => exact ha.elim

theorem does_action {e : ServerEvent} {action : Action} (he : s.Types action e) :
    s.Does e (s.handleAction action).ledger := by
  have hclose : e ≠ .close := by
    rintro rfl
    exact he
  by_cases henter : action = .enter
  · subst henter
    have hesc : ¬ s.Types .escape e := fun h => by cases s.types_unique he h
    rw [handleAction]
    split
    next hf =>
      rw [ledger_redraw]
      have hf' : s.focus = .username ∧ s.awaitingResponse = false := by simpa using hf
      exact .same (fun h => h.2.1 hf') (fun h => absurd h hesc) hclose
    next hf => exact s.does_submit he (by simpa using hf) hesc hclose
  have hnot : ¬ s.Submits e := fun h => henter (s.types_unique he h.1)
  by_cases hescape : action = .escape
  · subst hescape
    rw [handleAction, ledger_redraw]
    dsimp only
    split
    next hg =>
      rw [cancel, talk_eq]
      exact Does.escaped he hg
    next hg => exact .same hnot (fun _ => by simpa using hg) hclose
  · rw [s.ledger_handleAction henter hescape]
    exact .same hnot (fun h => absurd (s.types_unique he h) hescape) hclose

theorem ledger_handleText (text : String) : (s.handleText text).ledger = s.ledger := by
  rw [handleText]
  split
  · rfl
  · split <;> rw [ledger_redraw] <;> rfl

/-- **What the greeter does to the ledger.** -/
theorem does_dispatch (e : ServerEvent) : s.Does e (s.dispatch e).ledger := by
  have hquiet : (∀ a, ¬ s.Types a e) → e ≠ .close → s.Does e s.ledger := fun hno hclose =>
    .same (fun h => hno _ h.1) (fun h => absurd h (hno _)) hclose
  have hidle : ∀ {l : Ledger}, l = s.ledger → (∀ a, ¬ s.Types a e) → e ≠ .close → s.Does e l := by
    rintro l rfl
    exact hquiet
  cases e with
  | close => exact .closed rfl
  | key key pressed =>
    have hclose : ServerEvent.key key pressed ≠ .close := fun h => by cases h
    cases pressed with
    | false => exact hquiet (fun a h => h) hclose
    | true =>
      rw [dispatch, dispatchKey, if_pos rfl]
      cases hkey : s.keymap.processKey key with
      | action action => exact s.does_action hkey
      | text t =>
        have hno : ∀ a, ¬ s.Types a (.key key true) := by
          intro a ha
          cases hkey.symm.trans ha
        exact hidle (s.ledger_handleText t) hno hclose
      | none =>
        have hno : ∀ a, ¬ s.Types a (.key key true) := by
          intro a ha
          cases hkey.symm.trans ha
        exact hidle rfl hno hclose
  | configure serial =>
    refine hidle ?_ (fun a h => h) fun h => by cases h
    rw [dispatch, dispatchConfigure, ledger_redraw]
    rfl
  | toplevelConfigure width height =>
    refine hidle ?_ (fun a h => h) fun h => by cases h
    rw [dispatch, dispatchToplevel]
    split <;> split <;> rfl
  | capabilities keyboard =>
    refine hidle ?_ (fun a h => h) fun h => by cases h
    rw [dispatch, dispatchCapabilities]
    split <;> rfl
  | keymap xkbV1 loaded =>
    refine hidle ?_ (fun a h => h) fun h => by cases h
    rw [dispatch]
    split <;> rfl
  | ping | modifiers | release | other =>
    exact hidle rfl (fun a h => h) fun h => by cases h

end GreetState

/-! ## Leaving -/

/-- greetd has answered a `StartSession` with Success. -/
def Ledger.Started (l l' : Ledger) : Prop :=
  ∃ (new : List Exchange) (shown : String), l'.exchanged = l.exchanged ++ new ∧
    ⟨.startSession sessionCmd [], .response .success, shown⟩ ∈ new

/-- The greeter makes to leave, and stays pending, only for a session that was started. -/
def Ledger.Leaves (l l' : Ledger) : Prop :=
  (l'.shouldClose = true → l.shouldClose = true ∨ l.Started l') ∧
    (l'.pending = true → l.pending = true ∨ l.Started l')

theorem Ledger.leaves_of_quiet {l l' : Ledger} (hclose : l'.shouldClose = l.shouldClose)
    (hpending : l'.pending = l.pending ∨ l'.pending = false) : l.Leaves l' := by
  refine ⟨fun h => .inl (hclose ▸ h), fun h => .inl ?_⟩
  rcases hpending with heq | hfalse
  · exact heq ▸ h
  · rw [hfalse] at h
    cases h

namespace GreetState

variable {s : GreetState}

/-- What a step does to the greeter is right, unless it is the closing of the window. -/
def Leaves (s : GreetState) (e : ServerEvent) : Prop :=
  e ≠ .close → s.ledger.Leaves (s.dispatch e).ledger

/-- If a submission ends with a Success, so does the `StartSession` that follows. -/
def Starts (s : GreetState) (e : ServerEvent) : Prop :=
  s.Submits e → s.Connects → s.link.answers s.asked = .response .success →
    s.link.answers (s.asked + 1) = .response .success

theorem asks_ne_startSession : s.asks ≠ .startSession sessionCmd [] := by
  rw [asks]
  split <;> exact fun h => by cases h

theorem Types.ne_close {e : ServerEvent} {action : Action} (h : s.Types action e) : e ≠ .close := by
  rintro rfl
  exact h

/-- Whether the session of a Success is started is what `StartSession` is answered. -/
theorem leaves_success_iff {l : Ledger} {b : Answer} {shown : String} (hp : l.pending = false) :
    l.Leaves (l.submitted s.asks (.response .success) b shown) ↔ b = .response .success := by
  rw [Ledger.submitted_success]
  constructor
  · rintro ⟨-, hpending⟩
    rcases hpending rfl with hpending | ⟨new, shown', hnew, hmem⟩
    · rw [hp] at hpending
      cases hpending
    rw [← List.append_cancel_left hnew] at hmem
    rcases List.mem_cons.mp hmem with heq | hmem
    · exact absurd (congrArg Exchange.request heq).symm asks_ne_startSession
    · cases b with
      | unwritten e => cases hmem
      | response r => exact (congrArg Exchange.answer (List.mem_singleton.mp hmem)).symm
      | unread e => exact (congrArg Exchange.answer (List.mem_singleton.mp hmem)).symm
  · rintro rfl
    have hstarted : l.Started { l with
        shouldClose := true
        pending := true
        greetd := true
        asked := l.asked + 2
        exchanged := l.exchanged ++ (⟨s.asks, .response .success, shown⟩ ::
          said (.startSession sessionCmd []) (.response .success) shown) } :=
      ⟨_, shown, rfl, by simp [said]⟩
    exact ⟨fun _ => .inr hstarted, fun _ => .inr hstarted⟩

/-- A step is right exactly if a Success in it is followed by one to `StartSession`. -/
theorem leaves_iff (s : GreetState) (e : ServerEvent) : s.Leaves e ↔ s.Starts e := by
  have hd := s.does_dispatch e
  rw [Leaves]
  generalize (s.dispatch e).ledger = l at hd ⊢
  cases hd with
  | submitted h hc =>
    have hclose := h.1.ne_close
    by_cases ha : s.link.answers s.asked = .response .success
    · rw [ha]
      refine ⟨fun hl _ _ _ => (leaves_success_iff h.2.2.1).mp (hl hclose), fun hs _ => ?_⟩
      exact (leaves_success_iff h.2.2.1).mpr (hs h hc ha)
    · obtain ⟨hclosed, hpending⟩ := Ledger.submitted_of_ne ha
      exact ⟨fun _ _ _ ha' => absurd ha' ha,
        fun _ _ => Ledger.leaves_of_quiet hclosed (.inr hpending)⟩
  | unreachable h hc =>
    exact ⟨fun _ _ hc' => absurd hc' hc, fun _ _ => Ledger.leaves_of_quiet rfl (.inl rfl)⟩
  | escaped h hg =>
    refine ⟨fun _ hsub => ?_, fun _ _ => Ledger.leaves_of_quiet rfl (.inl rfl)⟩
    cases s.types_unique h hsub.1
  | closed h =>
    refine ⟨fun _ hsub => absurd h hsub.1.ne_close, fun _ hne => absurd h hne⟩
  | same hs he hc =>
    exact ⟨fun _ hsub => absurd hsub hs, fun _ _ => Ledger.leaves_of_quiet rfl (.inl rfl)⟩

end GreetState

/-- **The greeter leaves for a session that was started.** In every run, whatever is typed and
however each exchange goes: `should_close` is set other than by the closing of the window, and
`pending` stays set, only where greetd has answered `StartSession` with Success, exactly if greetd
gives that answer whenever it has just answered a submission with Success. -/
theorem leaves_iff_starts (failure : ℕ → Option String) (link : Link) (es : List ServerEvent) :
    (greeter failure link).EachStep GreetState.Leaves (GreetState.new failure link).initSurface es ↔
      (greeter failure link).EachStep GreetState.Starts
        (GreetState.new failure link).initSurface es := by
  have hlegal := greeter_legal failure link (GreetState.new failure link).initSurface es
  have htrue : (greeter failure link).Always (fun _ => True)
      (GreetState.new failure link).initSurface es := fun _ _ => trivial
  exact EventMachine.eachStep_congr htrue hlegal fun s e _ _ => s.leaves_iff e

/-- A greetd that asks for a password, is content, and does not start the session. -/
def refusingLink : Link where
  connects _ := .ok ()
  answers n :=
    if n = 0 then .response (.authMessage .secret "Password:")
    else if n = 1 then .response .success
    else .response (.error .error "no such command")

/-- The greeter makes to leave, and takes no further submission. -/
theorem not_leaves :
    ¬ (greeter (fun _ => none) refusingLink).EachStep GreetState.Leaves
        (GreetState.new (fun _ => none) refusingLink).initSurface login ∧
      ((greeter (fun _ => none) refusingLink).run
        (GreetState.new (fun _ => none) refusingLink).initSurface login).shouldClose = true ∧
      ((greeter (fun _ => none) refusingLink).run
        (GreetState.new (fun _ => none) refusingLink).initSurface login).pending = true := by
  have hpending : ((greeter (fun _ => none) refusingLink).run
      (GreetState.new (fun _ => none) refusingLink).initSurface login).pending = true := by decide
  refine ⟨fun hall => ?_, by decide, hpending⟩
  -- the last key sends the password
  have hlast := hall (login.take 5) (.key 28 true) (List.prefix_refl _) (fun h => by cases h)
  rcases hlast.2 hpending with hbefore | ⟨new, shown, hnew, hmem⟩
  · have hidle : ((greeter (fun _ => none) refusingLink).run
        (GreetState.new (fun _ => none) refusingLink).initSurface
        (login.take 5)).pending = false := by
      decide
    cases hidle.symm.trans hbefore
  · have hnone : ∀ x ∈ ((greeter (fun _ => none) refusingLink).run
        (GreetState.new (fun _ => none) refusingLink).initSurface login).exchanged,
        x.request = .startSession sessionCmd [] → x.answer ≠ .response .success := by decide
    refine hnone ⟨.startSession sessionCmd [], .response .success, shown⟩ ?_ rfl rfl
    have hsaid : ((greeter (fun _ => none) refusingLink).run
        (GreetState.new (fun _ => none) refusingLink).initSurface login).exchanged =
        ((greeter (fun _ => none) refusingLink).run
          (GreetState.new (fun _ => none) refusingLink).initSurface
          (login.take 5)).exchanged ++ new :=
      hnew
    rw [hsaid]
    exact List.mem_append_right _ hmem

/-! ## A connection that failed -/

/-- What is new in the ledger is said over a new connection, and begins a session. -/
def Ledger.Renewed (l l' : Ledger) : Prop :=
  l'.attempts = l.attempts + 1 ∧
    ∀ x ∈ (l'.exchanged.drop l.exchanged.length).head?,
      ∃ username, x.request = .createSession username

namespace GreetState

/-- An exchange has failed. -/
def Broken (s : GreetState) : Prop := ∃ n < s.asked, ∀ r, s.link.answers n ≠ .response r

/-- Once an exchange has failed, nothing more is said over the connection, and a submission opens
another one. -/
def Recovers (s : GreetState) (e : ServerEvent) : Prop :=
  s.Broken →
    ((s.dispatch e).attempts = s.attempts → (s.dispatch e).exchanged = s.exchanged) ∧
      (s.Submits e → s.ledger.Renewed (s.dispatch e).ledger)

/-- Once an exchange has failed nothing is submitted, and no Escape finds the connection open for
its `CancelSession`. -/
def Spared (s : GreetState) (e : ServerEvent) : Prop :=
  s.Broken → ¬ s.Submits e ∧
    (s.Types .escape e → ∃ error, s.link.answers s.asked = .unwritten error)

/-- Whoever was asked something was there. -/
def Connected (s : GreetState) : Prop := 0 < s.asked → s.greetd = true

theorem connected_dispatch {s : GreetState} (h : s.Connected) (e : ServerEvent) :
    (s.dispatch e).Connected := by
  have hd := s.does_dispatch e
  have hledger : 0 < (s.dispatch e).ledger.asked → (s.dispatch e).ledger.greetd = true := by
    generalize (s.dispatch e).ledger = l at hd ⊢
    cases hd with
    | submitted hs hc => exact fun _ => Ledger.greetd_submitted
    | unreachable hs hc => exact h
    | escaped he hg => exact fun _ => hg
    | closed hc => exact h
    | same hs he hc => exact h
  exact hledger

/-- A step over a connection that failed is right exactly if it says nothing. -/
theorem recovers_iff {s : GreetState} (h : s.Connected) (e : ServerEvent) :
    s.Recovers e ↔ s.Spared e := by
  refine forall_congr' fun hbroken => ?_
  obtain ⟨n, hn, -⟩ := hbroken
  have hgreetd : s.greetd = true := h (Nat.zero_lt_of_lt hn)
  have hd := s.does_dispatch e
  show ((s.dispatch e).ledger.attempts = _ → (s.dispatch e).ledger.exchanged = _) ∧ _ ↔ _
  generalize (s.dispatch e).ledger = l at hd ⊢
  cases hd with
  | submitted hs hc =>
    rw [Ledger.Renewed, Ledger.attempts_submitted, if_pos hgreetd]
    exact ⟨fun hr => absurd (hr.2 hs).1 (Nat.ne_of_lt (Nat.lt_succ_self _)),
      fun hr => absurd hs hr.1⟩
  | unreachable hs hc => exact absurd (.inl hgreetd) hc
  | escaped he hg =>
    have hnot : ¬ s.Submits e := fun hs => by cases s.types_unique he hs.1
    have hsaid : (s.exchanged ++ said .cancelSession (s.link.answers s.asked) "" = s.exchanged) ↔
        ∃ error, s.link.answers s.asked = .unwritten error := by
      rw [List.append_right_eq_self]
      cases s.link.answers s.asked with
      | unwritten error => exact ⟨fun _ => ⟨error, rfl⟩, fun _ => rfl⟩
      | response r => simp [said]
      | unread error => simp [said]
    exact ⟨fun hr => ⟨hnot, fun _ => hsaid.mp (hr.1 rfl)⟩,
      fun hr => ⟨fun _ => hsaid.mpr (hr.2 he), fun hs => absurd hs hnot⟩⟩
  | closed hc =>
    have hnot : ∀ action, ¬ s.Types action e := fun action ht => ht.ne_close hc
    exact ⟨fun _ => ⟨fun hs => hnot _ hs.1, fun ht => absurd ht (hnot _)⟩,
      fun _ => ⟨fun _ => rfl, fun hs => absurd hs.1 (hnot _)⟩⟩
  | same hs he hc =>
    refine ⟨fun _ => ⟨hs, fun ht => ?_⟩, fun _ => ⟨fun _ => rfl, fun hsub => absurd hsub hs⟩⟩
    rw [he ht] at hgreetd
    cases hgreetd

end GreetState

/-- **A connection that failed.** In every run: once an exchange has failed, nothing more is said
over the connection and a submission opens a new one and begins with `CreateSession`, exactly if
then nothing is submitted, and Escape finds the connection closed. -/
theorem recovers_iff_spared (failure : ℕ → Option String) (link : Link) (es : List ServerEvent) :
    (greeter failure link).EachStep GreetState.Recovers
        (GreetState.new failure link).initSurface es ↔
      (greeter failure link).EachStep GreetState.Spared
        (GreetState.new failure link).initSurface es := by
  have hlegal := greeter_legal failure link (GreetState.new failure link).initSurface es
  have hstart : (GreetState.new failure link).initSurface.Connected :=
    fun h => absurd h (Nat.lt_irrefl 0)
  have hconnected : (greeter failure link).Always GreetState.Connected
      (GreetState.new failure link).initSurface es :=
    .of_invariant (fun s e hs _ => GreetState.connected_dispatch hs e) hstart hlegal
  exact EventMachine.eachStep_congr hconnected hlegal fun s e hs _ => GreetState.recovers_iff hs e

/-- A greetd whose answer to the password cannot be decoded. -/
def garbledLink : Link where
  connects _ := .ok ()
  answers n :=
    if n = 0 then .response (.authMessage .secret "Password:")
    else if n = 1 then .unread "serialization error"
    else .response .success

/-- The password is sent, and sent once more. -/
def retry : List ServerEvent := login ++ [.key 30 true, .key 28 true]

/-- The second password goes out over the connection on which the exchange failed, in answer to a
question that the first one had answered. -/
theorem not_recovers :
    ¬ (greeter (fun _ => none) garbledLink).EachStep GreetState.Recovers
        (GreetState.new (fun _ => none) garbledLink).initSurface retry ∧
      ((greeter (fun _ => none) garbledLink).run
        (GreetState.new (fun _ => none) garbledLink).initSurface retry).attempts = 1 ∧
      ((greeter (fun _ => none) garbledLink).run
          (GreetState.new (fun _ => none) garbledLink).initSurface retry).exchanged.map
          Exchange.request =
        [.createSession "a", .postAuthMessageResponse (some "a"),
          .postAuthMessageResponse (some "a"), .startSession sessionCmd []] := by
  refine ⟨fun hall => ?_, by decide, by decide⟩
  have hlast := hall (retry.take 7) (.key 28 true) (List.prefix_refl _)
    ⟨1, by decide, fun r h => by cases h⟩
  have hsame := hlast.1 (by decide)
  have hlength := congrArg List.length hsame
  exact absurd hlength (by decide)

end NxGreet

end Nullxes
