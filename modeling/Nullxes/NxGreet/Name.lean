import Nullxes.NxGreet.Protocol

/-!
# Whose session it is

The user name goes to greetd once, when the session is created; what is posted and started after
that is for this name, whatever is in the field by then. The field can be edited all the while: only
clearing it with Escape cancels the session.

## Main definitions

* `sessionName`, `nameLaw` — the name of the session being configured, and what may be asked of it
* `LeavesName` — the steps that leave the name of a question alone

## Main results

* `name_on_screen` — in a run of such steps every session is of the name on screen
-/

namespace Nullxes

namespace NxGreet

/-- What a request does to the name of the session being configured. -/
def nextName (name : Option String) (x : Exchange) : Option String :=
  match x.request with
  | .createSession username => some username
  | .cancelSession => none
  | _ => name

/-- The name of the session being configured, if there is one. -/
def sessionName (past : List Exchange) : Option String := past.foldl nextName none

/-- **The law.** What is posted or started is for the name on screen. -/
def nameLaw (past : List Exchange) (x : Exchange) : Prop :=
  match x.request with
  | .postAuthMessageResponse _ | .startSession .. => sessionName past = some x.shown
  | _ => True

instance (past : List Exchange) (x : Exchange) : Decidable (nameLaw past x) := by
  unfold nameLaw
  split <;> infer_instance

@[simp] theorem sessionName_concat (past : List Exchange) (x : Exchange) :
    sessionName (past ++ [x]) = nextName (sessionName past) x := by
  simp [sessionName]

/-- While a question is open, no key edits the user name. -/
def LeavesName (s : GreetState) (e : ServerEvent) : Prop :=
  s.awaitingResponse = true → s.pending = false → s.editsName e = false

instance (s : GreetState) (e : ServerEvent) : Decidable (LeavesName s e) :=
  inferInstanceAs (Decidable
    (s.awaitingResponse = true → s.pending = false → s.editsName e = false))

/-- Every session was of the name on screen, and an open question is for it. -/
structure Phase.Named (p : Phase) : Prop where
  lawful : Logs.Lawful nameLaw p.exchanged
  name : p.pending = false → p.awaitingResponse = true →
    sessionName p.exchanged = some p.username

/-- What is said keeps within the law if it may be said, and changes the name if it is sent. -/
theorem lawful_said {past : List Exchange} (h : Logs.Lawful nameLaw past) {r : Request} {a : Answer}
    {shown : String} (hr : nameLaw past ⟨r, a, shown⟩) :
    Logs.Lawful nameLaw (past ++ said r a shown) := by
  cases a with
  | unwritten e => rwa [said, List.append_nil]
  | response _ => exact Logs.lawful_concat.mpr ⟨h, hr⟩
  | unread _ => exact Logs.lawful_concat.mpr ⟨h, hr⟩

namespace Phase.Named

variable {p : Phase}

theorem escaped (h : p.Named) (a : Answer) : (p.escaped a).Named := by
  unfold Phase.escaped
  split
  · exact ⟨lawful_said h.lawful trivial, nofun⟩
  · exact ⟨h.lawful, nofun⟩

/-- What a submission asks may be asked. -/
theorem law_asks (h : p.Named) (hp : p.pending = false) {q : Request} (hq : p.Asks q)
    (a : Answer) : nameLaw p.exchanged ⟨q, a, p.username⟩ := by
  cases q with
  | createSession username => trivial
  | postAuthMessageResponse response => exact h.name hp hq
  | startSession cmd env => exact hq.elim
  | cancelSession => exact hq.elim

/-- Once a submission is answered, the session is of the name on screen. -/
theorem sessionName_asks (h : p.Named) (hp : p.pending = false) {q : Request} (hq : p.Asks q)
    (r : Response) : sessionName (p.heard q (.response r)).exchanged = some p.username := by
  have hnext : sessionName (p.heard q (.response r)).exchanged =
      nextName (sessionName p.exchanged) ⟨q, .response r, p.username⟩ := sessionName_concat _ _
  cases q with
  | createSession username => rw [hnext, hq.2]; rfl
  | postAuthMessageResponse response => rw [hnext, ← h.name hp hq]; rfl
  | startSession cmd env => exact hq.elim
  | cancelSession => exact hq.elim

theorem submitted (h : p.Named) (hp : p.pending = false) {q : Request} (hq : p.Asks q)
    (a b : Answer) : (p.submitted q a b).Named := by
  have hlawful : Logs.Lawful nameLaw (p.heard q a).exchanged :=
    lawful_said h.lawful (h.law_asks hp hq a)
  match a with
  | .response (.authMessage ..) => exact ⟨hlawful, fun _ _ => h.sessionName_asks hp hq _⟩
  | .response .success =>
    exact ⟨lawful_said hlawful (h.sessionName_asks hp hq _), nofun⟩
  | .response (.error ..) => exact ⟨lawful_said hlawful trivial, nofun⟩
  | .unwritten e =>
    have hsame : (p.heard q (.unwritten e)).exchanged = p.exchanged := List.append_nil _
    exact ⟨hlawful, fun _ hw => hsame ▸ h.name hp hw⟩
  | .unread e =>
    refine ⟨hlawful, fun _ (hw : p.awaitingResponse = true) => ?_⟩
    -- A question is open, so the submission was no new session.
    cases q with
    | createSession username => rw [hq.1] at hw; cases hw
    | postAuthMessageResponse response =>
      have hnext : sessionName (p.heard (.postAuthMessageResponse response) (.unread e)).exchanged =
          sessionName p.exchanged := sessionName_concat _ _
      exact hnext.trans (h.name hp hw)
    | startSession cmd env => exact hq.elim
    | cancelSession => exact hq.elim

/-- A move that leaves the name of an open question alone. -/
theorem moves {s : GreetState} {e : ServerEvent} {p : Phase} (h : s.phase.Named)
    (he : LeavesName s e) (hm : s.Moves e p) : p.Named := by
  cases hm with
  | same => exact h
  | edited name hname =>
    refine ⟨h.lawful, fun hp hw => ?_⟩
    have hsame : name = s.username := hname (he hw hp)
    exact hsame ▸ h.name hp hw
  | escaped a _ => exact h.escaped a
  | submitted r a b hr hp _ _ => exact h.submitted hp hr a b

end Phase.Named

/-- **The session is of the name on screen**, in every run in which no key edits the name while a
question of greetd's is open. -/
theorem name_on_screen (failure : ℕ → Option String) (link : Link) {es : List ServerEvent}
    (hes : (greeter failure link).EachStep LeavesName
      (GreetState.new failure link).initSurface es) :
    (greeter failure link).Always (fun s => Logs.Lawful nameLaw s.exchanged)
      (GreetState.new failure link).initSurface es := by
  have hstart : (GreetState.new failure link).initSurface.phase.Named := ⟨Logs.lawful_nil, nofun⟩
  have hall : (greeter failure link).Always (fun s => s.phase.Named)
      (GreetState.new failure link).initSurface es :=
    .of_eachStep (fun s e hs _ he => hs.moves he (s.moves_dispatch e)) hstart
      (greeter_legal failure link _ es) hes
  exact hall.mono fun s hs => hs.lawful

theorem name_on_screen_login :
    (greeter (fun _ => none) passwordLink).Always (fun s => Logs.Lawful nameLaw s.exchanged)
      (GreetState.new (fun _ => none) passwordLink).initSurface login :=
  name_on_screen (fun _ => none) passwordLink (by decide)

/-! #### Another name on screen -/

/-- A name, a question for it, a longer name, and the answer. -/
def renamed : List ServerEvent :=
  [.toplevelConfigure 4 2, .configure 1, .capabilities true, .keymap true (some loginKeymap),
    .key 30 true, .key 28 true, .key 28 true, .key 15 true, .key 30 true, .key 15 true,
    .key 30 true, .key 28 true]

/-- The password entered for one name goes to the session of another. -/
theorem not_name_on_screen :
    ¬ ∀ (failure : ℕ → Option String) (link : Link) (es : List ServerEvent),
      (greeter failure link).Always (fun s => Logs.Lawful nameLaw s.exchanged)
        (GreetState.new failure link).initSurface es := by
  intro h
  exact absurd (h (fun _ => none) passwordLink renamed).last (by decide)

end NxGreet

end Nullxes
