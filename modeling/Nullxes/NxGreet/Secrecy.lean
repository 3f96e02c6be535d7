import Nullxes.Library.Compartment
import Nullxes.Library.SideBySide
import Nullxes.NxGreet.Protocol
import Nullxes.Wlcommon.Typing

/-!
# What the greeter shows of a password

Two runs of the greeter over the same connection, in which the compositor tells it the same but for
the keys that type into the password field: these type texts of the same shape. The compositor gets
the same requests with the same pictures in the buffers, greetd is asked the same but for the
password in its answer, and the two greeters leave together or not at all.

What is typed into the name field is shown as it is, so there the keys have to be the same.

## Main definitions

* `GreetState.Alike` — two states that differ in the password, and in what greetd was told of it
* `GreetState.Retyped` — what may happen in the one run where the other thing happens in the other

## Main results

* `GreetState.Alike.dispatch` — what the greeter does keeps states alike
* `password_unseen` — the two runs show the same
-/

namespace Nullxes

namespace NxGreet

open Wlcommon

/-! ## States that show the same -/

/-- A request to greetd, with the shape of the password only. -/
def Request.shape : Request → Request × List ℕ
  | .postAuthMessageResponse (some pw) =>
    (.postAuthMessageResponse (some ""), Wlcommon.shape pw)
  | r => (r, [])

/-- An exchange, with the shape of the password only. -/
def Exchange.shape (x : Exchange) : (Request × List ℕ) × Answer × String :=
  (x.request.shape, x.answer, x.shown)

/-- The parts of a state that hold a password. -/
structure Secrets where
  password : String
  exchanged : List Exchange

/-- Secrets of the same shape. -/
structure Secrets.Alike (k k' : Secrets) : Prop where
  password : shape k.password = shape k'.password
  exchanged : k.exchanged.map Exchange.shape = k'.exchanged.map Exchange.shape

theorem Secrets.Alike.refl (k : Secrets) : k.Alike k := ⟨rfl, rfl⟩

namespace GreetState

variable {s s' : GreetState}

/-- Where a state keeps its secrets. -/
def safe : Compartment GreetState Secrets where
  get s := ⟨s.password, s.exchanged⟩
  put s k := { s with password := k.password, exchanged := k.exchanged }
  get_put _ _ := rfl
  put_get _ := rfl

/-- The two states differ in their secrets, and these have the same shape. -/
abbrev Alike (s s' : GreetState) : Prop := safe.Alike Secrets.Alike s s'

/-! ### Redrawing -/

/-- What is painted shows the length of the password only. -/
theorem paint_put (s : GreetState) {k : Secrets} (hk : shape s.password = shape k.password) :
    (safe.put s k).paint = s.paint := by
  have hsize := utf8ByteSize_eq_of_shape hk.symm
  funext pixels stride w h
  simp only [paint, safe, hsize]

/-- The state in which a redraw draws into its pool. -/
def prepared (s : GreetState) (pool : Option (ShmDoubleBuffer (Option Picture)) × Shm) :
    GreetState :=
  { s.setShm pool.2 with buffer := pool.1 }

/-- What a redraw does once it has drawn. -/
def finished (s : GreetState) :
    Except ClientError (ShmDoubleBuffer (Option Picture) × DrawnBuffer (Option Picture)) × Shm →
      GreetState
  | (.error _, shm) => s.setShm shm
  | (.ok (pool, drawn), shm) =>
    let s := { s.setShm shm with buffer := some pool }
    if s.surface then s.request (.attachAndCommit drawn) else s

theorem redraw_eq {s : GreetState} (hc : s.configured = true) :
    s.redraw =
      match s.pool.1 with
      | none => s.prepared s.pool
      | some pool =>
        (s.prepared s.pool).finished (pool.draw (s.prepared s.pool).shm (s.prepared s.pool).paint) := by
  rw [redraw]
  dsimp only
  rw [if_neg (by rw [hc]; decide)]
  rcases s.pool with ⟨_ | pool, shm⟩
  · rfl
  · dsimp only
    rcases hd : pool.draw (s.prepared (some pool, shm)).shm (s.prepared (some pool, shm)).paint with
      ⟨e | ⟨pool', drawn⟩, shm'⟩
    · simp only [prepared] at hd ⊢
      rw [hd]
      rfl
    · simp only [prepared] at hd ⊢
      rw [hd]
      rfl

theorem redraw_put (s : GreetState) {k : Secrets} (hk : shape s.password = shape k.password) :
    (safe.put s k).redraw = safe.put s.redraw k := by
  have hconfigured : (safe.put s k).configured = s.configured := rfl
  cases hc : s.configured with
  | false =>
    rw [redraw, redraw, hconfigured, hc]
    rfl
  | true =>
    have hpool : (safe.put s k).pool = s.pool := rfl
    have hprep : (safe.put s k).prepared s.pool = safe.put (s.prepared s.pool) k := rfl
    have hshm : (safe.put (s.prepared s.pool) k).shm = (s.prepared s.pool).shm := rfl
    rw [redraw_eq hc, redraw_eq (hconfigured.trans hc), hpool, hprep, hshm,
      paint_put (s.prepared s.pool) hk]
    cases s.pool.1 with
    | none => rfl
    | some pool =>
      dsimp only
      -- Both draw the same into the same pool.
      rcases pool.draw (s.prepared s.pool).shm (s.prepared s.pool).paint with
        ⟨e | ⟨pool', drawn⟩, shm'⟩
      · rfl
      · have hcommit : ∀ (b : Bool) (t : GreetState),
            (if b then (safe.put t k).request (.attachAndCommit drawn) else safe.put t k) =
              safe.put (if b then t.request (.attachAndCommit drawn) else t) k := by
          intro b t
          cases b <;> rfl
        exact hcommit s.surface { (s.prepared s.pool).setShm shm' with buffer := some pool' }

theorem secrets_redraw (s : GreetState) : safe.get s.redraw = safe.get s := by
  rcases s.redraw_cases with h | ⟨shm, buffer, made, commit, -, h, -⟩
  · rw [h]
  · rw [h]
    rfl

namespace Alike

theorem redraw (h : s.Alike s') : s.redraw.Alike s'.redraw := by
  obtain ⟨k, rfl, hk⟩ := h
  refine ⟨k, redraw_put s hk.password, ?_⟩
  rw [secrets_redraw]
  exact hk

/-- The passwords are edited, and keep having the same shape. -/
theorem edit (h : s.Alike s') {p p' : String} (hp : shape p = shape p') :
    Alike { s with password := p } { s' with password := p' } := by
  obtain ⟨k, rfl, hk⟩ := h
  exact ⟨{ k with password := p' }, rfl, hp, hk.exchanged⟩

/-! ### The conversation -/

/-- The same is said to greetd but for the password, and it answers the same. -/
theorem talk (h : s.Alike s') {r r' : Request} (hr : r.shape = r'.shape) :
    Alike (s.talk r).1 (s'.talk r').1 ∧ (s'.talk r').2 = (s.talk r).2 := by
  obtain ⟨k, rfl, hk⟩ := h
  have hold : s.exchanged.map Exchange.shape = k.exchanged.map Exchange.shape := hk.exchanged
  have hnew : ∀ a, (s.exchanged ++ [(⟨r, a, s.username⟩ : Exchange)]).map Exchange.shape =
      (k.exchanged ++ [(⟨r', a, s.username⟩ : Exchange)]).map Exchange.shape := by
    intro a
    rw [List.map_append, List.map_append, hold, List.map_singleton, List.map_singleton,
      Exchange.shape, Exchange.shape, hr]
  have hanswer : (safe.put s k).link.answers (safe.put s k).asked = s.link.answers s.asked := rfl
  simp only [GreetState.talk, hanswer]
  cases s.link.answers s.asked with
  | unwritten e => exact ⟨⟨k, rfl, hk⟩, rfl⟩
  | response q => exact ⟨⟨⟨k.password, _⟩, rfl, hk.password, hnew (.response q)⟩, rfl⟩
  | unread e => exact ⟨⟨⟨k.password, _⟩, rfl, hk.password, hnew (.unread e)⟩, rfl⟩

theorem startSession (h : s.Alike s') : s.startSession.Alike s'.startSession := (h.talk rfl).1

theorem cancel (h : s.Alike s') : s.cancel.Alike s'.cancel := (h.talk rfl).1

theorem submitRequest (h : s.Alike s') :
    Alike s.submitRequest.1 s'.submitRequest.1 ∧ s'.submitRequest.2 = s.submitRequest.2 := by
  have hempty : s'.password.isEmpty = s.password.isEmpty := by
    rw [isEmpty_eq_isEmpty_shape, isEmpty_eq_isEmpty_shape]
    exact congrArg List.isEmpty h.rel.password.symm
  have hpost : (Request.postAuthMessageResponse
        (if s.password.isEmpty then none else some s.password)).shape =
      (Request.postAuthMessageResponse
        (if s'.password.isEmpty then none else some s'.password)).shape := by
    rw [hempty]
    split
    · rfl
    · exact congrArg (Prod.mk _) h.rel.password
  have hposted := talk (h.edit (rfl : shape "" = shape "")) hpost
  have hcreated := h.talk (rfl : (Request.createSession s.username).shape = _)
  have hif : ∀ (b : Bool) {x x' y y' : GreetState × Answer}, Alike x.1 x'.1 ∧ x'.2 = x.2 →
      Alike y.1 y'.1 ∧ y'.2 = y.2 →
      Alike (if !b then x else y).1 (if !b then x' else y').1 ∧
        (if !b then x' else y').2 = (if !b then x else y).2 := by
    intro b x x' y y' hx hy
    cases b with
    | false => exact hx
    | true => exact hy
  obtain ⟨k, rfl, -⟩ := h
  exact hif s.awaitingResponse hcreated hposted

theorem submitAnswer (h : s.Alike s') (answer : Answer) :
    (s.submitAnswer answer).Alike (s'.submitAnswer answer) := by
  have hfailed : ∀ error, safe.Blind fun s => { s with error := error, pending := false } :=
    fun _ _ _ => rfl
  cases answer with
  | response r =>
    simp only [GreetState.submitAnswer]
    cases classify r with
    | prompt text ty =>
      have hprompt : safe.Blind fun s =>
          { s with
            prompt := some text, awaitingResponse := true, focus := .password, error := none,
            pending := false } := fun _ _ => rfl
      exact hprompt.alike h
    | success =>
      have hclose : safe.Blind fun s => { s with shouldClose := true } := fun _ _ => rfl
      have hstarted := h.startSession
      obtain ⟨k, rfl, hk⟩ := h
      exact hclose.alike (.ite hstarted ⟨k, rfl, hk⟩)
    | failure reason =>
      have hreset : safe.Blind fun s =>
          { s with error := some reason, awaitingResponse := false, focus := .password } :=
        fun _ _ => rfl
      have hended : safe.Blind fun s => { s with pending := false } := fun _ _ => rfl
      have hcleared := Alike.edit (hreset.alike h) (rfl : shape "" = shape "")
      have hcancelled := Alike.cancel hcleared
      obtain ⟨k, rfl, -⟩ := h
      exact hended.alike (.ite hcancelled hcleared)
  | unwritten e => exact (hfailed _).alike h
  | unread e => exact (hfailed _).alike h

theorem submitOver (h : s.Alike s') : s.submitOver.Alike s'.submitOver := by
  have hpending : safe.Blind fun s => { s with pending := true } := fun _ _ => rfl
  obtain ⟨hasked, hanswer⟩ := submitRequest (hpending.alike h)
  rw [GreetState.submitOver, GreetState.submitOver]
  dsimp only at hanswer ⊢
  rw [hanswer]
  exact Alike.redraw (Alike.submitAnswer hasked _)

/-- How the attempt to connect goes decides. -/
theorem byConnect (r : Except String Unit) {x x' : GreetState} {y y' : String → GreetState} :
    Alike x x' → (∀ e, Alike (y e) (y' e)) →
      Alike (match r with | .ok () => x | .error e => y e)
        (match r with | .ok () => x' | .error e => y' e) := by
  intro hx hy
  cases r with
  | ok u => exact hx
  | error e => exact hy e

theorem submit (h : s.Alike s') : s.submit.Alike s'.submit := by
  have hrequired : safe.Blind fun s => { s with error := some "username required" } := fun _ _ => rfl
  have hattempt : safe.Blind fun s => { s with attempts := s.attempts + 1 } := fun _ _ => rfl
  have hconnect : safe.Blind fun s => { s with attempts := s.attempts + 1, greetd := true } :=
    fun _ _ => rfl
  have hunreachable : ∀ e, safe.Blind fun s =>
      { s with attempts := s.attempts + 1, error := some ("greetd unreachable: " ++ e) } :=
    fun _ _ _ => rfl
  have hconnected := byConnect (s.link.connects s.attempts)
    (Alike.submitOver (hconnect.alike h)) fun e => Alike.redraw ((hunreachable e).alike h)
  have hrefused := Alike.redraw (hrequired.alike h)
  have hover := h.submitOver
  obtain ⟨k, rfl, hk⟩ := h
  rw [GreetState.submit, GreetState.submit]
  exact .ite ⟨k, rfl, hk⟩ (.ite hrefused (.ite hconnected hover))

/-! ### Typing -/

theorem shape_password (h : s.Alike s') : shape s.password = shape s'.password := h.rel.password

/-- The field that has the focus decides. -/
theorem byFocus (f : FocusedField) {x x' y y' : GreetState} :
    (f = .username → Alike x x') → Alike y y' →
      Alike (match f with | .username => x | .password => y)
        (match f with | .username => x' | .password => y') := by
  intro hx hy
  cases f with
  | username => exact hx rfl
  | password => exact hy

theorem handleAction (h : s.Alike s') (a : Action) : (s.handleAction a).Alike (s'.handleAction a) := by
  have hpop : shape (String.ofList s.password.toList.dropLast) =
      shape (String.ofList s'.password.toList.dropLast) := by
    rw [shape_dropLast, shape_dropLast, h.shape_password]
  have hfocus : ∀ focus, safe.Blind fun s => { s with focus := focus } := fun _ _ _ => rfl
  have hname : ∀ name, safe.Blind fun s => { s with username := name } := fun _ _ _ => rfl
  cases a with
  | tab =>
    have htab := Alike.redraw ((hfocus (match s.focus with
      | .username => .password
      | .password => .username)).alike h)
    obtain ⟨k, rfl, -⟩ := h
    exact htab
  | backspace =>
    have hnamed := Alike.redraw ((hname (String.ofList s.username.toList.dropLast)).alike h)
    have hpopped := (h.edit hpop).redraw
    obtain ⟨k, rfl, -⟩ := h
    exact byFocus s.focus (fun _ => hnamed) hpopped
  | enter =>
    have hfocused := Alike.redraw ((hfocus .password).alike h)
    have hsubmitted := h.submit
    obtain ⟨k, rfl, -⟩ := h
    exact .ite hfocused hsubmitted
  | escape =>
    have hreset : safe.Blind fun s =>
        { s with username := "", awaitingResponse := false, error := none } := fun _ _ => rfl
    have hcleared := Alike.edit (hreset.alike h) (rfl : shape "" = shape "")
    have hcancelled := Alike.cancel hcleared
    obtain ⟨k, rfl, -⟩ := h
    exact Alike.redraw (.ite hcancelled hcleared)
  | _ => exact h.redraw

/-- The same text, or one of the same shape for the password. -/
theorem handleText (h : s.Alike s') {t t' : String} (ht : shape t = shape t')
    (hname : s.focus = .username → t = t') : (s.handleText t).Alike (s'.handleText t') := by
  have hnamed : ∀ name, safe.Blind fun s => { s with username := name } := fun _ _ _ => rfl
  have happend : shape (s.password ++ t) = shape (s'.password ++ t') := by
    rw [shape_append, shape_append, h.shape_password, ht]
  have hnameText : s.focus = .username →
      Alike { s with username := s.username ++ t }.redraw
        { s' with username := s'.username ++ t' }.redraw := by
    intro hf
    rw [← hname hf, h.congr username fun _ _ => rfl]
    exact Alike.redraw ((hnamed _).alike h)
  have htyped := (h.edit happend).redraw
  obtain ⟨k, rfl, hk⟩ := h
  exact .ite ⟨k, rfl, hk⟩ (byFocus s.focus hnameText htyped)

theorem dispatchKey (h : s.Alike s') (key : UInt32) (pressed : Bool) :
    (s.dispatchKey key pressed).Alike (s'.dispatchKey key pressed) := by
  have hkeymap := h.congr keymap fun _ _ => rfl
  rw [GreetState.dispatchKey, GreetState.dispatchKey, hkeymap]
  split
  · cases s.keymap.processKey key with
    | action a => exact h.handleAction a
    | text t => exact h.handleText rfl fun _ => rfl
    | none => exact h
  · exact h

/-- Two keys that type texts of the same shape into the password field. -/
theorem dispatchKey_of_sameShape (h : s.Alike s') {key key' : UInt32} (hf : s.focus = .password)
    (hkeys : s.keymap.SameShape key key') :
    (s.dispatchKey key true).Alike (s'.dispatchKey key' true) := by
  obtain ⟨t, t', ht, ht', hshape⟩ := hkeys
  have hkeymap := h.congr keymap fun _ _ => rfl
  have hname : s.focus = .username → t = t' := by
    rw [hf]
    exact fun hne => nomatch hne
  simp only [GreetState.dispatchKey, hkeymap, ht, ht', if_true]
  exact h.handleText hshape hname

/-! ### The other events -/

/-- **What the greeter is told changes nothing of what it shows**, whatever the password is. -/
theorem dispatch (h : s.Alike s') (ev : ServerEvent) : (s.dispatch ev).Alike (s'.dispatch ev) := by
  cases ev with
  | ping serial =>
    have hpong : safe.Blind fun s => s.request (.pong serial) := fun _ _ => rfl
    exact hpong.alike h
  | configure serial =>
    have hack : safe.Blind fun s => { s.request (.ackConfigure serial) with configured := true } :=
      fun _ _ => rfl
    exact Alike.redraw (hack.alike h)
  | toplevelConfigure width height =>
    have hsize : safe.Blind fun s => s.dispatchToplevel width height := by
      intro s k
      simp only [dispatchToplevel]
      split <;> split <;> rfl
    exact hsize.alike h
  | close =>
    have hclose : safe.Blind fun s => { s with shouldClose := true } := fun _ _ => rfl
    exact hclose.alike h
  | capabilities keyboard =>
    have hkeyboard : safe.Blind fun s => { s.request .getKeyboard with keyboard := true } :=
      fun _ _ => rfl
    have hbound := hkeyboard.alike h
    obtain ⟨k, rfl, hk⟩ := h
    exact .ite hbound ⟨k, rfl, hk⟩
  | keymap xkbV1 loaded =>
    have hkeymap : safe.Blind fun s =>
        if xkbV1 then { s with keymap := s.keymap.applyKeymap loaded } else s := by
      intro s k
      cases xkbV1 <;> rfl
    exact hkeymap.alike h
  | modifiers mods =>
    have hmods : safe.Blind fun s => { s with keymap := s.keymap.updateModifiers mods } :=
      fun _ _ => rfl
    exact hmods.alike h
  | key key pressed => exact h.dispatchKey key pressed
  | release wlBuf =>
    have hrelease : safe.Blind fun s =>
        { s with buffer := s.buffer.map fun b => b.markReleased wlBuf } := fun _ _ => rfl
    exact hrelease.alike h
  | other => exact h

end Alike

/-- What the greeter may be told in a second run where it is told the other thing in this one: the
same, or of another key that types a text of the same shape into the password field. -/
inductive Retyped (s : GreetState) : ServerEvent → ServerEvent → Prop
  | same (ev : ServerEvent) : s.Retyped ev ev
  | typed {key key' : UInt32} (hf : s.focus = .password) (hkeys : s.keymap.SameShape key key') :
      s.Retyped (.key key true) (.key key' true)

theorem Alike.retyped (h : s.Alike s') {ev ev' : ServerEvent} (hev : s.Retyped ev ev') :
    (s.dispatch ev).Alike (s'.dispatch ev') := by
  cases hev with
  | same ev => exact h.dispatch ev
  | typed hf hkeys => exact h.dispatchKey_of_sameShape hf hkeys

end GreetState

/-- **The greeter shows nothing of a password but its shape.** In two runs over the same connection
that differ in the keys that type into the password field, texts of the same shape at every place,
the same is requested of the compositor with the same pictures, greetd is asked and answers the same
but for the password itself, and the greeter leaves in both or in neither. -/
theorem password_unseen (failure : ℕ → Option String) (link : Link) {es es' : List ServerEvent}
    (h : (greeter failure link).SideBySide GreetState.Retyped
      (GreetState.new failure link).initSurface es es') :
    let t := (greeter failure link).run (GreetState.new failure link).initSurface es
    let t' := (greeter failure link).run (GreetState.new failure link).initSurface es'
    t'.sent = t.sent ∧ t'.shouldClose = t.shouldClose ∧
      t'.exchanged.map Exchange.shape = t.exchanged.map Exchange.shape := by
  obtain ⟨-, hend⟩ := h.run (R := GreetState.Alike)
    (fun _ _ _ _ hR _ hE => ⟨trivial, hR.retyped hE⟩) (.refl .refl _)
    (greeter_legal failure link _ es)
  exact ⟨hend.congr GreetState.sent fun _ _ => rfl,
    hend.congr GreetState.shouldClose fun _ _ => rfl, hend.rel.exchanged.symm⟩

/-- A name is typed, greetd asks for the password, a letter is typed and sent. -/
def guess (key : UInt32) : List ServerEvent :=
  [.configure 1, .keymap true (some twoLetters), .key 30 true, .key 28 true, .key 28 true,
    .key key true, .key 28 true]

/-- A greetd that asks for a password and refuses it. -/
def strictLink : Link where
  connects _ := .ok ()
  answers n :=
    if n = 0 then .response (.authMessage .secret "Password:")
    else .response (.error .authError "no")

theorem password_unseen_guess :
    let t := (greeter (fun _ => none) strictLink).run
      (GreetState.new (fun _ => none) strictLink).initSurface (guess 30)
    let t' := (greeter (fun _ => none) strictLink).run
      (GreetState.new (fun _ => none) strictLink).initSurface (guess 48)
    t'.sent = t.sent ∧ t'.shouldClose = t.shouldClose ∧
      t'.exchanged.map Exchange.shape = t.exchanged.map Exchange.shape :=
  password_unseen (fun _ => none) strictLink
    ⟨.same _, .same _, .same _, .same _, .same _, .typed (by decide) ⟨"a", "b", rfl, rfl, rfl⟩,
      .same _, trivial⟩

end NxGreet

end Nullxes
