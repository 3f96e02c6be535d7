import Nullxes.Library.Logs
import Nullxes.NxLock.Auth

/-!
# When the session is unlocked

The process of the lock client with a log of what matters of it: the lock confirmed or refused, the
results `poll_auth` takes, the requests made, what is flushed, and the code it leaves with. The
environment is free: any event in any order, and a PAM worker that answers whatever it likes.

`poll_auth` asks neither whether the lock was confirmed nor whether it was refused in the meantime,
and its request is in the buffer of the connection when the loop ends.

## Main definitions

* `Entry`, `Watched` — the log, and the process with it
* `unlockLaw` — when `unlock_and_destroy` may be requested and the process leave with code 0
* `Timely` — the steps that keep within the law

## Main results

* `unlock_lawful_iff` — a run is lawful exactly when each of its steps is timely
-/

namespace Nullxes

namespace NxLock

open Wlcommon

/-! ## The log -/

/-- What is logged of a process. -/
inductive Entry
  | locked
  | finished
  /-- `poll_auth` takes a result. -/
  | result (r : AuthResult)
  /-- A request is made. -/
  | request (r : Request)
  /-- A request is handed to the socket. -/
  | flushed (r : Request)
  /-- The process leaves. -/
  | left (code : ℤ)
  deriving DecidableEq, Repr

/-- `unlock_and_destroy`. -/
def Request.isUnlock : Request → Bool
  | .unlockAndDestroy _ => true
  | _ => false

/-- **The law.** `unlock_and_destroy` is requested once at most, after a PAM Ok and a confirmed lock
and not after a refusal; with code 0 the process leaves only when that request was handed over. -/
def unlockLaw (past : List Entry) : Entry → Prop
  | .request (.unlockAndDestroy _) =>
    .result .ok ∈ past ∧ .locked ∈ past ∧ .finished ∉ past ∧
      ∀ r, .request r ∈ past → r.isUnlock = false
  | .left code => code = 0 → ∃ r, .flushed r ∈ past ∧ r.isUnlock = true
  | _ => True

/-- What can happen to a process. -/
inductive Happening
  | receive (ev : ServerEvent)
  | act (a : Act)

namespace Process

/-- What was requested and not flushed. -/
def unflushed : Process → List Request
  | .running s _ => s.sent
  | _ => []

/-- What a process takes note of. -/
def notes : Process → Happening → List Entry
  | .running _ _, .receive .locked => [.locked]
  | .running _ _, .receive .finished => [.finished]
  | .running s _, .act .poll => s.results.map .result
  | .running s _, .act .leave => [.left s.exitCode]
  | _, _ => []

/-- The process after something happened, with what was flushed. -/
def happen (username : String) (failure : ℕ → Option String) (p : Process) :
    Happening → Process × List Request
  | .receive ev => (p.receive ev, [])
  | .act a => act username failure p a

/-- What something that happens adds to the log. -/
def entries (username : String) (failure : ℕ → Option String) (p : Process) (h : Happening) :
    List Entry :=
  let (p', flushed) := p.happen username failure h
  p.notes h ++ (p'.unflushed.drop p.unflushed.length).map .request ++ flushed.map .flushed

end Process

/-- A process with its log. -/
structure Watched where
  process : Process
  log : List Entry

/-- The process in an arbitrary environment. -/
def watched (username : String) (failure : ℕ → Option String) :
    EventMachine Watched Happening where
  Init w := w = ⟨.absent, []⟩
  Enabled w
    | .receive _ => w.process.isReady
    | .act a => w.process.canAct a
  step w h :=
    ⟨(w.process.happen username failure h).1, w.log ++ w.process.entries username failure h⟩

/-- No poll takes an Ok before the lock is confirmed or in the batch that refuses it, and the loop
is not left once one was taken. -/
def Timely (w : Watched) : Happening → Prop
  | .act .poll =>
    match w.process with
    | .running s _ => .ok ∈ s.results → s.locked = true ∧ s.shouldQuit = false
    | _ => True
  | .act .leave => .result .ok ∉ w.log
  | _ => True

instance (w : Watched) (h : Happening) : Decidable (Timely w h) := by
  unfold Timely
  split
  · split <;> infer_instance
  · infer_instance
  · infer_instance

/-! ## What the handlers leave alone -/

namespace LockState

/-- Where the lock and the loop stand. -/
def standing (s : LockState) : Option Proxy × Bool × Bool × ℤ :=
  (s.lock, s.locked, s.shouldQuit, s.exitCode)

/-- What every handler but three does with the lock: nothing, and it does not ask to unlock. -/
structure Keeps (s s' : LockState) : Prop where
  standing : s'.standing = s.standing
  sent : ∃ new, s'.sent = s.sent ++ new ∧ ∀ r ∈ new, r.isUnlock = false

theorem lock_of_standing {s s' : LockState} (h : s'.standing = s.standing) : s'.lock = s.lock :=
  congrArg (fun p => p.1) h

theorem locked_of_standing {s s' : LockState} (h : s'.standing = s.standing) :
    s'.locked = s.locked :=
  congrArg (fun p => p.2.1) h

theorem shouldQuit_of_standing {s s' : LockState} (h : s'.standing = s.standing) :
    s'.shouldQuit = s.shouldQuit :=
  congrArg (fun p => p.2.2.1) h

theorem exitCode_of_standing {s s' : LockState} (h : s'.standing = s.standing) :
    s'.exitCode = s.exitCode :=
  congrArg (fun p => p.2.2.2) h

namespace Keeps

variable {s s' s'' : LockState}

theorem of_eq (hst : s'.standing = s.standing) (hs : s'.sent = s.sent) : s.Keeps s' :=
  ⟨hst, [], by rw [hs, List.append_nil], nofun⟩

theorem refl (s : LockState) : s.Keeps s := .of_eq rfl rfl

theorem trans (h : s.Keeps s') (h' : s'.Keeps s'') : s.Keeps s'' := by
  obtain ⟨new, hnew, hn⟩ := h.sent
  obtain ⟨new', hnew', hn'⟩ := h'.sent
  refine ⟨h'.standing.trans h.standing, new ++ new', by rw [hnew', hnew, List.append_assoc],
    fun r hr => ?_⟩
  exact (List.mem_append.mp hr).elim (hn r) (hn' r)

/-- The fields it speaks of are those of another state as well. -/
theorem of_left (h : s'.Keeps s'') (hst : s'.standing = s.standing) (hs : s'.sent = s.sent) :
    s.Keeps s'' :=
  (of_eq hst hs).trans h

theorem append {new : List Request} (hst : s'.standing = s.standing)
    (hs : s'.sent = s.sent ++ new) (hn : ∀ r ∈ new, r.isUnlock = false) : s.Keeps s' :=
  ⟨hst, new, hs, hn⟩

theorem foldl {α : Type} {f : LockState → α → LockState}
    (h : ∀ (s : LockState) a, s.Keeps (f s a)) :
    ∀ (l : List α) (s : LockState), s.Keeps (l.foldl f s) := by
  intro l
  induction l with
  | nil => exact refl
  | cons a l ih => exact fun s => (h s a).trans (ih _)

end Keeps

theorem keeps_request (s : LockState) {r : Request} (hr : r.isUnlock = false) :
    s.Keeps (s.request r) :=
  .append rfl rfl (by simpa using hr)

theorem keeps_repaintOutput (s : LockState) (i : ℕ) : s.Keeps (s.repaintOutput i) := by
  rcases s.repaintOutput_cases i with
    h | ⟨out, shm, buffer, made, commit, -, -, h, ⟨-, hc⟩ | ⟨pool, pool', drawn, hd⟩⟩
  · rw [h]
    exact .refl s
  · rw [h, hc]
    exact .append rfl (List.append_assoc _ _ _) (by simp [Request.isUnlock])
  · rw [h, hd.commit]
    refine .append rfl (List.append_assoc _ _ _) fun r hr => ?_
    rcases List.mem_append.mp hr with hr | hr
    · obtain ⟨q, -, rfl⟩ := List.mem_map.mp hr
      rfl
    · obtain ⟨surface, -, rfl⟩ := List.mem_map.mp hr
      rfl

theorem keeps_repaintAll (s : LockState) : s.Keeps s.repaintAll :=
  .foldl keeps_repaintOutput _ s

theorem keeps_createLockSurfaceFor (s : LockState) (i : ℕ) (lock : Proxy) :
    s.Keeps (s.createLockSurfaceFor i lock) := by
  rw [createLockSurfaceFor]
  split
  · exact .refl s
  · split
    · exact .refl s
    · exact .append rfl rfl (by simp [Request.isUnlock])

theorem keeps_submitPassword (s : LockState) : s.Keeps s.submitPassword := by
  rw [submitPassword]
  split
  · exact .refl s
  · have hpaint : s.Keeps { s with pending := true }.repaintAll :=
      (keeps_repaintAll { s with pending := true }).of_left rfl rfl
    exact hpaint.trans (.of_eq rfl rfl)

theorem keeps_dispatchKey (s : LockState) (key : UInt32) (pressed : Bool) :
    s.Keeps (s.dispatchKey key pressed) := by
  have hpaint : ∀ pw, s.Keeps { s with password := pw }.repaintAll := fun pw =>
    (keeps_repaintAll { s with password := pw }).of_left rfl rfl
  rw [dispatchKey]
  split
  · cases s.keymap.processKey key with
    | action a =>
      cases a with
      | enter => exact s.keeps_submitPassword
      | backspace => exact hpaint _
      | escape => exact hpaint _
      | _ => exact .refl s
    | text t =>
      simp only [handleText]
      split
      · exact hpaint _
      · exact .refl s
    | none => exact .refl s
  · exact .refl s

/-- Only `locked` and `finished` change where the lock stands, and no event unlocks. -/
theorem keeps_dispatch (s : LockState) (ev : ServerEvent) (hl : ev ≠ .locked)
    (hf : ev ≠ .finished) : s.Keeps (s.dispatch ev) := by
  cases ev with
  | locked => exact absurd rfl hl
  | finished => exact absurd rfl hf
  | configure surf serial width height =>
    have hack : s.Keeps (s.request (.ackConfigure surf serial)) := s.keeps_request rfl
    simp only [dispatch, dispatchConfigure]
    split
    · exact hack
    · exact hack.trans ((keeps_repaintOutput _ _).of_left rfl rfl)
  | mode output width height =>
    obtain ⟨outputs, -, ⟨-, h⟩ | ⟨lock, -, h⟩⟩ := s.dispatchMode_cases output width height
    · rw [dispatch, h]
      exact .of_eq rfl rfl
    · rw [dispatch, h]
      exact (keeps_createLockSurfaceFor _ _ _).of_left rfl rfl
  | capabilities keyboard =>
    simp only [dispatch, dispatchCapabilities]
    split
    · exact (s.keeps_request rfl).trans (.of_eq rfl rfl)
    · exact .refl s
  | keymap xkbV1 loaded =>
    simp only [dispatch]
    split
    · exact .of_eq rfl rfl
    · exact .refl s
  | modifiers mods => exact .of_eq rfl rfl
  | key key pressed => exact s.keeps_dispatchKey key pressed
  | release wlBuf => exact .of_eq rfl rfl
  | other => exact .refl s

theorem keeps_dispatchLocked (s : LockState) (lock : Proxy) :
    Keeps { s with locked := true } (s.dispatchLocked lock) :=
  .foldl (fun s i => s.keeps_createLockSurfaceFor i lock) _ _

theorem keeps_takeResult_fail (s : LockState) (reason : String) :
    s.Keeps (s.takeResult (.fail reason)) :=
  (keeps_repaintAll
    { s with pending := false, failCount := s.failCount + 1, password := "" }).of_left
    rfl rfl

theorem takeResult_ok {s : LockState} {lock : Proxy} (hl : s.lock = some lock) :
    s.takeResult .ok =
      { s with
        pending := false
        sent := s.sent ++ [.unlockAndDestroy lock]
        shouldQuit := true
        exitCode := 0 } := by
  simp only [takeResult, hl, request]

theorem isUnlock_engage {username : String} {failure : ℕ → Option String} {r : Request}
    (hr : r ∈ (new username failure).engage.sent) : r.isUnlock = false := by
  simp only [engage, request, new, List.mem_append, List.mem_cons, List.not_mem_nil,
    or_false] at hr
  rcases hr with (rfl | rfl | rfl | rfl) | rfl <;> rfl

/-! ### One result at a time -/

/-- What is in flight is accounted for. -/
def Settled (s : LockState) : Prop := ∃ asked taken, Session.Accounted ⟨s.prompt, asked, taken⟩

theorem Settled.exchange {s : LockState} (h : s.Settled) {e : Exchange ServerEvent}
    (he : Session.canExchange s.checking s.requests e = true) :
    ((⟨s, [], []⟩ : Session LockState).exchange e).state.Settled := by
  obtain ⟨asked, taken, hs⟩ := h
  have hprompt := Session.prompt_exchange ⟨s, asked, taken⟩ e
  have hreply : Session.Accounted ((⟨s, asked, taken⟩ : Session LockState).exchange e).prompt := by
    rw [hprompt]
    exact hs.reply (by cases e <;> exact he)
  cases e <;> exact ⟨_, _, hreply⟩

theorem Settled.results_length {s : LockState} (h : s.Settled) : s.results.length ≤ 1 := by
  obtain ⟨asked, taken, hs⟩ := h
  have hone : s.requests.length + s.checking.toList.length + s.results.length = s.pending.toNat :=
    hs.pending
  have hle := Bool.toNat_le s.pending
  omega

end LockState

/-! ## The invariant -/

/-- Where a running client stands, seen from its log. -/
structure Sound (s : LockState) (phase : Phase) (log : List Entry) : Prop where
  settled : s.Settled
  lock : s.lock.isSome = true
  locked : .locked ∈ log ↔ s.locked = true
  finished : .finished ∈ log → s.shouldQuit = true
  /-- The loop is left when its test is next made. -/
  quit : s.shouldQuit = true → phase ≠ .waiting ∧ (phase = .dispatching → .finished ∈ log)
  accepted : .result .ok ∈ log → phase = .test ∧ s.shouldQuit = true
  exitCode : s.shouldQuit = true → (s.exitCode = 0 ↔ .result .ok ∈ log)
  unlock : ∀ r, .request r ∈ log → r.isUnlock = true → phase = .test ∧ s.shouldQuit = true
  sent : ∀ r ∈ s.sent, .request r ∈ log
  flushed : ∀ r, .flushed r ∈ log → r.isUnlock = false

/-- What was requested since. -/
def newRequests (s s' : LockState) : List Entry := (s'.sent.drop s.sent.length).map .request

namespace Process

variable (username : String) (failure : ℕ → Option String) (s : LockState) (phase : Phase)

theorem entries_receive (ev : ServerEvent) :
    (running s phase).entries username failure (.receive ev) =
      (running s phase).notes (.receive ev) ++ newRequests s (s.dispatch ev) := by
  simp only [entries, happen, receive, unflushed, newRequests, List.map_nil, List.append_nil]

theorem entries_enter :
    (running s .test).entries username failure (.act .enter) = s.sent.map .flushed := by
  simp only [entries, happen, act, notes, unflushed, List.drop_nil, List.map_nil, List.nil_append]

theorem entries_poll :
    (running s .dispatching).entries username failure (.act .poll) =
      s.results.map .result ++ newRequests s s.pollAuth := by
  simp only [entries, happen, act, notes, unflushed, newRequests, List.map_nil, List.append_nil]

theorem entries_leave :
    (running s .test).entries username failure (.act .leave) =
      [.left s.exitCode, .flushed .hangUp] := by
  simp only [entries, happen, act, notes, unflushed, List.drop_nil, List.map_nil,
    List.map_singleton, List.append_nil, List.singleton_append]

theorem sent_takeRequest : (takeRequest s).sent = s.sent := by
  rw [takeRequest]
  split <;> rfl

theorem entries_takeRequest :
    (running s phase).entries username failure (.act .takeRequest) = [] := by
  cases phase <;> simp only [entries, happen, act, notes, unflushed, sent_takeRequest,
    List.drop_length, List.map_nil, List.append_nil]

theorem entries_answer (result : AuthResult) :
    (running s phase).entries username failure (.act (.answer result)) = [] := by
  cases phase <;> simp only [entries, happen, act, notes, unflushed, List.drop_length,
    List.map_nil, List.append_nil]

end Process

theorem mem_newRequests {s s' : LockState} (h : s.Keeps s') {e : Entry}
    (he : e ∈ newRequests s s') : ∃ r, e = .request r ∧ r.isUnlock = false := by
  obtain ⟨new, hnew, hn⟩ := h.sent
  rw [newRequests, hnew, List.drop_left] at he
  obtain ⟨r, hr, rfl⟩ := List.mem_map.mp he
  exact ⟨r, rfl, hn r hr⟩

namespace Sound

variable {s s' : LockState} {phase phase' : Phase} {log : List Entry}

/-- A step inside the loop that leaves the lock alone. -/
theorem advance (h : Sound s phase log) (hk : s.Keeps s') (hset : s'.Settled) {notes : List Entry}
    (hnotes : ∀ e ∈ notes, ∃ reason, e = .result (.fail reason)) (hphase : phase ≠ .test)
    (hphase' : phase' ≠ .waiting) : Sound s' phase' (log ++ (notes ++ newRequests s s')) := by
  have hnew : ∀ e ∈ notes ++ newRequests s s', (∃ reason, e = .result (.fail reason)) ∨
      ∃ r, e = .request r ∧ r.isUnlock = false := fun e he =>
    (List.mem_append.mp he).imp (hnotes e) (mem_newRequests hk)
  have hmem : ∀ e, (∀ reason, e ≠ .result (.fail reason)) → (∀ r, e ≠ .request r) →
      (e ∈ log ++ (notes ++ newRequests s s') ↔ e ∈ log) := by
    intro e hr hq
    refine ⟨fun he => (List.mem_append.mp he).resolve_right fun he => ?_,
      List.mem_append_left _⟩
    rcases hnew e he with ⟨reason, rfl⟩ | ⟨r, rfl, -⟩
    · exact hr reason rfl
    · exact hq r rfl
  have hquit : s'.shouldQuit = s.shouldQuit := LockState.shouldQuit_of_standing hk.standing
  constructor
  case settled => exact hset
  case lock => exact LockState.lock_of_standing hk.standing ▸ h.lock
  case locked =>
    rw [hmem .locked nofun nofun, LockState.locked_of_standing hk.standing]
    exact h.locked
  case finished =>
    rw [hmem .finished nofun nofun, hquit]
    exact h.finished
  case quit =>
    rw [hmem .finished nofun nofun, hquit]
    intro hq
    refine ⟨hphase', fun _ => (h.quit hq).2 ?_⟩
    cases phase with
    | test => exact absurd rfl hphase
    | waiting => exact absurd rfl (h.quit hq).1
    | dispatching => rfl
  case accepted =>
    rw [hmem (.result .ok) nofun nofun]
    exact fun hok => absurd (h.accepted hok).1 hphase
  case exitCode =>
    rw [hmem (.result .ok) nofun nofun, hquit, LockState.exitCode_of_standing hk.standing]
    exact h.exitCode
  case unlock =>
    intro r hr hu
    rcases List.mem_append.mp hr with hr | hr
    · exact absurd (h.unlock r hr hu).1 hphase
    · rcases hnew _ hr with ⟨_, heq⟩ | ⟨r', heq, hu'⟩
      · cases heq
      · cases heq
        rw [hu] at hu'
        cases hu'
  case sent =>
    obtain ⟨new, hsent, -⟩ := hk.sent
    intro r hr
    rw [newRequests, hsent, List.drop_left]
    rw [hsent] at hr
    rcases List.mem_append.mp hr with hr | hr
    · exact List.mem_append_left _ (h.sent r hr)
    · exact List.mem_append_right _ (List.mem_append_right _ (List.mem_map_of_mem hr))
  case flushed =>
    intro r hr
    rw [hmem (.flushed r) nofun nofun] at hr
    exact h.flushed r hr

theorem noteLocked (h : Sound s phase log) :
    Sound { s with locked := true } phase (log ++ [.locked]) where
  settled := h.settled
  lock := h.lock
  locked := by simp
  finished hf := h.finished (by simpa using hf)
  quit hq := (h.quit hq).imp_right fun hf hp => List.mem_append_left _ (hf hp)
  accepted hok := h.accepted (by simpa using hok)
  exitCode hq := by simpa using h.exitCode hq
  unlock r hr := h.unlock r (by simpa using hr)
  sent r hr := List.mem_append_left _ (h.sent r hr)
  flushed r hr := h.flushed r (by simpa using hr)

theorem noteFinished (h : Sound s phase log) (hphase : phase ≠ .test) :
    Sound s.dispatchFinished .dispatching (log ++ [.finished]) where
  settled := h.settled
  lock := h.lock
  locked := by
    rw [List.mem_append, or_iff_left (by simp)]
    exact h.locked
  finished _ := rfl
  quit _ := ⟨nofun, fun _ => by simp⟩
  accepted hok := absurd (h.accepted (by simpa using hok)).1 hphase
  exitCode _ := by
    have hnone : .result .ok ∉ log := fun hok => hphase (h.accepted hok).1
    simpa [LockState.dispatchFinished] using hnone
  unlock r hr hu := absurd (h.unlock r (by simpa using hr) hu).1 hphase
  sent r hr := List.mem_append_left _ (h.sent r hr)
  flushed r hr := h.flushed r (by simpa using hr)

theorem flush (h : Sound s .test log) (hq : s.shouldQuit = false) :
    Sound { s with sent := [] } .waiting (log ++ s.sent.map .flushed) := by
  have hrunning : s.shouldQuit ≠ true := ne_true_of_eq_false hq
  constructor
  case settled => exact h.settled
  case lock => exact h.lock
  case locked =>
    rw [List.mem_append, or_iff_left (by simp)]
    exact h.locked
  case finished => exact fun hf => h.finished (by simpa using hf)
  case quit => exact fun hq' => absurd hq' hrunning
  case accepted => exact fun hok => absurd (h.accepted (by simpa using hok)).2 hrunning
  case exitCode => exact fun hq' => absurd hq' hrunning
  case unlock => exact fun r hr hu => absurd (h.unlock r (by simpa using hr) hu).2 hrunning
  case sent => exact fun _ hr => absurd hr List.not_mem_nil
  case flushed =>
    intro r hr
    rcases List.mem_append.mp hr with hr | hr
    · exact h.flushed r hr
    · obtain ⟨r', hr', heq⟩ := List.mem_map.mp hr
      cases heq
      by_contra hu
      exact hrunning (h.unlock r (h.sent r hr') (by simpa using hu)).2

theorem unlocked (h : Sound s phase log) {lock : Proxy} (hset : s'.Settled)
    (hl : s'.lock.isSome = true) (hd : s'.locked = s.locked) (hq : s'.shouldQuit = true)
    (hcode : s'.exitCode = 0) (hs : s'.sent = s.sent ++ [.unlockAndDestroy lock]) :
    Sound s' .test (log ++ [.result .ok, .request (.unlockAndDestroy lock)]) where
  settled := hset
  lock := hl
  locked := by
    rw [List.mem_append, or_iff_left (by simp), hd]
    exact h.locked
  finished _ := hq
  quit _ := ⟨nofun, nofun⟩
  accepted _ := ⟨rfl, hq⟩
  exitCode _ := iff_of_true hcode (by simp)
  unlock _ _ _ := ⟨rfl, hq⟩
  sent r hr := by
    rw [hs] at hr
    rcases List.mem_append.mp hr with hr | hr
    · exact List.mem_append_left _ (h.sent r hr)
    · rw [List.mem_singleton.mp hr]
      simp
  flushed r hr := h.flushed r (by simpa using hr)

theorem receive (h : Sound s phase log) (hphase : phase ≠ .test) (ev : ServerEvent) :
    Sound (s.dispatch ev) .dispatching
      (log ++ (Process.notes (.running s phase) (.receive ev) ++
        newRequests s (s.dispatch ev))) := by
  have hset : (s.dispatch ev).Settled := h.settled.exchange (e := .dispatch ev) rfl
  by_cases hl : ev = .locked
  · subst hl
    have hnil : ∀ e ∈ ([] : List Entry), ∃ reason, e = .result (.fail reason) := nofun
    rw [← List.append_assoc]
    exact h.noteLocked.advance (s.keeps_dispatchLocked _) hset hnil hphase nofun
  by_cases hf : ev = .finished
  · subst hf
    have hnone : newRequests s (s.dispatch .finished) = [] := by
      simp [newRequests, LockState.dispatch, LockState.dispatchFinished]
    rw [hnone, List.append_nil]
    exact h.noteFinished hphase
  · have hnotes : Process.notes (.running s phase) (.receive ev) = [] := by
      cases ev <;> first | rfl | contradiction
    rw [hnotes]
    exact h.advance (s.keeps_dispatch ev hl hf) hset nofun hphase nofun

/-- The worker's steps. -/
theorem work (h : Sound s phase log) (hset : s'.Settled) (hst : s'.standing = s.standing)
    (hs : s'.sent = s.sent) : Sound s' phase log := by
  have hq : s'.shouldQuit = s.shouldQuit := LockState.shouldQuit_of_standing hst
  have hcode : s'.exitCode = s.exitCode := LockState.exitCode_of_standing hst
  exact ⟨hset, LockState.lock_of_standing hst ▸ h.lock, LockState.locked_of_standing hst ▸ h.locked,
    hq ▸ h.finished, hq ▸ h.quit, hq ▸ h.accepted, hq ▸ hcode ▸ h.exitCode, hq ▸ h.unlock,
    hs ▸ h.sent, h.flushed⟩

/-- The result that a poll takes, if it takes one. -/
theorem poll_cases (h : Sound s phase log) :
    (s.results = [] ∧ s.pollAuth = s) ∨
      (∃ reason, s.results = [.fail reason] ∧ s.Keeps s.pollAuth) ∨
      (s.results = [.ok] ∧ ∃ lock,
        s.pollAuth.sent = s.sent ++ [.unlockAndDestroy lock] ∧ s.pollAuth.lock = some lock ∧
        s.pollAuth.locked = s.locked ∧ s.pollAuth.shouldQuit = true ∧
        s.pollAuth.exitCode = 0) := by
  have hlen := h.settled.results_length
  rw [LockState.pollAuth_eq_tryRecv hlen, LockState.tryRecv]
  cases hres : s.results with
  | nil => exact .inl ⟨rfl, rfl⟩
  | cons result rest =>
    have hrest : rest = [] := List.eq_nil_of_length_eq_zero (by simpa [hres] using hlen)
    right
    rw [hrest]
    cases result with
    | fail reason =>
      refine .inl ⟨reason, rfl, ?_⟩
      exact (LockState.keeps_takeResult_fail _ reason).of_left rfl rfl
    | ok =>
      obtain ⟨lock, hl⟩ := Option.isSome_iff_exists.mp h.lock
      have hl' : ({ s with results := [] } : LockState).lock = some lock := hl
      dsimp only
      rw [LockState.takeResult_ok hl']
      exact .inr ⟨rfl, lock, rfl, hl, rfl, rfl, rfl⟩

theorem settled_pollAuth (h : Sound s phase log) : s.pollAuth.Settled := by
  rw [LockState.pollAuth_eq_tryRecv h.settled.results_length]
  exact h.settled.exchange (e := .tryRecv) rfl

theorem poll (h : Sound s .dispatching log) :
    Sound s.pollAuth .test (log ++ (s.results.map .result ++ newRequests s s.pollAuth)) := by
  have hset := h.settled_pollAuth
  rcases h.poll_cases with
    ⟨hres, hpoll⟩ | ⟨reason, hres, hk⟩ | ⟨hres, lock, hs, hl, hd, hq, hcode⟩
  · have hk : s.Keeps s.pollAuth := by
      rw [hpoll]
      exact .refl s
    exact h.advance hk hset (by simp [hres]) nofun nofun
  · exact h.advance hk hset (by simp [hres]) nofun nofun
  · rw [hres, newRequests, hs, List.drop_left]
    exact h.unlocked hset (by rw [hl]; rfl) hd hq hcode hs

end Sound

/-- Where a process stands. -/
def Watched.Sound : Watched → Prop
  | ⟨.absent, log⟩ => log = []
  | ⟨.running s phase, log⟩ => NxLock.Sound s phase log
  | ⟨.exited _, _⟩ => True

namespace Watched.Sound

variable {username : String} {failure : ℕ → Option String} {w : Watched}

theorem start (username : String) (failure : ℕ → Option String) :
    NxLock.Sound (LockState.new username failure).engage .test
      ((LockState.new username failure).engage.sent.map .request) where
  settled := ⟨[], [], rfl, rfl, nofun, nofun, rfl⟩
  lock := rfl
  locked := by simp [LockState.engage, LockState.request, LockState.new]
  finished hf := by simp at hf
  quit _ := ⟨nofun, nofun⟩
  accepted hok := by simp at hok
  exitCode hq := by cases hq
  unlock r hr hu := by
    have hr' : r ∈ (LockState.new username failure).engage.sent := by simpa using hr
    rw [LockState.isUnlock_engage hr'] at hu
    cases hu
  sent r hr := List.mem_map_of_mem hr
  flushed r hr := by simp at hr

theorem step (hw : w.Sound) {h : Happening} (he : (watched username failure).Enabled w h) :
    ((watched username failure).step w h).Sound := by
  obtain ⟨p, log⟩ := w
  cases p with
  | absent =>
    match h, he with
    | .act .start, _ =>
      rw [show log = [] from hw]
      exact start username failure
  | exited code =>
    match h, he with
    | .receive ev, _ => trivial
  | running s phase =>
    have hs : NxLock.Sound s phase log := hw
    match h, phase, he with
    | .receive ev, .waiting, _ =>
      have hstep := hs.receive nofun ev
      rwa [← Process.entries_receive username failure] at hstep
    | .receive ev, .dispatching, _ =>
      have hstep := hs.receive nofun ev
      rwa [← Process.entries_receive username failure] at hstep
    | .act .enter, .test, he =>
      have hq : s.shouldQuit = false := by simpa [watched, Process.canAct] using he
      have hstep := hs.flush hq
      rwa [← Process.entries_enter username failure] at hstep
    | .act .poll, .dispatching, _ =>
      have hstep := hs.poll
      rwa [← Process.entries_poll username failure] at hstep
    | .act .leave, .test, _ => trivial
    | .act .takeRequest, phase, he =>
      have hcan : Session.canExchange s.checking s.requests
          (.takeRequest : Exchange ServerEvent) := by
        cases phase <;> exact he
      have hwork : NxLock.Sound (Process.takeRequest s) phase log := by
        refine hs.work (hs.settled.exchange hcan) ?_ (Process.sent_takeRequest s)
        show (Process.takeRequest s).standing = s.standing
        rw [Process.takeRequest]
        split <;> rfl
      have hstep : Watched.Sound ⟨.running (Process.takeRequest s) phase,
          log ++ (Process.running s phase).entries username failure (.act .takeRequest)⟩ := by
        rw [Process.entries_takeRequest, List.append_nil]
        exact hwork
      cases phase <;> exact hstep
    | .act (.answer result), phase, he =>
      have hcan : Session.canExchange s.checking s.requests
          (.answer result : Exchange ServerEvent) := by
        cases phase <;> exact he
      have hwork := hs.work (hs.settled.exchange hcan) rfl rfl
      have hstep : Watched.Sound
          ⟨.running { s with checking := none, results := s.results ++ [result] } phase,
            log ++ (Process.running s phase).entries username failure (.act (.answer result))⟩ := by
        rw [Process.entries_answer, List.append_nil]
        exact hwork
      cases phase <;> exact hstep

end Watched.Sound

/-! ## The law -/

/-- Entries that the law does not speak of. -/
def Entry.Free : Entry → Prop
  | .request r => r.isUnlock = false
  | .left _ => False
  | _ => True

theorem lawful_of_free {past new : List Entry} (h : ∀ e ∈ new, e.Free) :
    Logs.Lawful (fun pre => unlockLaw (past ++ pre)) new := by
  refine Logs.lawful_of_forall fun e he pre => ?_
  have hfree : e.Free := h e he
  cases e with
  | request r =>
    cases r with
    | unlockAndDestroy lock => cases hfree
    | _ => trivial
  | left code => exact absurd hfree id
  | _ => trivial

theorem free_newRequests {s s' : LockState} (hk : s.Keeps s') : ∀ e ∈ newRequests s s', e.Free := by
  intro e he
  obtain ⟨r, rfl, hr⟩ := mem_newRequests hk he
  exact hr

theorem free_receive (s : LockState) (phase : Phase) (ev : ServerEvent) :
    ∀ e ∈ Process.notes (.running s phase) (.receive ev) ++ newRequests s (s.dispatch ev),
      e.Free := by
  intro e he
  rcases List.mem_append.mp he with he | he
  · cases ev with
    | locked =>
      rw [List.mem_singleton.mp he]
      trivial
    | finished =>
      rw [List.mem_singleton.mp he]
      trivial
    | _ => exact absurd he List.not_mem_nil
  · by_cases hl : ev = .locked
    · subst hl
      exact free_newRequests (s.keeps_dispatchLocked _) e he
    by_cases hf : ev = .finished
    · subst hf
      have hnone : newRequests s (s.dispatch .finished) = [] := by
        simp [newRequests, LockState.dispatch, LockState.dispatchFinished]
      rw [hnone] at he
      exact absurd he List.not_mem_nil
    · exact free_newRequests (s.keeps_dispatch ev hl hf) e he

/-- A poll is lawful if an Ok it takes comes with the lock confirmed and not refused. -/
theorem Sound.lawful_poll_iff {s : LockState} {log : List Entry} (hs : Sound s .dispatching log) :
    Logs.Lawful (fun pre => unlockLaw (log ++ pre))
        (s.results.map .result ++ newRequests s s.pollAuth) ↔
      (.ok ∈ s.results → s.locked = true ∧ s.shouldQuit = false) := by
  have hfree : ∀ reason, (.result (.fail reason) : Entry).Free := fun _ => trivial
  rcases hs.poll_cases with ⟨hres, hpoll⟩ | ⟨reason, hres, hk⟩ | ⟨hres, lock, hsent, -⟩
  · rw [hpoll, hres]
    simp [newRequests]
  · rw [hres]
    refine iff_of_true (lawful_of_free fun e he => ?_) (by simp)
    rcases List.mem_append.mp he with he | he
    · rw [List.mem_singleton.mp he]
      exact hfree reason
    · exact free_newRequests hk e he
  · have hnone : ∀ r, .request r ∈ log → r.isUnlock = false := by
      intro r hr
      by_contra hu
      exact absurd (hs.unlock r hr (by simpa using hu)).1 nofun
    have hfin : .finished ∉ log ↔ s.shouldQuit = false := by
      rw [← Bool.not_eq_true]
      exact not_congr ⟨hs.finished, fun hq => (hs.quit hq).2 rfl⟩
    rw [hres, newRequests, hsent, List.drop_left, List.map_singleton, List.map_singleton,
      List.singleton_append, Logs.lawful_cons, Logs.lawful_singleton]
    simp only [unlockLaw, List.mem_append, List.mem_singleton, reduceCtorEq, or_true, or_false,
      true_and, hfin, hs.locked]
    constructor
    · rintro ⟨hl, hf, -⟩ -
      exact ⟨hl, hf⟩
    · intro hok
      exact ⟨(hok trivial).1, (hok trivial).2, hnone⟩

/-- Leaving is lawful if no Ok was taken: with one the code is 0, and nothing was handed over. -/
theorem Sound.lawful_leave_iff {s : LockState} {log : List Entry} (hs : Sound s .test log)
    (hq : s.shouldQuit = true) :
    Logs.Lawful (fun pre => unlockLaw (log ++ pre)) [.left s.exitCode, .flushed .hangUp] ↔
      .result .ok ∉ log := by
  rw [← hs.exitCode hq, Logs.lawful_cons, Logs.lawful_singleton, List.append_nil]
  constructor
  · rintro ⟨hleft, -⟩ hcode
    obtain ⟨r, hr, hu⟩ := hleft hcode
    rw [hs.flushed r hr] at hu
    cases hu
  · exact fun hcode => ⟨fun h => absurd h hcode, trivial⟩

/-- **A step is lawful if and only if it is timely.** -/
theorem Watched.Sound.lawful_iff {username : String} {failure : ℕ → Option String} {w : Watched}
    (hw : w.Sound) {h : Happening} (he : (watched username failure).Enabled w h) :
    Logs.Lawful (fun pre => unlockLaw (w.log ++ pre)) (w.process.entries username failure h) ↔
      Timely w h := by
  obtain ⟨p, log⟩ := w
  cases p with
  | absent =>
    match h, he with
    | .act .start, _ =>
      refine iff_of_true (lawful_of_free fun e he => ?_) trivial
      have hentry : e ∈ (LockState.new username failure).engage.sent.map .request := he
      obtain ⟨r, hr, rfl⟩ := List.mem_map.mp hentry
      exact LockState.isUnlock_engage hr
  | exited code =>
    match h, he with
    | .receive ev, _ => exact iff_of_true Logs.lawful_nil trivial
  | running s phase =>
    have hs : NxLock.Sound s phase log := hw
    match h, phase, he with
    | .receive ev, phase, _ =>
      rw [Process.entries_receive]
      exact iff_of_true (lawful_of_free (free_receive s phase ev)) trivial
    | .act .enter, .test, _ =>
      rw [Process.entries_enter]
      refine iff_of_true (lawful_of_free fun e he => ?_) trivial
      obtain ⟨r, -, rfl⟩ := List.mem_map.mp he
      trivial
    | .act .poll, .dispatching, _ =>
      rw [Process.entries_poll]
      exact hs.lawful_poll_iff
    | .act .leave, .test, he =>
      rw [Process.entries_leave]
      exact hs.lawful_leave_iff he
    | .act .takeRequest, phase, _ =>
      rw [Process.entries_takeRequest]
      exact iff_of_true Logs.lawful_nil trivial
    | .act (.answer result), phase, _ =>
      rw [Process.entries_answer]
      exact iff_of_true Logs.lawful_nil trivial

/-- **When the session is unlocked.** Over any run, `unlock_and_destroy` is requested once at most,
after an Ok and a confirmed lock and not after a refusal, and the process leaves with code 0 only
when that request was handed over, exactly if no poll takes an Ok too early or too late and the loop
is not left once one was taken. -/
theorem unlock_lawful_iff (username : String) (failure : ℕ → Option String) {es : List Happening}
    (h : (watched username failure).Legal ⟨.absent, []⟩ es) :
    (watched username failure).Always (fun w => Logs.Lawful unlockLaw w.log) ⟨.absent, []⟩ es ↔
      (watched username failure).EachStep Timely ⟨.absent, []⟩ es := by
  have hsound : (watched username failure).Always Watched.Sound ⟨.absent, []⟩ es :=
    .of_invariant (fun w e hw he => hw.step he) rfl h
  rw [Logs.always_lawful_iff (fun _ _ => rfl) Logs.lawful_nil]
  exact EventMachine.eachStep_congr hsound h fun w e hw he => hw.lawful_iff he

/-- The compositor refuses the lock. -/
def refused : List Happening :=
  [.act .start, .act .enter, .receive .finished, .act .poll, .act .leave]

theorem unlock_lawful_refused :
    (watched "u" fun _ => none).Always (fun w => Logs.Lawful unlockLaw w.log) ⟨.absent, []⟩
      refused :=
  have hlegal : (watched "u" fun _ => none).Legal ⟨.absent, []⟩ refused :=
    ⟨rfl, rfl, rfl, rfl, rfl, trivial⟩
  (unlock_lawful_iff "u" (fun _ => none) hlegal).mpr (by decide)

/-- The lock is confirmed, the password typed, and PAM says yes. -/
def unlocking : List Happening :=
  [.act .start, .act .enter, .receive .locked, .receive (.keymap true (some letterKeymap)),
    .act .poll, .act .enter, .receive (.key 30 true), .receive (.key 28 true), .act .poll,
    .act .takeRequest, .act (.answer .ok), .act .enter, .receive .other, .act .poll, .act .leave]

/-- Nothing goes wrong, and the request to unlock stays in the buffer. -/
theorem not_unlock_lawful :
    ¬ ∀ (username : String) (failure : ℕ → Option String) (es : List Happening),
      (watched username failure).Legal ⟨.absent, []⟩ es →
      (watched username failure).Always (fun w => Logs.Lawful unlockLaw w.log)
        ⟨.absent, []⟩ es := by
  intro h
  have hlegal : (watched "u" fun _ => none).Legal ⟨.absent, []⟩ unlocking :=
    ⟨rfl, rfl, rfl, rfl, rfl, rfl, rfl, rfl, rfl, rfl, rfl, rfl, rfl, rfl, rfl, trivial⟩
  have hlast := (h "u" (fun _ => none) unlocking hlegal).last
  -- What is handed over before the end is what `engage` requested.
  set made := (LockState.new "u" fun _ => none).engage.sent
  have hlog : ((watched "u" fun _ => none).run ⟨.absent, []⟩ unlocking).log =
      (made.map .request ++ made.map .flushed ++
        [.locked, .result .ok, .request (.unlockAndDestroy 4)]) ++
      .left 0 :: [.flushed .hangUp] := rfl
  obtain ⟨r, hr, hu⟩ := hlast.law_of_eq hlog rfl
  have hmade : r ∈ made := by simpa using hr
  rw [LockState.isUnlock_engage hmade] at hu
  cases hu

end NxLock

end Nullxes
