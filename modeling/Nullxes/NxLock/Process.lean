import Nullxes.Library.Duplex
import Nullxes.NxLock.State

/-!
# The lock client as a process

`run` of `nx-lock/src/state.rs`: bind the globals, ask for the lock, then dispatch and poll the PAM
worker until it is time to quit. `blocking_dispatch` flushes what was requested, waits for the
compositor, dispatches the batch it has read, and returns to the poll; so a batch is any number of
messages taken between two polls, and the loop's test is made after the poll only. What was
requested since the last flush is lost when the process leaves. A connection error, which would end
the process, is not modelled.

## Main results

* `LockState.Idle.dispatch` — a client that is not told of a lock or of an output keeps waiting
-/

namespace Nullxes

namespace NxLock

/-- Where the loop of `run` is. -/
inductive Phase
  /-- Before `while !state.should_quit`. -/
  | test
  /-- In `blocking_dispatch`, with nothing dispatched yet. -/
  | waiting
  /-- In `blocking_dispatch`, in the middle of a batch. -/
  | dispatching
  deriving DecidableEq, Repr

/-- The process, and the exit code `run_main` leaves it with. -/
inductive Process
  | absent
  | running (s : LockState) (phase : Phase)
  | exited (code : ℤ)

/-- What the process does by itself. -/
inductive Act
  /-- It is started, up to the loop. -/
  | start
  /-- The loop goes on into `blocking_dispatch`, which flushes. -/
  | enter
  /-- `blocking_dispatch` returns and `poll_auth` is called. -/
  | poll
  /-- The loop ends, and with it the process. -/
  | leave
  /-- The worker receives a request. -/
  | takeRequest
  /-- The worker has authenticated and sends the result. -/
  | answer (result : AuthResult)
  deriving DecidableEq, Repr

namespace Process

/-- The worker's `rx.recv()`. -/
def takeRequest (s : LockState) : LockState :=
  match s.requests with
  | [] => s
  | r :: rest => { s with requests := rest, checking := some r }

/-- Whether the process can act so. -/
def canAct : Process → Act → Bool
  | .absent, .start => true
  | .running s .test, .enter => !s.shouldQuit
  | .running s .test, .leave => s.shouldQuit
  | .running _ .dispatching, .poll => true
  | .running s _, .takeRequest => s.checking.isNone && !s.requests.isEmpty
  | .running s _, .answer _ => s.checking.isSome
  | _, _ => false

/-- Whether it takes messages: `blocking_dispatch` dispatches them, a closed connection drops
them. -/
def isReady : Process → Bool
  | .running _ .waiting | .running _ .dispatching | .exited _ => true
  | _ => false

/-- What it becomes and sends when it acts. -/
def act (username : String) (failure : ℕ → Option String) : Process → Act → Process × List Request
  | .absent, .start => (.running (LockState.new username failure).engage .test, [])
  | .running s .test, .enter => (.running { s with sent := [] } .waiting, s.sent)
  | .running s .test, .leave => (.exited s.exitCode, [.hangUp])
  | .running s .dispatching, .poll => (.running s.pollAuth .test, [])
  | .running s phase, .takeRequest => (.running (takeRequest s) phase, [])
  | .running s phase, .answer result =>
    (.running { s with checking := none, results := s.results ++ [result] } phase, [])
  | p, _ => (p, [])

/-- What it becomes when it takes a message; what it requests is not flushed yet. -/
def receive : Process → ServerEvent → Process
  | .running s _, ev => .running (s.dispatch ev) .dispatching
  | p, _ => p

end Process

/-- The lock client. -/
def nxLock (username : String) (failure : ℕ → Option String) :
    Party Process ServerEvent Request Act where
  Init p := p = .absent
  Ready p := p.isReady
  receive p ev := (p.receive ev, [])
  Enabled p a := p.canAct a
  act := Process.act username failure

instance (username : String) (failure : ℕ → Option String) :
    DecidablePred (nxLock username failure).Ready :=
  fun p => inferInstanceAs (Decidable (p.isReady = true))

instance (username : String) (failure : ℕ → Option String) (p : Process) (a : Act) :
    Decidable ((nxLock username failure).Enabled p a) :=
  inferInstanceAs (Decidable (p.canAct a = true))

/-! ## A client that keeps waiting -/

/-- The compositor confirms the lock or tells of an output. -/
def ServerEvent.Awaited : ServerEvent → Prop
  | .locked | .mode .. => True
  | _ => False

/-- The client binds an output. -/
def Request.BindsOutput : Request → Prop
  | .bind (.wlOutput _) _ => True
  | _ => False

namespace LockState

variable {s : LockState}

/-- The lock is not confirmed, no output is known, and none was bound. -/
structure Idle (s : LockState) : Prop where
  locked : s.locked = false
  outputs : s.outputs = []
  sent : ∀ r ∈ s.sent, ¬ r.BindsOutput

theorem idle_engage_new (username : String) (failure : ℕ → Option String) :
    (new username failure).engage.Idle where
  locked := rfl
  outputs := rfl
  sent := by simp [engage, request, new, Request.BindsOutput]

theorem repaintAll_of_outputs (h : s.outputs = []) : s.repaintAll = s := by
  rw [repaintAll, h]
  rfl

namespace Idle

/-- It speaks of three fields of the state only. -/
theorem congr {s' : LockState} (h : s.Idle) (hl : s'.locked = s.locked)
    (ho : s'.outputs = s.outputs) (hs : s'.sent = s.sent) : s'.Idle :=
  ⟨hl.trans h.locked, ho.trans h.outputs, hs ▸ h.sent⟩

theorem request (h : s.Idle) {r : Request} (hr : ¬ r.BindsOutput) : (s.request r).Idle where
  locked := h.locked
  outputs := h.outputs
  sent r' hr' := by
    rcases List.mem_append.mp hr' with hr' | hr'
    · exact h.sent r' hr'
    · rwa [List.mem_singleton.mp hr']

theorem repaintAll (h : s.Idle) : s.repaintAll.Idle := by
  rwa [repaintAll_of_outputs h.outputs]

theorem takeResult (h : s.Idle) (result : AuthResult) : (s.takeResult result).Idle := by
  cases result with
  | ok =>
    have hpending : ({ s with pending := false } : LockState).Idle := h.congr rfl rfl rfl
    simp only [LockState.takeResult]
    split
    · exact (hpending.request id).congr rfl rfl rfl
    · exact h.congr rfl rfl rfl
  | fail reason => exact repaintAll (h.congr rfl rfl rfl)

theorem pollAuth (h : s.Idle) : s.pollAuth.Idle := by
  have hfold : ∀ (results : List AuthResult) (s : LockState), s.Idle →
      (results.foldl LockState.takeResult s).Idle := by
    intro results
    induction results with
    | nil => exact fun _ h => h
    | cons r rest ih => exact fun s h => ih _ (h.takeResult r)
  exact hfold s.results _ (h.congr rfl rfl rfl)

theorem submitPassword (h : s.Idle) : s.submitPassword.Idle := by
  rw [LockState.submitPassword]
  split
  · exact h
  · have hpending : ({ s with pending := true } : LockState).Idle := h.congr rfl rfl rfl
    exact hpending.repaintAll.congr rfl rfl rfl

theorem dispatchKey (h : s.Idle) (key : UInt32) (pressed : Bool) :
    (s.dispatchKey key pressed).Idle := by
  simp only [LockState.dispatchKey]
  split
  · split
    next a _ =>
      simp only [handleAction]
      split
      · exact h.submitPassword
      · exact repaintAll (h.congr rfl rfl rfl)
      · exact repaintAll (h.congr rfl rfl rfl)
      · exact h
    next t _ =>
      simp only [handleText]
      split
      · exact repaintAll (h.congr rfl rfl rfl)
      · exact h
    next => exact h
  · exact h

/-- **A client that is told neither of a lock nor of an output keeps waiting for both.** -/
theorem dispatch (h : s.Idle) {ev : ServerEvent} (hev : ¬ ev.Awaited) : (s.dispatch ev).Idle := by
  cases ev with
  | locked => exact absurd trivial hev
  | mode output width height => exact absurd trivial hev
  | finished => exact h.congr rfl rfl rfl
  | configure surf serial width height =>
    have hack : (s.request (.ackConfigure surf serial)).Idle := h.request id
    have hnone : (s.request (.ackConfigure surf serial)).outputs.findIdx?
        (fun o => o.lockSurface = some surf) = none := by rw [hack.outputs]; rfl
    rw [LockState.dispatch, dispatchConfigure, hnone]
    exact hack
  | capabilities keyboard =>
    simp only [LockState.dispatch, dispatchCapabilities]
    split
    · exact (h.request id).congr rfl rfl rfl
    · exact h
  | keymap xkbV1 loaded =>
    simp only [LockState.dispatch]
    split
    · exact h.congr rfl rfl rfl
    · exact h
  | modifiers mods => exact h.congr rfl rfl rfl
  | key key pressed => exact h.dispatchKey key pressed
  | release wlBuf =>
    exact h.congr rfl (by simp [LockState.dispatch, dispatchRelease, h.outputs]) rfl
  | other => exact h

end Idle

end LockState

/-- The process waits: if it runs, the client is idle. -/
def Process.Waits : Process → Prop
  | .running s _ => s.Idle
  | _ => True

/-- **The client's side of the handshake.** As long as it is told neither of a lock nor of an output
it waits for both, and it binds no output. -/
theorem nxLock_waits (username : String) (failure : ℕ → Option String) :
    (nxLock username failure).Contract Process.Waits (fun ev => ¬ ev.Awaited)
      fun r => ¬ r.BindsOutput where
  init := by
    rintro _ rfl
    trivial
  receive p ev hp _ hev := by
    refine ⟨?_, by simp [nxLock]⟩
    cases p with
    | running s phase => exact LockState.Idle.dispatch hp hev
    | absent => trivial
    | exited code => trivial
  act p a hp ha := by
    cases p with
    | absent =>
      cases a with
      | start => exact ⟨LockState.idle_engage_new username failure, by simp [nxLock, Process.act]⟩
      | _ => cases ha
    | exited code => cases ha
    | running s phase =>
      have hs : s.Idle := hp
      cases a with
      | start => cases phase <;> cases ha
      | enter =>
        cases phase with
        | test => exact ⟨⟨hs.locked, hs.outputs, by simp⟩, hs.sent⟩
        | _ => cases ha
      | poll =>
        cases phase with
        | dispatching => exact ⟨hs.pollAuth, by simp [nxLock, Process.act]⟩
        | _ => cases ha
      | leave =>
        cases phase with
        | test => exact ⟨trivial, by simp [nxLock, Process.act, Request.BindsOutput]⟩
        | _ => cases ha
      | takeRequest =>
        have htake : (Process.takeRequest s).Idle := by
          rw [Process.takeRequest]
          split
          · exact hs
          · exact hs.congr rfl rfl rfl
        cases phase <;> exact ⟨htake, by simp [nxLock, Process.act]⟩
      | answer result =>
        cases phase <;> exact ⟨hs.congr rfl rfl rfl, by simp [nxLock, Process.act]⟩

end NxLock

end Nullxes
