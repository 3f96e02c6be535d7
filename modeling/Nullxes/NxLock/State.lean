import Nullxes.Wlcommon.Keymap
import Nullxes.Wlcommon.Shm

/-!
# The lock client

`nx-lock/src/state.rs` and the channels of `pam_auth.rs`. `LockState` is what the client keeps;
`dispatch` is the `Dispatch` implementations, one branch for each interface that does anything, and
`pollAuth` takes what the PAM worker has answered.

## Representation

* A proxy is a number, unique in its client: `nextProxy` counts the proxies made so far.
* `sent` is what was requested since the connection was last flushed.
* `requests`, `checking` and `results` are the two channels of the PAM worker and what it is at.
  The worker is there all the time; the throttling sleep after a failure is not modelled.
* `wl_surface` and `wl_buffer` requests come in one group from `attach_and_commit`, as do those of
  `wl_shm` from `ShmDoubleBuffer`.
-/

namespace Nullxes

namespace NxLock

open Wlcommon

abbrev Proxy := ℕ

/-- What `render::paint` was last given for a buffer. -/
structure Picture where
  stride : ℕ
  width : UInt32
  height : UInt32
  username : String
  passwordLen : ℕ
  failCount : UInt32
  pending : Bool
  deriving DecidableEq, Repr

/-- The globals of a registry the client can bind. -/
inductive Global
  | wlCompositor
  | wlShm
  | extSessionLockManager
  | wlSeat
  | wlOutput (name : ℕ)
  deriving DecidableEq, Repr

/-- What the client asks of the compositor. -/
inductive Request
  | bind (g : Global) (proxy : Proxy)
  /-- `ext_session_lock_manager_v1.lock`. -/
  | lock (lock : Proxy)
  | createSurface (surface : Proxy)
  /-- `ext_session_lock_v1.get_lock_surface`. -/
  | getLockSurface (lock lockSurface surface output : Proxy)
  | ackConfigure (lockSurface : Proxy) (serial : UInt32)
  | attachAndCommit (surface : Proxy) (buffer : DrawnBuffer (Option Picture))
  | shm (r : ShmRequest)
  | getKeyboard
  /-- `ext_session_lock_v1.unlock_and_destroy`. -/
  | unlockAndDestroy (lock : Proxy)
  /-- The connection is closed. -/
  | hangUp
  deriving DecidableEq, Repr

/-- What the compositor tells the client, of what any branch of `dispatch` looks at. -/
inductive ServerEvent
  | locked
  | finished
  /-- `ext_session_lock_surface_v1.configure`. -/
  | configure (lockSurface : Proxy) (serial width height : UInt32)
  /-- `wl_output.mode`. -/
  | mode (output : Proxy) (width height : Int32)
  /-- `wl_seat.capabilities`. -/
  | capabilities (keyboard : Bool)
  /-- `wl_keyboard.keymap`, with what its descriptor gives. -/
  | keymap (xkbV1 : Bool) (loaded : Option Keymap)
  | modifiers (mods : ModifierMasks)
  | key (key : UInt32) (pressed : Bool)
  /-- `wl_buffer.release`. -/
  | release (wlBuf : ℕ)
  | other

/-- `AuthRequest`; its `respond` is the state's own `auth_tx`. -/
structure AuthRequest where
  username : String
  password : String
  deriving DecidableEq, Repr

/-- `AuthResult`. -/
inductive AuthResult
  | ok
  | fail (reason : String)
  deriving DecidableEq, Repr

/-- `LockOutput`. -/
structure LockOutput where
  output : Proxy
  width : UInt32
  height : UInt32
  surface : Option Proxy
  lockSurface : Option Proxy
  buffer : Option (ShmDoubleBuffer (Option Picture))
  configured : Bool
  deriving DecidableEq, Repr

/-- `LockState`. -/
structure LockState where
  shm : Shm
  lock : Option Proxy
  locked : Bool
  outputs : List LockOutput
  /-- `keyboard.is_some()`. -/
  keyboard : Bool
  keymap : KeyboardState
  username : String
  password : String
  failCount : UInt32
  pending : Bool
  /-- Sent over `auth.tx` and not yet received by the worker. -/
  requests : List AuthRequest
  /-- What the worker is authenticating. -/
  checking : Option AuthRequest
  /-- Sent over `auth_tx` and not yet received by `poll_auth`. -/
  results : List AuthResult
  shouldQuit : Bool
  exitCode : ℤ
  nextProxy : Proxy
  sent : List Request

namespace LockState

/-- `LockState::new`, with the requests `run` made before it. -/
def new (username : String) (failure : ℕ → Option String) : LockState where
  shm := ⟨0, failure, []⟩
  lock := none
  locked := false
  outputs := []
  keyboard := false
  keymap := .new
  username := username
  password := ""
  failCount := 0
  pending := false
  requests := []
  checking := none
  results := []
  shouldQuit := false
  exitCode := 0
  nextProxy := 4
  sent := [.bind .wlCompositor 0, .bind .wlShm 1, .bind .extSessionLockManager 2, .bind .wlSeat 3]

variable (s : LockState)

/-- A request is made. -/
def request (r : Request) : LockState := { s with sent := s.sent ++ [r] }

/-- `engage`. -/
def engage : LockState :=
  { s.request (.lock s.nextProxy) with lock := some s.nextProxy, nextProxy := s.nextProxy + 1 }

/-- What the closure of `repaint_output` paints, whatever was there. -/
def paint (_ : Option Picture) (stride : ℕ) (w h : UInt32) : Option Picture :=
  some ⟨stride, w, h, s.username, s.password.utf8ByteSize, s.failCount, s.pending⟩

/-- Store what `ShmDoubleBuffer` left of the `wl_shm` global; what it requested was requested. -/
def setShm (shm : Shm) : LockState :=
  { s with shm := { shm with sent := [] }, sent := s.sent ++ shm.sent.map .shm }

/-- The pool of an output, made when there is none yet; an output without one stays without when
that fails. -/
def pool (out : LockOutput) : Option (ShmDoubleBuffer (Option Picture)) × Shm :=
  match out.buffer with
  | some pool => (some pool, s.shm)
  | none =>
    match ShmDoubleBuffer.new s.shm out.width out.height with
    | (.ok b, shm) => (some b, shm)
    | (.error _, shm) => (none, shm)

/-- `repaint_output`. -/
def repaintOutput (idx : ℕ) : LockState :=
  match s.outputs[idx]? with
  | none => s
  | some out =>
    if !out.configured then s
    else
      let (buffer, shm) := s.pool out
      let s := { s.setShm shm with outputs := s.outputs.set idx { out with buffer := buffer } }
      match buffer with
      | none => s
      | some pool =>
        let (drawn, shm) := pool.draw s.shm s.paint
        let s := s.setShm shm
        match drawn with
        | .error _ => s
        | .ok (pool, drawn) =>
          let s := { s with outputs := s.outputs.set idx { out with buffer := some pool } }
          match out.surface with
          | none => s
          | some surface => s.request (.attachAndCommit surface drawn)

/-- `repaint_all`. -/
def repaintAll : LockState := (List.range s.outputs.length).foldl repaintOutput s

/-- One result taken by `poll_auth`. -/
def takeResult (result : AuthResult) : LockState :=
  let s := { s with pending := false }
  match result with
  | .ok =>
    let s := match s.lock with
      | some lock => s.request (.unlockAndDestroy lock)
      | none => s
    { s with shouldQuit := true, exitCode := 0 }
  | .fail _ => { s with failCount := s.failCount + 1, password := "" }.repaintAll

/-- `poll_auth`. -/
def pollAuth : LockState := s.results.foldl takeResult { s with results := [] }

/-- `submit_password`. -/
def submitPassword : LockState :=
  if s.password.isEmpty || s.pending then s
  else
    let s := { s with pending := true }.repaintAll
    { s with requests := s.requests ++ [⟨s.username, s.password⟩], password := "" }

/-- `handle_action`. -/
def handleAction (action : Action) : LockState :=
  match action with
  | .enter => s.submitPassword
  | .backspace => { s with password := String.ofList s.password.toList.dropLast }.repaintAll
  | .escape => { s with password := "" }.repaintAll
  | _ => s

/-- `handle_text`. -/
def handleText (text : String) : LockState :=
  if !s.pending then { s with password := s.password ++ text }.repaintAll else s

/-- `create_lock_surface_for`. -/
def createLockSurfaceFor (idx : ℕ) (lock : Proxy) : LockState :=
  match s.outputs[idx]? with
  | none => s
  | some out =>
    if out.lockSurface.isSome then s
    else
      let surface := s.nextProxy
      let lockSurface := s.nextProxy + 1
      { s with
        nextProxy := s.nextProxy + 2
        sent := s.sent ++
          [.createSurface surface, .getLockSurface lock lockSurface surface out.output]
        outputs := s.outputs.set idx
          { out with surface := some surface, lockSurface := some lockSurface } }

/-- `Dispatch<ExtSessionLockV1>`, `locked`. -/
def dispatchLocked (lock : Proxy) : LockState :=
  (List.range s.outputs.length).foldl (fun s i => s.createLockSurfaceFor i lock)
    { s with locked := true }

/-- `Dispatch<ExtSessionLockV1>`, `finished`. -/
def dispatchFinished : LockState := { s with shouldQuit := true, exitCode := 1 }

/-- `Dispatch<ExtSessionLockSurfaceV1>`. -/
def dispatchConfigure (surf : Proxy) (serial width height : UInt32) : LockState :=
  let s := s.request (.ackConfigure surf serial)
  match s.outputs.findIdx? fun o => o.lockSurface = some surf with
  | none => s
  | some idx =>
    { s with
      outputs := s.outputs.modify idx fun o =>
        { o with width := max width 1, height := max height 1, configured := true }
      }.repaintOutput idx

/-- `Dispatch<WlOutput>`. -/
def dispatchMode (output : Proxy) (width height : Int32) : LockState :=
  let s := match s.outputs.findIdx? fun o => o.output = output with
    | some idx =>
      { s with
        outputs := s.outputs.modify idx fun o =>
          { o with width := width.toUInt32, height := height.toUInt32 } }
    | none =>
      let out : LockOutput := ⟨output, width.toUInt32, height.toUInt32, none, none, none, false⟩
      { s with outputs := s.outputs ++ [out] }
  if s.locked then
    match s.lock with
    | some lock => s.createLockSurfaceFor (s.outputs.length - 1) lock
    | none => s
  else s

/-- What a mode does: an output has another size or there is a new one, and then the last one may
get a lock surface. -/
theorem dispatchMode_cases (output : Proxy) (width height : Int32) :
    ∃ outputs,
      ((∃ idx, (s.outputs.findIdx? fun o => o.output = output) = some idx ∧
          outputs = s.outputs.modify idx fun o =>
            { o with width := width.toUInt32, height := height.toUInt32 }) ∨
        (s.outputs.findIdx? fun o => o.output = output) = none ∧ outputs = s.outputs ++
          [⟨output, width.toUInt32, height.toUInt32, none, none, none, false⟩]) ∧
      ((s.locked && s.lock.isSome) = false ∧
          s.dispatchMode output width height = { s with outputs := outputs } ∨
        ∃ lock, (s.locked && s.lock.isSome) = true ∧ s.dispatchMode output width height =
          { s with outputs := outputs }.createLockSurfaceFor (outputs.length - 1) lock) := by
  have hlock : ∀ outputs, s.dispatchMode output width height =
      (if s.locked then
        match s.lock with
        | some lock => { s with outputs := outputs }.createLockSurfaceFor (outputs.length - 1) lock
        | none => { s with outputs := outputs }
      else { s with outputs := outputs }) →
      (s.locked && s.lock.isSome) = false ∧
          s.dispatchMode output width height = { s with outputs := outputs } ∨
        ∃ lock, (s.locked && s.lock.isSome) = true ∧ s.dispatchMode output width height =
          { s with outputs := outputs }.createLockSurfaceFor (outputs.length - 1) lock := by
    intro outputs ht
    rw [ht]
    cases s.locked with
    | false => exact .inl ⟨rfl, rfl⟩
    | true =>
      cases s.lock with
      | none => exact .inl ⟨rfl, rfl⟩
      | some lock => exact .inr ⟨lock, rfl, rfl⟩
  cases hidx : s.outputs.findIdx? fun o => o.output = output with
  | some idx => exact ⟨_, .inl ⟨idx, rfl, rfl⟩, hlock _ (by rw [dispatchMode, hidx])⟩
  | none => exact ⟨_, .inr ⟨rfl, rfl⟩, hlock _ (by rw [dispatchMode, hidx])⟩

/-- `Dispatch<WlSeat>`. -/
def dispatchCapabilities (keyboard : Bool) : LockState :=
  if keyboard && !s.keyboard then { s.request .getKeyboard with keyboard := true } else s

/-- `Dispatch<WlKeyboard>`, `key`. -/
def dispatchKey (key : UInt32) (pressed : Bool) : LockState :=
  if pressed then
    match s.keymap.processKey key with
    | .action a => s.handleAction a
    | .text t => s.handleText t
    | .none => s
  else s

/-- `Dispatch<WlBuffer>`. -/
def dispatchRelease (wlBuf : ℕ) : LockState :=
  { s with
    outputs := s.outputs.map fun o =>
      { o with buffer := o.buffer.map fun b => b.markReleased wlBuf } }

/-- The `Dispatch` implementations. `locked` and `finished` come on the client's only lock. -/
def dispatch : ServerEvent → LockState
  | .locked => s.dispatchLocked (s.lock.getD 0)
  | .finished => s.dispatchFinished
  | .configure surf serial width height => s.dispatchConfigure surf serial width height
  | .mode output width height => s.dispatchMode output width height
  | .capabilities keyboard => s.dispatchCapabilities keyboard
  | .keymap xkbV1 loaded =>
    if xkbV1 then { s with keymap := s.keymap.applyKeymap loaded } else s
  | .modifiers mods => { s with keymap := s.keymap.updateModifiers mods }
  | .key key pressed => s.dispatchKey key pressed
  | .release wlBuf => s.dispatchRelease wlBuf
  | .other => s

end LockState

end NxLock

end Nullxes
