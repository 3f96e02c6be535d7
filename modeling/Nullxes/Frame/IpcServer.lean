import Nullxes.Frame.Handlers

/-!
# Control requests on the main loop

The part of `ipc_server.rs` that runs on the compositor's main loop: `handle_request_on_main`, with
the requests and responses of `crates/ipc`. Reading the configuration is an input of the request:
`disk` is what `FrameConfig::load` returns at that moment.
-/

namespace Nullxes

namespace Frame

/-- `Request`. -/
inductive Request
  | switchWorkspace (idx : ℕ)
  | moveFocused (target : ℕ)
  | reloadConfig
  | getState
  | spawnLauncher
  | sessionLock
  | quit
  deriving DecidableEq, Repr

/-- `StateSnapshot`. -/
structure StateSnapshot where
  workspaceCount : ℕ
  activeWorkspace : ℕ
  occupied : List ℕ
  xwaylandReady : Bool
  deriving DecidableEq, Repr

/-- `ResponseData`. -/
inductive ResponseData
  | state (snapshot : StateSnapshot)
  deriving DecidableEq, Repr

/-- `IpcError`. -/
inductive IpcError
  | versionMismatch (supported : List UInt8)
  | busy
  | invalidRequest (message : String)
  | unknownKind
  | internal (message : String)
  | notImplemented
  deriving DecidableEq, Repr

/-- `Response`. -/
inductive Response
  | ok (data : Option ResponseData)
  | err (error : IpcError)
  deriving DecidableEq, Repr

namespace NullxesState

variable (s : NullxesState)

/-- `handle_request_on_main`. -/
def handleRequestOnMain (req : Request) (disk : FrameConfig) : NullxesState × Response :=
  match req with
  | .switchWorkspace idx =>
    match s.workspaceMgr.switchTo idx with
    | (mgr, true) => ({ s with workspaceMgr := mgr }, .ok none)
    | (mgr, false) =>
      ({ s with workspaceMgr := mgr },
        .err (.invalidRequest s!"workspace {idx} out of range or inactive"))
  | .moveFocused target =>
    match s.moveFocused target with
    | (s, true) => (s, .ok none)
    | (s, false) => (s, .err (.invalidRequest "no focused window or invalid target"))
  | .reloadConfig => ({ s with config := disk }, .ok none)
  | .getState =>
    (s, .ok (some (.state
      { workspaceCount := s.workspaceMgr.count
        activeWorkspace := s.workspaceMgr.activeIndex
        occupied := s.workspaces.occupied
        xwaylandReady := s.xwmReady })))
  | .spawnLauncher => (s.spawnDetached s.config.keybindings.launcherBinary, .ok none)
  | .sessionLock => (s.spawnDetached s.config.keybindings.lockBinary, .ok none)
  | .quit => ({ s with stopped := true }, .ok none)

/-- Whatever holds of the state as it is, and of what each request makes of it, holds after a
request. -/
theorem handleRequestOnMain_cases {P : NullxesState → Prop} (req : Request) (disk : FrameConfig)
    (hsame : P s) (hswitch : ∀ m, P { s with workspaceMgr := m })
    (hmove : ∀ target, P (s.moveFocused target).1) (hspawn : ∀ bin, P (s.spawnDetached bin))
    (hreload : P { s with config := disk }) (hquit : P { s with stopped := true }) :
    P (s.handleRequestOnMain req disk).1 := by
  cases req with
  | switchWorkspace idx =>
    simp only [handleRequestOnMain]
    split <;> exact hswitch _
  | moveFocused target =>
    have hmoved := hmove target
    rw [handleRequestOnMain]
    rcases hr : s.moveFocused target with ⟨s', _ | _⟩ <;> rw [hr] at hmoved <;> exact hmoved
  | reloadConfig => exact hreload
  | getState => exact hsame
  | spawnLauncher => exact hspawn _
  | sessionLock => exact hspawn _
  | quit => exact hquit

end NullxesState

end Frame

end Nullxes
