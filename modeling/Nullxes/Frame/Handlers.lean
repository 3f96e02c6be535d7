import Nullxes.Frame.Input

/-!
# Protocol handlers

`handlers/xdg_shell.rs`, `handlers/layer_shell.rs` and `handlers/session_lock.rs`: what FRAME does
when smithay reports a request of a client.
-/

namespace Nullxes

namespace Frame

namespace NullxesState

variable (s : NullxesState)

/-! ## Toplevels -/

/-- `new_toplevel`: a quarter of the way into the primary output, on the active workspace, and
recorded as that workspace's focus. -/
def newToplevel (surface : ToplevelSurface) : NullxesState :=
  let window := Window.newWaylandWindow surface
  let geo := s.primaryGeometry
  let loc : Point ℤ := (geo.loc.1 + geo.size.1.tdiv 4, geo.loc.2 + geo.size.2.tdiv 4)
  let s := s.activeSpaceMut fun space => space.place window loc
  { s with workspaceMgr := s.workspaceMgr.setFocus (some (windowId window)) }

/-- The loop of `toplevel_destroyed`: unmap the window with this surface from the first space that
has one, and report its id. -/
def unmapFirst (wl : WlSurface) : List Space → List Space × Option WindowId
  | [] => ([], none)
  | space :: rest =>
    match space.find fun w => decide (w.wlSurface = some wl) with
    | some w => (space.remove w :: rest, some (windowId w))
    | none => (space :: (unmapFirst wl rest).1, (unmapFirst wl rest).2)

theorem length_unmapFirst (wl : WlSurface) (spaces : List Space) :
    (unmapFirst wl spaces).1.length = spaces.length := by
  induction spaces with
  | nil => rfl
  | cons space rest ih =>
    rw [unmapFirst]
    split
    · rfl
    · simp [ih]

/-- The loop's test on one space: its lowest window on the surface. -/
def onSurface (wl : WlSurface) (space : Space) : Option Window :=
  space.find fun w => decide (w.wlSurface = some wl)

theorem unmapFirst_of_none {wl : WlSurface} {spaces : List Space}
    (h : ∀ space ∈ spaces, onSurface wl space = none) : unmapFirst wl spaces = (spaces, none) := by
  induction spaces with
  | nil => rfl
  | cons space rest ih =>
    have hhere : onSurface wl space = none := h space (by simp)
    have hrest := ih fun sp hsp => h sp (List.mem_cons_of_mem space hsp)
    rw [onSurface] at hhere
    rw [unmapFirst, hhere, hrest]

theorem unmapFirst_of_some {wl : WlSurface} {w : Window} {space : Space} {spaces : List Space}
    {i : ℕ} (hi : spaces[i]? = some space) (hw : onSurface wl space = some w)
    (hlow : ∀ j < i, ∀ sp, spaces[j]? = some sp → onSurface wl sp = none) :
    unmapFirst wl spaces = (spaces.modify i fun sp => sp.remove w, some (windowId w)) := by
  induction spaces generalizing i with
  | nil => cases hi
  | cons first rest ih =>
    cases i with
    | zero =>
      obtain rfl : first = space := by simpa using hi
      rw [onSurface] at hw
      rw [unmapFirst, hw]
      rfl
    | succ i =>
      have hfirst : onSurface wl first = none := hlow 0 (by omega) first rfl
      have hrest := ih (by simpa using hi) fun j hj sp hsp =>
        hlow (j + 1) (by omega) sp (by simpa using hsp)
      rw [onSurface] at hfirst
      rw [unmapFirst, hfirst, hrest]
      rfl

/-- The spaces after the loop. -/
def unmapSurface (ws : Workspaces) (wl : WlSurface) : Workspaces where
  spaces := (unmapFirst wl ws.spaces).1
  nonempty := by rw [length_unmapFirst]; exact ws.nonempty

/-- `toplevel_destroyed`: the focus slot is cleared when it is the active one and has this id. -/
def toplevelDestroyed (surface : ToplevelSurface) : NullxesState :=
  let wl := surface.wlSurface
  let foundId := (unmapFirst wl s.workspaces.spaces).2
  let s := { s with workspaces := unmapSurface s.workspaces wl }
  match foundId with
  | none => s
  | some id =>
    if s.workspaceMgr.focusedId = some id then
      { s with workspaceMgr := s.workspaceMgr.setFocus none }
    else s

/-- Only the spaces and the slots change. -/
theorem toplevelDestroyed_eq (t : ToplevelSurface) :
    s.toplevelDestroyed t =
      { s with
        workspaces := unmapSurface s.workspaces t.wlSurface
        workspaceMgr :=
          if ((unmapFirst t.wlSurface s.workspaces.spaces).2.map fun id =>
              decide (s.workspaceMgr.focusedId = some id)).getD false then
            s.workspaceMgr.setFocus none
          else s.workspaceMgr } := by
  rw [toplevelDestroyed]
  cases (unmapFirst t.wlSurface s.workspaces.spaces).2 with
  | none => rfl
  | some id =>
    by_cases hs : s.workspaceMgr.focusedId = some id
    · simp [hs]
    · simp [hs]

/-- `move_request`: start an interactive move of a window of the active workspace, for the client
that holds the pointer grab with this serial. -/
def moveRequest (surface : ToplevelSurface) (serial : Serial) : NullxesState :=
  let wl := surface.wlSurface
  match s.seat.pointer with
  | none => s
  | some ptr =>
    if !ptr.hasGrab serial then s
    else
      match ptr.grabStartData with
      | none => s
      | some startData =>
        if (startData.focus.map fun f => decide (f.1.client ≠ wl.client)).getD true then s
        else
          match s.activeSpace.find fun w => decide (w.wlSurface = some wl) with
          | none => s
          | some window =>
            let loc := (s.activeSpace.location window).getD (0, 0)
            s.setPointer (ptr.setGrab (.custom startData ⟨window, loc⟩) serial)

/-- A move request that is granted takes hold of a window of the active workspace that is on the
requested surface; one that is not granted does nothing. -/
theorem moveRequest_cases (t : ToplevelSurface) (serial : Serial) :
    s.moveRequest t serial = s ∨
      ∃ ptr startData window loc, s.seat.pointer = some ptr ∧ ptr.grabStartData = some startData ∧
        window ∈ s.activeSpace ∧ window.toplevelSurface.wlSurface = t.wlSurface ∧
        s.moveRequest t serial =
          s.setPointer (ptr.setGrab (.custom startData ⟨window, loc⟩) serial) := by
  simp only [moveRequest]
  split
  next => exact .inl rfl
  next ptr hptr =>
    split
    next => exact .inl rfl
    next =>
      split
      next => exact .inl rfl
      next startData hstart =>
        split
        next => exact .inl rfl
        next =>
          split
          next => exact .inl rfl
          next window hfind =>
            exact .inr ⟨ptr, startData, window, _, hptr, hstart, ZStack.mem_of_find hfind,
              by simpa using ZStack.prop_of_find hfind, rfl⟩

/-! ## Layer surfaces -/

/-- `new_layer_surface`: the requested output, else the primary one, else the surface is told to
close. -/
def newLayerSurface (surface : LayerSurface) (wlOutput : Option OutputId) : NullxesState :=
  let output := match wlOutput with
    | some wl => s.output wl
    | none => s.primary
  match output with
  | none => s.emit [.layerClosed surface.wlSurface]
  | some o => s.setOutput { o with layerMap := o.layerMap ++ [surface] }

/-- `layer_destroyed`: only the primary output's layer map is searched. -/
def layerDestroyed (surface : LayerSurface) : NullxesState :=
  match s.primary with
  | none => s
  | some o => s.setOutput { o with layerMap := o.layerMap.filter fun l => l ≠ surface }

/-! ## Session lock -/

/-- `SessionLockHandler::lock`. A second request drops its locker; the first one stores it and
takes the keyboard focus away. -/
def lockSession (locker : SessionLocker) : NullxesState :=
  if s.lock.isSome then s.emit [.finished locker]
  else
    let s := { s with lock := some ⟨locker, []⟩ }
    s.nextSerial.setKeyboardFocus none

/-- `SessionLockHandler::unlock`: dropping the session drops its locker, and the topmost window of
the active workspace gets the keyboard focus. -/
def unlockSession : NullxesState :=
  let dropped := (s.lock.map fun l => Effect.finished l.locker).toList
  let s := { s with lock := none, effects := s.effects ++ dropped }
  match s.activeSpace.top.bind Window.wlSurface with
  | some top => s.nextSerial.setKeyboardFocus (some top)
  | none => s

/-- `SessionLockHandler::new_surface`. -/
def newLockSurface (surface : LockSurface) (wlOutput : OutputId) : NullxesState :=
  match s.lock with
  | none => s
  | some lock =>
    let configure := match (s.output wlOutput).bind Output.currentMode with
      | some size => [Effect.lockConfigure surface size]
      | none => []
    { s with
      lock := some { lock with surfaces := lock.surfaces ++ [surface] }
      effects := s.effects ++ configure }

end NullxesState

end Frame

end Nullxes
