import Nullxes.Frame.World

/-!
# FRAME refines the desk

What FRAME's handlers do to the layout, the focus and the lock is what `Desk.apply` says. `Does s s'
a` is that statement for one handler, and `does_react` is it for every event.

The proofs follow the handlers: one lemma for each, in the order of the source.
-/

namespace Nullxes

namespace Frame

open Function (update)

namespace NullxesState

variable {s s' : NullxesState} {a : DeskAct} {D : List ToplevelSurface} {o : ℕ → Option Window}

/-- Both structures have the configured number of workspaces. -/
def CountsAgree (s : NullxesState) : Prop := s.workspaces.count = s.workspaceMgr.count

theorem CountsAgree.active_lt (h : s.CountsAgree) : s.workspaceMgr.active < s.workspaces.count :=
  h ▸ s.workspaceMgr.active_lt

theorem CountsAgree.activeSpace (h : s.CountsAgree) :
    s.activeSpace = s.workspaces.space s.workspaceMgr.active :=
  s.workspaces.active_eq_space h.active_lt

/-- `s'` shows the desk that `s` shows after `a`, the histories following. -/
def Does (s s' : NullxesState) (a : DeskAct) : Prop :=
  ∀ D o, s'.desk ((s.desk D o).apply a).destroyed ((s.desk D o).apply a).owner =
    (s.desk D o).apply a

/-! ## Parts of handlers -/

theorem desk_activeSpaceMut (h : s.CountsAgree) (f : Space → Space) :
    (s.activeSpaceMut f).desk D o =
      { s.desk D o with
        space := update s.workspaces.space s.workspaceMgr.active
          (f (s.workspaces.space s.workspaceMgr.active)) } := by
  rw [← s.workspaces.space_activeMut _ f h.active_lt]
  rfl

theorem desk_setKeyboardFocus (f : Option WlSurface) :
    (s.setKeyboardFocus f).desk D o = (s.desk D o).setFocus f := by
  cases hk : s.seat.keyboard <;>
    simp [setKeyboardFocus, desk, Desk.setFocus, keyboardFocus, hk]

/-! ## Toplevels -/

theorem does_newToplevel (h : s.CountsAgree) (surface : WlSurface) :
    Does s ((s.registerToplevel surface).newToplevel (s.freshToplevel surface))
      (s.deskAct (.newToplevel surface)) := by
  intro D o
  have hmgr := s.workspaceMgr.slot_setFocus (some (windowId ⟨s.freshToplevel surface⟩))
  exact Desk.ext (s.workspaceMgr.count_setFocus _) (s.workspaceMgr.active_setFocus _)
    (s.workspaces.space_activeMut _ _ h.active_lt) hmgr rfl rfl rfl rfl rfl rfl

/-- The loop of `toplevel_destroyed` does what the desk says. -/
theorem unmapFirst_spaces (h : s.CountsAgree) (wl : WlSurface) :
    (unmapSurface s.workspaces wl).space = (s.desk D o).unmapped wl ∧
      (unmapFirst wl s.workspaces.spaces).2 =
        ((s.desk D o).firstOn wl).map fun r => windowId r.2 := by
  have hget : ∀ j sp, s.workspaces.spaces[j]? = some sp →
      j < s.workspaceMgr.count ∧ s.workspaces.space j = sp := by
    intro j sp hj
    have hlt : j < s.workspaces.count := (List.getElem?_eq_some_iff.mp hj).1
    refine ⟨h ▸ hlt, ?_⟩
    rw [Workspaces.space, Workspaces.get, hj, Option.getD_some]
  rcases hf : (s.desk D o).firstOn wl with _ | ⟨i, w⟩
  · have hnone : unmapFirst wl s.workspaces.spaces = (s.workspaces.spaces, none) := by
      refine unmapFirst_of_none fun sp hsp => ?_
      obtain ⟨j, hj⟩ := List.getElem?_of_mem hsp
      obtain ⟨hlt, rfl⟩ := hget j sp hj
      exact (s.desk D o).firstOn_eq_none.mp hf j hlt
    have hws : unmapSurface s.workspaces wl = s.workspaces := by simp [unmapSurface, hnone]
    exact ⟨by rw [hws, Desk.unmapped, hf]; rfl, by rw [hnone]; rfl⟩
  · obtain ⟨hi, hw, hlow⟩ := (s.desk D o).firstOn_eq_some_iff.mp hf
    have hi' : i < s.workspaces.count := h ▸ hi
    have hsome := unmapFirst_of_some (s.workspaces.get_eq_some hi') hw <| by
      intro j hj sp hsp
      obtain ⟨-, rfl⟩ := hget j sp hsp
      exact hlow j hj
    have hws : unmapSurface s.workspaces wl = s.workspaces.modify i fun sp => sp.remove w := by
      simp [unmapSurface, Workspaces.modify, hsome]
    refine ⟨?_, by rw [hsome]; rfl⟩
    rw [hws, Workspaces.space_modify _ _ _ hi', Desk.unmapped, hf]
    rfl

theorem does_toplevelDestroyed (h : s.CountsAgree) (t : ToplevelSurface) :
    Does s ((s.forgetToplevel t).toplevelDestroyed t) (.destroy t) := by
  intro D o
  obtain ⟨hspace, hfound⟩ := unmapFirst_spaces (D := D) (o := o) h t.wlSurface
  have hclears : ((unmapFirst t.wlSurface s.workspaces.spaces).2.map fun id =>
      decide (s.workspaceMgr.focusedId = some id)).getD false =
        (s.desk D o).clears t.wlSurface := by
    rw [hfound, Option.map_map]
    rfl
  have heq : (s.forgetToplevel t).toplevelDestroyed t =
      { s.forgetToplevel t with
        workspaces := unmapSurface s.workspaces t.wlSurface
        workspaceMgr := if (s.desk D o).clears t.wlSurface then s.workspaceMgr.setFocus none
          else s.workspaceMgr } := by
    rw [toplevelDestroyed_eq, ← hclears]
    rfl
  rw [heq]
  refine Desk.ext ?_ ?_ hspace ?_ rfl rfl rfl rfl rfl rfl
  · show WorkspaceManager.count _ = s.workspaceMgr.count
    split
    · exact s.workspaceMgr.count_setFocus none
    · rfl
  · show WorkspaceManager.active _ = s.workspaceMgr.active
    split
    · exact s.workspaceMgr.active_setFocus none
    · rfl
  · show WorkspaceManager.slot _ = if _ then _ else _
    split
    · exact s.workspaceMgr.slot_setFocus none
    · rfl

/-! ## Moving and switching -/

/-- Planning in the manager and planning on the desk agree. -/
theorem planMoveFocused_eq (target : ℕ) :
    s.workspaceMgr.planMoveFocused target =
      match (s.desk D o).planned target with
      | none => (s.workspaceMgr, none)
      | some id =>
        ((s.workspaceMgr.setSlot s.workspaceMgr.active none).setSlot target (some id),
          some (s.workspaceMgr.active, target, id)) := by
  rcases hp : (s.desk D o).planned target with _ | id
  · have hnone : (s.workspaceMgr.planMoveFocused target).2 = none := by
      rcases hplan : (s.workspaceMgr.planMoveFocused target).2 with _ | ⟨src, tgt, id⟩
      · rfl
      · obtain ⟨hlt, hne, hid, -⟩ := s.workspaceMgr.planMoveFocused_eq_some_iff.mp
          (Prod.ext rfl hplan)
        rw [(s.desk D o).planned_eq_some_iff.mpr ⟨hlt, hne, hid⟩] at hp
        cases hp
    exact Prod.ext (s.workspaceMgr.planMoveFocused_of_none hnone) hnone
  · obtain ⟨hlt, hne, hid⟩ := (s.desk D o).planned_eq_some_iff.mp hp
    exact s.workspaceMgr.planMoveFocused_eq_some_iff.mpr ⟨hlt, hne, hid, rfl, rfl, rfl⟩

/-- What `move_window_between_workspaces` does to the spaces; nothing else changes. -/
theorem moveWindowBetweenWorkspaces_eq {src target : ℕ} (hs : src < s.workspaces.count)
    (ht : target < s.workspaces.count) (hne : target ≠ src) (id : WindowId) :
    ∃ ws : Workspaces, s.moveWindowBetweenWorkspaces src target id = { s with workspaces := ws } ∧
      ws.space = match (s.desk D o).lookup src id with
        | none => s.workspaces.space
        | some w =>
          update (update s.workspaces.space src ((s.workspaces.space src).remove w)) target
            ((s.workspaces.space target).place w
              (((s.workspaces.space src).location w).getD (0, 0))) := by
  have htest : (s.workspaces.space src).find (fun w =>
      (w.wlSurface.map fun surf => decide (surf.protocolId.toUInt64 = id.raw)).getD false) =
        (s.desk D o).lookup src id := by
    rw [Desk.lookup]
    congr 1
    funext w
    cases id
    simp [windowId_eq]
  rw [moveWindowBetweenWorkspaces, Workspaces.get_eq_some _ hs]
  simp only
  rw [htest]
  rcases (s.desk D o).lookup src id with _ | w
  · exact ⟨s.workspaces, rfl, rfl⟩
  · refine ⟨_, rfl, ?_⟩
    have ht' : target < (s.workspaces.modify src fun sp => sp.remove w).count := by simpa using ht
    rw [Workspaces.space_modify _ _ _ ht', Workspaces.space_modify _ _ _ hs]
    simp [hne]

theorem does_moveFocused (h : s.CountsAgree) (target : ℕ) :
    Does s (s.moveFocused target).1 (.move target) := by
  intro D o
  rw [moveFocused, planMoveFocused_eq (D := D) (o := o)]
  rcases hp : (s.desk D o).planned target with _ | id
  · simp only [Desk.apply, Desk.moveFocused, Desk.carried, hp]
    rfl
  · obtain ⟨hlt, hne, hid⟩ := (s.desk D o).planned_eq_some_iff.mp hp
    obtain ⟨ws, heq, hspace⟩ := moveWindowBetweenWorkspaces_eq (D := D) (o := o)
      (s := { s with
        workspaceMgr := (s.workspaceMgr.setSlot s.workspaceMgr.active none).setSlot target
          (some id) }) h.active_lt (h ▸ hlt) hne id
    simp only
    rw [heq]
    refine Desk.ext rfl rfl ?_ ?_ rfl rfl rfl rfl rfl rfl
    · show ws.space = (s.desk D o).carried target
      rw [hspace, Desk.carried, hp]
      rfl
    · have hlt' : target < (s.workspaceMgr.setSlot s.workspaceMgr.active none).count := hlt
      show ((s.workspaceMgr.setSlot s.workspaceMgr.active none).setSlot target (some id)).slot =
        ((s.desk D o).moveFocused target).slot
      rw [WorkspaceManager.slot_setSlot _ _ _ hlt',
        WorkspaceManager.slot_setSlot _ _ _ s.workspaceMgr.active_lt]
      simp only [Desk.moveFocused, hp, Option.isSome_some, if_true, hid]
      rfl

theorem does_switchTo (idx : ℕ) :
    Does s { s with workspaceMgr := (s.workspaceMgr.switchTo idx).1 } (.switch idx) :=
  fun _ _ => Desk.ext (s.workspaceMgr.count_switchTo idx) (s.workspaceMgr.active_switchTo idx) rfl
    (s.workspaceMgr.slot_switchTo idx) rfl rfl rfl rfl rfl rfl

theorem does_switchNext (wrap : Bool) :
    Does s { s with workspaceMgr := (s.workspaceMgr.switchNext wrap).1 }
      (if s.workspaceMgr.active + 1 < s.workspaceMgr.count then .switch (s.workspaceMgr.active + 1)
        else if wrap then .switch 0 else .idle) := by
  rw [WorkspaceManager.switchNext_eq]
  split_ifs
  · exact does_switchTo _
  · exact does_switchTo _
  · exact fun _ _ => rfl

theorem does_switchPrev (wrap : Bool) :
    Does s { s with workspaceMgr := (s.workspaceMgr.switchPrev wrap).1 }
      (if s.workspaceMgr.active > 0 then .switch (s.workspaceMgr.active - 1)
        else if wrap then .switch (s.workspaceMgr.count - 1) else .idle) := by
  rw [WorkspaceManager.switchPrev_eq]
  split_ifs
  · exact does_switchTo _
  · exact does_switchTo _
  · exact fun _ _ => rfl

/-! ## Keyboard -/

/-- Closing a window asks its client; nothing moves. -/
theorem does_closeFocusedWindow : Does s s.closeFocusedWindow .idle :=
  s.closeFocusedWindow_cases (P := fun s' => Does s s' .idle) (fun _ _ => rfl) fun _ _ _ => rfl

theorem does_handleKeybind (h : s.CountsAgree) (mods : ModifiersState) (keysym : ℕ) :
    Does s (s.handleKeybind mods keysym).1 (s.keybindAct mods keysym) := by
  rw [handleKeybind, keybindAct]
  split
  · exact fun _ _ => rfl
  split
  · split
    · exact does_moveFocused h _
    · exact does_switchTo _
  split
  · exact does_switchNext _
  split
  · exact does_switchPrev _
  split
  · exact does_closeFocusedWindow
  split_ifs <;> exact fun _ _ => rfl

theorem desk_forwardKey (ev : KeyboardKeyEvent) : (s.forwardKey ev).desk D o = s.desk D o := by
  rw [forwardKey]
  split <;> rfl

/-- The filter runs shortcuts only while the session is unlocked and not shutting down. -/
theorem keyboardFilter_eq (ev : KeyboardKeyEvent) :
    s.keyboardFilter ev s.lock.isSome =
      if s.lock.isSome ∨ s.shutdownReason then (s, .forward)
      else s.handleKeybind ev.mods ev.keysym := by
  rw [keyboardFilter]
  split_ifs <;> simp_all

theorem does_handleKeyboard (h : s.CountsAgree) (ev : KeyboardKeyEvent) :
    Does s (s.handleKeyboard ev s.lock.isSome) (s.keyAct ev) := by
  have hfilter : s.nextSerial.keyboardFilter ev s.lock.isSome = _ :=
    s.nextSerial.keyboardFilter_eq ev
  have hkeys : Does s (s.nextSerial.handleKeybind ev.mods ev.keysym).1
      (s.keybindAct ev.mods ev.keysym) := does_handleKeybind (s := s.nextSerial) h _ _
  simp only [handleKeyboard, keyAct, seat_nextSerial]
  rcases s.seat.keyboard with _ | kbd
  · exact fun _ _ => rfl
  · simp only [hfilter]
    by_cases hquiet : s.lock.isSome ∨ s.shutdownReason
    · rw [if_pos (show s.nextSerial.lock.isSome ∨ s.nextSerial.shutdownReason from hquiet),
        if_pos (.inr hquiet)]
      exact fun _ _ => desk_forwardKey ev
    · rw [if_neg (show ¬ (s.nextSerial.lock.isSome ∨ s.nextSerial.shutdownReason) from hquiet),
        if_neg (by simpa using hquiet)]
      rcases hr : s.nextSerial.handleKeybind ev.mods ev.keysym with ⟨s', forward | intercept⟩
      · rw [hr] at hkeys
        exact fun D o => (desk_forwardKey ev).trans (hkeys D o)
      · rw [hr] at hkeys
        exact hkeys

/-! ## Pointer -/

theorem does_pointerMotion (h : s.CountsAgree) (focus : PointerFocus) (loc : Point ℚ) :
    Does s (s.pointerMotion focus loc) (s.motionAct loc) := by
  rw [pointerMotion, motionAct]
  rcases s.seat.pointer with _ | ptr
  · exact fun _ _ => rfl
  · simp only
    rw [← ptr.grab_dropDeadGrab_pendingFocus focus]
    split
    next hg => simp only [hg]; exact fun _ _ => rfl
    next hg => simp only [hg]; exact fun _ _ => rfl
    next hg =>
      simp only [hg]
      exact fun _ _ => desk_activeSpaceMut (s := s.setPointer _) h _

theorem desk_pointerButton (button : ℕ) (pressed : Bool) (serial : Serial) :
    (s.pointerButton button pressed serial).desk D o = s.desk D o := by
  rw [pointerButton]
  split <;> rfl

theorem does_pressAt (h : s.CountsAgree) (loc : Point ℚ) :
    Does s (s.pressAt loc) (.press ((s.elementUnder s.activeSpace loc).map Prod.fst)) := by
  intro D o
  rw [pressAt]
  rcases s.elementUnder s.activeSpace loc with _ | ⟨w, p⟩
  · exact desk_setKeyboardFocus none
  · simp only
    rw [desk_setKeyboardFocus, desk_activeSpaceMut h]
    rfl

theorem does_handlePointerMotion (h : s.CountsAgree) (delta : Point ℚ) :
    Does s (s.handlePointerMotion delta)
      (match s.seat.pointer with
      | some ptr => s.motionAct (s.clampPointer (ptr.location + delta))
      | none => .idle) := by
  simp only [handlePointerMotion, seat_nextSerial]
  rcases s.seat.pointer with _ | ptr
  · exact fun _ _ => rfl
  · exact does_pointerMotion (s := s.nextSerial) h _ _

theorem does_handlePointerButton (h : s.CountsAgree) (button : ℕ) (pressed : Bool) :
    Does s (s.handlePointerButton button pressed)
      (match s.seat.pointer, pressed with
      | some ptr, true => .press ((s.elementUnder s.activeSpace ptr.location).map Prod.fst)
      | _, _ => .idle) := by
  simp only [handlePointerButton, seat_nextSerial]
  rcases s.seat.pointer with _ | ptr
  · exact fun _ _ => rfl
  · intro D o
    simp only
    rw [desk_pointerButton]
    cases pressed with
    | false => rfl
    | true => exact does_pressAt (s := s.nextSerial) h ptr.location D o

theorem does_processInputEvent (h : s.CountsAgree) (ev : InputEvent) :
    Does s (s.processInputEvent ev) (s.inputAct ev) := by
  simp only [processInputEvent, inputAct]
  cases ev with
  | keyboard ev => exact does_handleKeyboard h ev
  | pointerMotion delta =>
    have hmotion := does_handlePointerMotion h delta
    rcases s.lock with _ | l
    · rcases hp : s.seat.pointer with _ | ptr <;> rw [hp] at hmotion <;> exact hmotion
    · exact fun _ _ => rfl
  | pointerMotionAbsolute pos =>
    rcases s.lock with _ | l
    · exact does_pointerMotion (s := s.nextSerial) h _ _
    · exact fun _ _ => rfl
  | pointerButton button pressed =>
    have hbutton := does_handlePointerButton h button pressed
    rcases s.lock with _ | l
    · rcases hp : s.seat.pointer with _ | ptr <;> rw [hp] at hbutton <;> cases pressed <;>
        exact hbutton
    · exact fun _ _ => rfl
  | pointerAxis =>
    rcases s.lock with _ | l
    · simp only [handlePointerAxis, pointerAxis]
      rcases s.seat.pointer with _ | ptr <;> exact fun _ _ => rfl
    · exact fun _ _ => rfl
  | other => exact fun _ _ => rfl

/-! ## The other requests -/

theorem does_moveRequest (t : ToplevelSurface) (serial : Serial) :
    Does s (s.moveRequest t serial) .idle := by
  rcases s.moveRequest_cases t serial with heq | ⟨_, _, _, _, -, -, -, -, heq⟩ <;> rw [heq] <;>
    exact fun _ _ => rfl

theorem does_newLayerSurface (l : LayerSurface) (wlOutput : Option OutputId) :
    Does s (s.newLayerSurface l wlOutput) .idle := by
  rcases wlOutput with _ | out
  · simp only [newLayerSurface]
    split <;> exact fun _ _ => rfl
  · simp only [newLayerSurface]
    split <;> exact fun _ _ => rfl

theorem does_layerDestroyed (l : LayerSurface) : Does s (s.layerDestroyed l) .idle := by
  rw [layerDestroyed]
  split <;> exact fun _ _ => rfl

theorem does_lockSession (locker : SessionLocker) :
    Does s (s.lockSession locker) (.lock locker) := by
  intro D o
  rw [lockSession]
  rcases hl : s.lock with _ | l
  · have hdesk := desk_setKeyboardFocus (D := D) (o := o)
      (s := { s with lock := some ⟨locker, []⟩ }.nextSerial) none
    refine Eq.trans hdesk ?_
    simp only [Desk.apply, show (s.desk D o).lock = none from hl]
    rfl
  · refine Desk.ext rfl rfl rfl rfl rfl rfl ?_ ?_ rfl rfl
    · simp [desk, Desk.apply, Desk.setFocus, hl]
      rfl
    · simp [desk, Desk.apply, Desk.setFocus, hl, emit]

theorem does_unlockSession (h : s.CountsAgree) : Does s s.unlockSession .unlock := by
  intro D o
  have hact : (s.desk D o).space (s.desk D o).active = s.activeSpace := h.activeSpace.symm
  have hact' : ∀ es, activeSpace { s with lock := none, effects := es } = s.activeSpace :=
    fun _ => rfl
  simp only [unlockSession, Desk.apply, hact, hact']
  rcases s.activeSpace.top with _ | w
  · refine Desk.ext rfl rfl rfl rfl rfl rfl ?_ rfl rfl rfl
    simp [Desk.setFocus]
    rfl
  · exact desk_setKeyboardFocus _

theorem does_newLockSurface (surface : LockSurface) (wlOutput : OutputId) :
    Does s (s.newLockSurface surface wlOutput) (.lockSurface surface) := by
  intro D o
  rw [newLockSurface]
  rcases hl : s.lock with _ | l
  · refine Desk.ext rfl rfl rfl rfl rfl rfl rfl ?_ rfl rfl
    simp [desk, Desk.apply, hl]
  · refine Desk.ext rfl rfl rfl rfl rfl rfl rfl ?_ rfl rfl
    simp [desk, Desk.apply, hl]

theorem does_destroySurface (surface : WlSurface) :
    Does s (s.destroySurface surface) (.vanish surface) := by
  intro D o
  refine Desk.ext rfl rfl rfl rfl rfl ?_ ?_ rfl rfl rfl
  · simp [desk, Desk.apply, destroySurface]
  · rcases hk : s.seat.keyboard with _ | kbd <;>
      simp [desk, Desk.apply, destroySurface, keyboardFocus, hk]

theorem does_ipc (h : s.CountsAgree) (req : Request) (disk : FrameConfig) :
    Does s (s.handleRequestOnMain req disk).1 (s.deskAct (.ipc req disk)) := by
  cases req with
  | switchWorkspace idx =>
    have hswitch := does_switchTo (s := s) idx
    rw [handleRequestOnMain]
    rcases hr : s.workspaceMgr.switchTo idx with ⟨mgr, _ | _⟩ <;> rw [hr] at hswitch <;>
      exact hswitch
  | moveFocused target =>
    have hmove := does_moveFocused h target
    rw [handleRequestOnMain]
    rcases hr : s.moveFocused target with ⟨s', _ | _⟩ <;> rw [hr] at hmove <;> exact hmove
  | _ => exact fun _ _ => rfl

/-- **Every handler does what the desk says.** -/
theorem does_react (h : s.CountsAgree) (e : Event) : Does s (s.react e) (s.deskAct e) := by
  cases e with
  | destroySurface surface => exact does_destroySurface surface
  | newToplevel surface => exact does_newToplevel h surface
  | toplevelDestroyed t => exact does_toplevelDestroyed h t
  | moveRequest t serial => exact does_moveRequest t serial
  | newLayerSurface surface layer out =>
    exact does_newLayerSurface (s := s.registerLayer surface layer) _ _
  | layerDestroyed l => exact does_layerDestroyed (s := s.forgetLayer l) l
  | lock client => exact does_lockSession (s := { s with nextLocker := s.nextLocker + 1 }) _
  | newLockSurface surface out =>
    exact does_newLockSurface (s := s.setRole surface .lock) _ _
  | unlock => exact does_unlockSession h
  | input ev => exact does_processInputEvent h ev
  | ipc req disk => exact does_ipc h req disk
  | resized size =>
    show Does s (s.resized size) .idle
    rw [resized]
    split <;> exact fun _ _ => rfl
  | redraw painted =>
    show Does s (s.updatePanelBitmap painted) .idle
    simp only [updatePanelBitmap]
    split <;> exact fun _ _ => rfl
  | _ => exact fun _ _ => rfl

end NullxesState

end Frame

end Nullxes
