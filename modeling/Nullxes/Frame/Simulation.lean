import Nullxes.Frame.Footprint
import Nullxes.Frame.Refines

/-!
# Runs of FRAME are runs of a desk

Every handler does what the desk says (`NullxesState.does_react`), and what an event does is
something a desk can do: toplevels are new when they appear, live toplevels of a client have
different protocol ids, and an interactive move has hold of a window that existed. The second part
needs an invariant of the state itself, `World.Wf`, since surfaces and grabs are not on the desk.

## Main results

* `World.Wf.step` — every event keeps a state of FRAME well formed
* `World.simulation` — runs of FRAME are runs of a desk
* `World.mem_destroyed_run` — the history of destroyed toplevels is what it says
-/

namespace Nullxes

namespace Frame

/-- What a key can do to the desk. -/
def DeskAct.OfKey (a : DeskAct) : Prop := a = .idle ∨ (∃ i, a = .switch i) ∨ ∃ i, a = .move i

theorem DeskAct.OfKey.ite {c : Prop} [Decidable c] {a b : DeskAct} (ha : a.OfKey)
    (hb : b.OfKey) : (if c then a else b).OfKey := by
  split
  · exact ha
  · exact hb

namespace NullxesState

variable {s : NullxesState} {e : Event}

theorem mem_aliveAfter {x : WlSurface} (h : x ∈ s.aliveAfter e) :
    x ∈ s.compositorState.alive ∨
      ∃ client protocolId, e = .createSurface client protocolId ∧
        x = s.freshSurface client protocolId := by
  cases e with
  | createSurface client protocolId =>
    rcases List.mem_cons.mp h with rfl | h
    · exact .inr ⟨client, protocolId, rfl, rfl⟩
    · exact .inl h
  | destroySurface surface => exact .inl (List.mem_filter.mp h).1
  | _ => exact .inl h

theorem motionAct_cases (loc : Point ℚ) :
    s.motionAct loc = .idle ∨ ∃ v p, s.motionAct loc = .drag v p := by
  rw [motionAct]
  split
  · exact .inl rfl
  · split
    · exact .inr ⟨_, _, rfl⟩
    · exact .inl rfl

theorem keyAct_cases (ev : KeyboardKeyEvent) :
    s.keyAct ev = .idle ∨ (∃ i, s.keyAct ev = .switch i) ∨ ∃ i, s.keyAct ev = .move i := by
  have hidle : DeskAct.idle.OfKey := .inl rfl
  have hswitch : ∀ i, (DeskAct.switch i).OfKey := fun i => .inr (.inl ⟨i, rfl⟩)
  have hmove : ∀ i, (DeskAct.move i).OfKey := fun i => .inr (.inr ⟨i, rfl⟩)
  show (s.keyAct ev).OfKey
  rw [keyAct, keybindAct]
  refine .ite hidle (.ite hidle (.ite ?_ (.ite ?_ (.ite ?_ hidle))))
  · exact .ite (hmove _) (hswitch _)
  · exact .ite (hswitch _) (.ite (hswitch _) hidle)
  · exact .ite (hswitch _) (.ite (hswitch _) hidle)

/-- Input events move, switch, drag and press; they do nothing else to the desk. -/
theorem inputAct_cases (ev : InputEvent) :
    s.inputAct ev = .idle ∨ (∃ i, s.inputAct ev = .switch i) ∨ (∃ i, s.inputAct ev = .move i) ∨
      (∃ v p, s.inputAct ev = .drag v p) ∨ ∃ hit, s.inputAct ev = .press hit := by
  simp only [inputAct]
  cases ev with
  | keyboard ev =>
    rcases s.keyAct_cases ev with h | ⟨i, h⟩ | ⟨i, h⟩ <;> simp [h]
  | pointerMotion delta =>
    simp only
    split
    next ptr _ _ =>
      rcases s.motionAct_cases (s.clampPointer (ptr.location + delta)) with h | ⟨v, p, h⟩ <;>
        simp [h]
    next => simp
  | pointerMotionAbsolute pos =>
    simp only
    split
    · simp
    · rcases s.motionAct_cases (pos.1 * s.primaryGeometry.size.1 + s.primaryGeometry.loc.1,
        pos.2 * s.primaryGeometry.size.2 + s.primaryGeometry.loc.2) with h | ⟨v, p, h⟩ <;> simp [h]
  | pointerButton button pressed =>
    simp only
    split <;> simp
  | pointerAxis => simp
  | other => simp

/-- Only `toplevel_destroyed` makes a toplevel go. -/
theorem deskAct_eq_destroy {t : ToplevelSurface} :
    s.deskAct e = .destroy t ↔ e = .toplevelDestroyed t := by
  cases e with
  | toplevelDestroyed t' => simp [deskAct]
  | input ev =>
    rcases s.inputAct_cases ev with h | ⟨i, h⟩ | ⟨i, h⟩ | ⟨v, p, h⟩ | ⟨hit, h⟩ <;>
      simp [deskAct, h]
  | ipc req disk => cases req <;> simp [deskAct]
  | _ => simp [deskAct]

/-- Only `unlock` ends a lock. -/
theorem deskAct_eq_unlock : s.deskAct e = .unlock ↔ e = .unlock := by
  cases e with
  | unlock => simp [deskAct]
  | input ev =>
    rcases s.inputAct_cases ev with h | ⟨i, h⟩ | ⟨i, h⟩ | ⟨v, p, h⟩ | ⟨hit, h⟩ <;>
      simp [deskAct, h]
  | ipc req disk => cases req <;> simp [deskAct]
  | _ => simp [deskAct]

/-- Only `new_toplevel` makes a toplevel appear. -/
theorem deskAct_eq_create {t : ToplevelSurface} {loc : Point ℤ} (h : s.deskAct e = .create t loc) :
    ∃ surface, e = .newToplevel surface ∧ t = s.freshToplevel surface := by
  cases e with
  | newToplevel surface =>
    cases h
    exact ⟨surface, rfl, rfl⟩
  | input ev =>
    have hev : s.inputAct ev = .create t loc := h
    rcases s.inputAct_cases ev with h' | ⟨i, h'⟩ | ⟨i, h'⟩ | ⟨v, p, h'⟩ | ⟨hit, h'⟩ <;>
      rw [h'] at hev <;> cases hev
  | ipc req disk => cases req <;> cases h
  | _ => cases h

end NullxesState

namespace World

/-- What holds of every state of FRAME: the desk is well formed, surfaces and toplevels have the
identities the protocol promises, and an interactive move has hold of a window that existed. -/
structure Wf (w : World) : Prop where
  counts : w.state.CountsAgree
  desk : w.desk.Wf
  uid_lt : ∀ t, w.desk.Known t → t.uid < w.state.xdgShellState.nextUid
  alive_ids : ∀ a ∈ w.state.compositorState.alive, ∀ b ∈ w.state.compositorState.alive,
    a.client = b.client → a.protocolId = b.protocolId → a = b
  toplevel_ids : ∀ a ∈ w.state.compositorState.alive, ∀ t ∈ w.state.xdgShellState.toplevels,
    a.client = t.wlSurface.client → a.protocolId = t.wlSurface.protocolId → a = t.wlSurface
  grabbed : ∀ v, w.state.grabbed = some v → w.desk.Known v.toplevelSurface

variable {w : World} {e : Event}

theorem desk_boot (config : FrameConfig) (modes : List (Point ℤ)) (keyboard : Bool) :
    (boot config modes keyboard).desk =
      Desk.blank (clampCount config.workspace.count) keyboard := by
  refine Desk.ext rfl rfl ?_ ?_ rfl ?_ ?_ rfl rfl rfl
  · funext i
    exact Workspaces.space_new _ i
  · funext i
    exact WorkspaceManager.slot_new _ i
  · cases keyboard <;> rfl
  · cases keyboard <;> rfl

theorem wf_boot (config : FrameConfig) (modes : List (Point ℤ)) (keyboard : Bool) :
    (boot config modes keyboard).Wf where
  counts := by
    show (Workspaces.new config.workspace.count).spaces.length = clampCount config.workspace.count
    simp [Workspaces.new]
  desk := desk_boot config modes keyboard ▸ Desk.wf_blank (clampCount_pos _) keyboard
  uid_lt t ht := by
    rw [desk_boot] at ht
    rcases ht with ht | ht <;> cases ht
  alive_ids a ha := by cases ha
  toplevel_ids a ha := by cases ha
  grabbed v hv := by cases hv

/-- **Refinement.** One turn of the event loop does to the desk what `deskAct` says. -/
theorem desk_step (hw : w.Wf) : (w.step e).desk = w.desk.apply (w.deskAct e) :=
  NullxesState.does_react hw.counts e w.destroyed w.owner

theorem possible_motionAct (hw : w.Wf) (loc : Point ℚ) :
    w.desk.Possible (w.state.motionAct loc) := by
  have hgrab := hw.grabbed
  rw [NullxesState.motionAct]
  rw [NullxesState.grabbed] at hgrab
  rcases hp : w.state.seat.pointer with _ | ptr
  · trivial
  · simp only
    split
    next serial start grab hg =>
      have hcustom : (ptr.dropDeadGrab w.state.compositorState.alive).customGrab = some grab := by
        rw [PointerHandle.customGrab, hg]
      exact hgrab grab.window (by simp [hp, ptr.customGrab_dropDeadGrab hcustom])
    next => trivial

theorem possible_keyAct (ev : NullxesState.KeyboardKeyEvent) :
    w.desk.Possible (w.state.keyAct ev) := by
  rcases w.state.keyAct_cases ev with h | ⟨i, h⟩ | ⟨i, h⟩
  all_goals
    rw [h]
    trivial

theorem possible_inputAct (hw : w.Wf) (ev : NullxesState.InputEvent) :
    w.desk.Possible (w.state.inputAct ev) := by
  simp only [NullxesState.inputAct]
  cases ev with
  | keyboard ev => exact possible_keyAct ev
  | pointerMotion delta =>
    simp only
    split
    · exact possible_motionAct hw _
    · trivial
  | pointerMotionAbsolute pos =>
    simp only
    split
    · trivial
    · exact possible_motionAct hw _
  | pointerButton button pressed =>
    simp only
    split
    next ptr hl hp =>
      refine ⟨hl, fun v hv => ?_⟩
      obtain ⟨⟨v', p⟩, hunder, rfl⟩ := Option.map_eq_some_iff.mp hv
      show v' ∈ w.state.workspaces.space w.state.workspaceMgr.active
      rw [← hw.counts.activeSpace]
      exact ZStack.mem_of_topmost hunder
    · trivial
  | pointerAxis => trivial
  | other => trivial

/-- What an event does is something a desk can do. -/
theorem possible_deskAct (hw : w.Wf) (he : w.state.Possible e) :
    w.desk.Possible (w.deskAct e) := by
  cases e with
  | newToplevel surface =>
    obtain ⟨⟨halive, -⟩, hfree⟩ := he
    refine ⟨fun hdead => ?_, fun t ht hc hi => ?_⟩
    · exact Nat.lt_irrefl _ (hw.uid_lt _ (.inr hdead))
    · exact hfree t ht (hw.toplevel_ids surface halive t ht hc.symm hi.symm).symm
  | toplevelDestroyed t => exact he
  | input ev => exact possible_inputAct hw ev
  | ipc req disk => cases req <;> trivial
  | _ => trivial

theorem alive_step : (w.step e).state.compositorState.alive = w.state.aliveAfter e :=
  (w.state.footprint_react e).alive

/-- A toplevel is known after an event if it was before or the event creates it. -/
theorem known_step (hw : w.Wf) (he : w.state.Possible e) {t : ToplevelSurface} :
    (w.step e).desk.Known t ↔ w.desk.Known t ∨ ∃ loc, w.deskAct e = .create t loc := by
  rw [desk_step hw]
  exact Desk.known_apply (possible_deskAct hw he)

/-- A toplevel that exists after an event existed before or is made by it. -/
theorem mem_toplevels_step (hw : w.Wf) {t : ToplevelSurface}
    (ht : t ∈ (w.step e).state.xdgShellState.toplevels) :
    t ∈ w.state.xdgShellState.toplevels ∨
      ∃ surface, e = .newToplevel surface ∧ t = w.state.freshToplevel surface := by
  have hdesk : t ∈ (w.step e).desk.toplevels := ht
  rw [desk_step hw] at hdesk
  rcases Desk.mem_toplevels_apply hdesk with ht | ⟨loc, hcreate⟩
  · exact .inl ht
  · exact .inr (NullxesState.deskAct_eq_create hcreate)

theorem uid_lt_step (hw : w.Wf) (he : w.state.Possible e) {t : ToplevelSurface}
    (ht : (w.step e).desk.Known t) : t.uid < (w.step e).state.xdgShellState.nextUid := by
  have hnext : (w.step e).state.xdgShellState.nextUid = w.state.nextUidAfter e :=
    (w.state.footprint_react e).nextUid
  rw [hnext]
  rcases (known_step hw he).mp ht with ht | ⟨loc, hc⟩
  · refine Nat.lt_of_lt_of_le (hw.uid_lt t ht) ?_
    cases e <;> simp [NullxesState.nextUidAfter]
  · obtain ⟨surface, rfl, rfl⟩ := NullxesState.deskAct_eq_create hc
    exact Nat.lt_succ_self _

/-- Live surfaces of a client go on having different protocol ids. -/
theorem alive_ids_step (hw : w.Wf) (he : w.state.Possible e) {a b : WlSurface}
    (ha : a ∈ (w.step e).state.compositorState.alive)
    (hb : b ∈ (w.step e).state.compositorState.alive) (hc : a.client = b.client)
    (hi : a.protocolId = b.protocolId) : a = b := by
  rw [alive_step] at ha hb
  rcases NullxesState.mem_aliveAfter ha with ha' | ⟨c, p, rfl, rfl⟩
  · rcases NullxesState.mem_aliveAfter hb with hb' | ⟨c, p, rfl, rfl⟩
    · exact hw.alive_ids a ha' b hb' hc hi
    · exact absurd hi (he.1 a ha' hc)
  · rcases NullxesState.mem_aliveAfter hb with hb' | ⟨c', p', heq, rfl⟩
    · exact absurd hi.symm (he.1 b hb' hc.symm)
    · cases heq
      rfl

/-- A live surface goes on having another protocol id than its client's toplevels on other
surfaces. -/
theorem toplevel_ids_step (hw : w.Wf) (he : w.state.Possible e) {a : WlSurface}
    {t : ToplevelSurface} (ha : a ∈ (w.step e).state.compositorState.alive)
    (ht : t ∈ (w.step e).state.xdgShellState.toplevels) (hc : a.client = t.wlSurface.client)
    (hi : a.protocolId = t.wlSurface.protocolId) : a = t.wlSurface := by
  rw [alive_step] at ha
  rcases NullxesState.mem_aliveAfter ha with ha | ⟨c, p, rfl, rfl⟩
  · rcases mem_toplevels_step hw ht with ht | ⟨surface, rfl, rfl⟩
    · exact hw.toplevel_ids a ha t ht hc hi
    · exact hw.alive_ids a ha surface he.1.1 hc hi
  · rcases mem_toplevels_step hw ht with ht | ⟨surface, heq, -⟩
    · exact absurd hi.symm (he.2 t ht hc.symm)
    · cases heq

/-- An interactive move goes on having hold of a window that existed. -/
theorem grabbed_step (hw : w.Wf) (he : w.state.Possible e) {v : Window}
    (hv : (w.step e).state.grabbed = some v) : (w.step e).desk.Known v.toplevelSurface := by
  refine (known_step hw he).mpr (.inl ?_)
  rcases (w.state.footprint_react e).grabbed v hv with hv | hv
  · exact hw.grabbed v hv
  · rw [hw.counts.activeSpace] at hv
    exact hw.desk.known _ v hv

/-- **Every event keeps a state of FRAME well formed.** -/
theorem Wf.step (hw : w.Wf) (he : w.state.Possible e) : (w.step e).Wf where
  counts := by
    have hcount : (w.step e).desk.count = w.desk.count := by rw [desk_step hw, Desk.count_apply]
    exact (w.state.footprint_react e).count.trans (hw.counts.trans hcount.symm)
  desk := desk_step hw ▸ hw.desk.apply (possible_deskAct hw he)
  uid_lt _ ht := uid_lt_step hw he ht
  alive_ids _ ha _ hb := alive_ids_step hw he ha hb
  toplevel_ids _ ha _ ht := toplevel_ids_step hw he ha ht
  grabbed _ hv := grabbed_step hw he hv

/-- **Runs of FRAME are runs of a desk.** -/
def simulation : EventMachine.Simulation frame Desk.machine where
  abs := desk
  act := deskAct
  Inv := Wf
  inv_init := by
    rintro _ ⟨config, modes, keyboard, rfl⟩
    exact wf_boot config modes keyboard
  inv_step _ _ hw he := hw.step he
  init := by
    rintro _ ⟨config, modes, keyboard, rfl⟩
    exact ⟨_, keyboard, clampCount_pos _, desk_boot config modes keyboard⟩
  enabled _ _ hw he := possible_deskAct hw he
  step _ _ hw _ := desk_step hw

theorem wf_of_reachable (h : frame.Reachable w) : w.Wf :=
  h.invariant simulation.inv_init simulation.inv_step

/-- The first-failure rule for properties of the desk: it is enough to know, act by act, when a well
formed desk keeps the property. -/
theorem always_iff_eachStep {P : Desk → Prop} {C : Desk → DeskAct → Prop} {es : List Event}
    (hblank : ∀ count hasKeyboard, P (Desk.blank count hasKeyboard))
    (hstep : ∀ d a, d.Wf → P d → d.Possible a → (P (d.apply a) ↔ C d a))
    (h0 : frame.Init w) (hl : frame.Legal w es) :
    frame.Always (fun w => P w.desk) w es ↔
      frame.EachStep (fun w e => C w.desk (w.deskAct e)) w es := by
  have hw : w.Wf := simulation.inv_init w h0
  refine simulation.always_iff_eachStep (fun d a hd hp => hd.apply hp) hstep hw hw.desk ?_ hl
  obtain ⟨config, modes, keyboard, rfl⟩ := h0
  show P (boot config modes keyboard).desk
  rw [desk_boot]
  exact hblank _ _

theorem mem_destroyed_step {t : ToplevelSurface} :
    t ∈ (w.step e).destroyed ↔ e = .toplevelDestroyed t ∨ t ∈ w.destroyed := by
  have hiff : e = .toplevelDestroyed t ↔ w.deskAct e = .destroy t :=
    NullxesState.deskAct_eq_destroy.symm
  show t ∈ (w.desk.apply (w.deskAct e)).destroyed ↔ _
  rw [Desk.destroyed_apply, hiff]
  split
  next t' hact => simp [hact, eq_comm, desk, NullxesState.desk]
  next hno =>
    have hne : w.deskAct e ≠ .destroy t := fun h => hno t h
    simp [hne, desk, NullxesState.desk]

/-- The history of destroyed toplevels is what it says. -/
theorem mem_destroyed_run {es : List Event} {t : ToplevelSurface} :
    t ∈ (frame.run w es).destroyed ↔ t ∈ w.destroyed ∨ .toplevelDestroyed t ∈ es := by
  induction es generalizing w with
  | nil => simp
  | cons e es ih =>
    have hstep : t ∈ (frame.step w e).destroyed ↔ e = .toplevelDestroyed t ∨ t ∈ w.destroyed :=
      mem_destroyed_step
    rw [EventMachine.run_cons, ih, hstep, List.mem_cons, eq_comm (a := e)]
    tauto

end World

end Frame

end Nullxes
