import Nullxes.Frame.Slots

/-!
# Control requests, all or nothing

`handle_request_on_main` answers `Err` when nothing was done, and that is kept: a refused request
leaves the manager and the spaces as they were. `Ok` to `Move.Focused` is answered as soon as the
move is *planned*. The plan looks at the slots only; carrying it out looks for the window in the
space, and when it finds none, or another one with the same id, the answer is `Ok` all the same.

## Main results

* `ipc_all_or_nothing_iff` — what each answer means, and when `Ok` to a move is true
-/

namespace Nullxes

namespace Frame

variable {w : World} {s' : NullxesState} {target : ℕ}

/-- What `Ok` to `Move.Focused` stands for: the window recorded on the active workspace went to the
same place on the target, both slots followed it, and no other window changed workspace. -/
def World.Moved (w : World) (s' : NullxesState) (target : ℕ) : Prop :=
  ∃ v loc, w.owner w.state.workspaceMgr.active = some v ∧
    (w.state.workspaces.space w.state.workspaceMgr.active).location v = some loc ∧
    v ∉ s'.workspaces.space w.state.workspaceMgr.active ∧
    (s'.workspaces.space target).location v = some loc ∧
    s'.workspaceMgr.slot w.state.workspaceMgr.active = none ∧
    s'.workspaceMgr.slot target = some (windowId v) ∧
    ∀ x, x ≠ v → ∀ i, x ∈ s'.workspaces.space i ↔ x ∈ w.state.workspaces.space i

/-- The window recorded on the active workspace is mapped there, with no window of the same id
below it. -/
def World.RecordedFirst (w : World) : Prop :=
  ∃ v, w.desk.owner w.desk.active = some v ∧ w.desk.Lowest w.desk.active (windowId v) v

/-- A refused request changes neither the manager nor the spaces. -/
theorem unchanged_of_err (s : NullxesState) (req : Request) (disk : FrameConfig) (err : IpcError)
    (h : s.handleRequestOnMain req disk = (s', .err err)) :
    s'.workspaceMgr = s.workspaceMgr ∧ s'.workspaces = s.workspaces := by
  cases req with
  | switchWorkspace idx =>
    rw [NullxesState.handleRequestOnMain] at h
    rcases hr : s.workspaceMgr.switchTo idx with ⟨mgr, _ | _⟩
    · have hsame : (s.workspaceMgr.switchTo idx).1 = s.workspaceMgr :=
        s.workspaceMgr.switchTo_of_false (by rw [hr])
      rw [hr] at h hsame
      cases h
      exact ⟨hsame, rfl⟩
    · rw [hr] at h
      cases h
  | moveFocused target =>
    simp only [NullxesState.handleRequestOnMain, NullxesState.moveFocused] at h
    rcases hp : (s.workspaceMgr.planMoveFocused target).2 with _ | ⟨src, tgt, id⟩
    · have hsame := s.workspaceMgr.planMoveFocused_of_none hp
      rw [hp, hsame] at h
      cases h
      exact ⟨rfl, rfl⟩
    · rw [hp] at h
      cases h
  | _ => cases h

/-- `Ok` means that the move was planned. -/
theorem planned_of_ok {data : Option ResponseData} {disk : FrameConfig}
    (h : w.state.handleRequestOnMain (.moveFocused target) disk = (s', .ok data)) :
    (∃ id, w.desk.planned target = some id) ∧ s' = (w.state.moveFocused target).1 := by
  simp only [NullxesState.handleRequestOnMain, NullxesState.moveFocused,
    NullxesState.planMoveFocused_eq (D := w.destroyed) (o := w.owner)] at h ⊢
  rcases hp : (w.state.desk w.destroyed w.owner).planned target with _ | id
  · rw [hp] at h
    cases h
  · rw [hp] at h
    cases h
    exact ⟨⟨id, hp⟩, rfl⟩

theorem space_moveFocused (hw : w.Wf) (target i : ℕ) :
    (w.state.moveFocused target).1.workspaces.space i = (w.desk.apply (.move target)).space i :=
  congrArg (fun d => d.space i)
    (NullxesState.does_moveFocused hw.counts target w.destroyed w.owner)

theorem slot_moveFocused (hw : w.Wf) (target i : ℕ) :
    (w.state.moveFocused target).1.workspaceMgr.slot i = (w.desk.apply (.move target)).slot i :=
  congrArg (fun d => d.slot i)
    (NullxesState.does_moveFocused hw.counts target w.destroyed w.owner)

/-- If the recorded window was moved, the look-up found it. -/
theorem recordedFirst_of_moved (hw : w.Wf) {id : WindowId}
    (hp : w.desk.planned target = some id)
    (h : w.Moved (w.state.moveFocused target).1 target) : w.RecordedFirst := by
  obtain ⟨v, loc, howner, hloc, hgone, -⟩ := h
  obtain ⟨-, -, hslot⟩ := w.desk.planned_eq_some_iff.mp hp
  have hmem : v ∈ w.desk.space w.desk.active := ZStack.mem_iff_location.mpr ⟨loc, hloc⟩
  have hid : w.desk.slot w.desk.active = some (windowId v) := by
    rw [hw.desk.slot_eq, show w.desk.owner w.desk.active = some v from howner, Option.map_some]
  have hcarried : w.desk.carriedWindow target = some v := by
    by_contra hno
    refine hgone ?_
    rw [space_moveFocused hw, Desk.mem_apply]
    exact .inr ⟨hmem, fun h => hno h.2⟩
  rw [w.desk.carriedWindow_of_planned hp] at hcarried
  rw [hslot, Option.some.injEq] at hid
  exact ⟨v, howner, hid ▸ hcarried⟩

/-- If the look-up can only find the recorded window, it is moved, with its record. -/
theorem moved_of_recordedFirst (hw : w.Wf) {id : WindowId}
    (hp : w.desk.planned target = some id) (h : w.RecordedFirst) :
    w.Moved (w.state.moveFocused target).1 target := by
  obtain ⟨v, howner, hlow⟩ := h
  obtain ⟨-, hne, hslot⟩ := w.desk.planned_eq_some_iff.mp hp
  have hid : id = windowId v := by
    rw [hw.desk.slot_eq, howner, Option.map_some, Option.some.injEq] at hslot
    exact hslot.symm
  subst hid
  have hcarried := (w.desk.carriedWindow_of_planned hp).mpr hlow
  obtain ⟨loc, hloc⟩ := ZStack.mem_iff_location.mp (w.desk.mem_of_carriedWindow hcarried)
  refine ⟨v, loc, howner, hloc, ?_, ?_, ?_, ?_, ?_⟩
  · rw [space_moveFocused hw, Desk.mem_apply]
    rintro (⟨hact, -⟩ | ⟨-, hno⟩)
    · exact hne hact.symm
    · exact hno ⟨rfl, hcarried⟩
  · have htarget : (w.desk.apply (.move target)).space target =
        (w.desk.space target).place v (((w.desk.space w.desk.active).location v).getD (0, 0)) := by
      have hbind : (w.desk.planned target).bind (w.desk.lookup w.desk.active) = some v := hcarried
      simp [Desk.apply, Desk.moveFocused, Desk.carried, hbind]
    rw [space_moveFocused hw, htarget, ZStack.location_place_self, hloc, Option.getD_some]
  · rw [slot_moveFocused hw, Desk.slot_apply]
    have hact : w.state.workspaceMgr.active = w.desk.active := rfl
    simp [hp, hact, Ne.symm hne]
  · rw [slot_moveFocused hw, Desk.slot_apply]
    simp [hp, hslot]
  · intro x hx i
    rw [space_moveFocused hw, Desk.mem_apply]
    simp only [hcarried, Option.some.injEq, Ne.symm hx, and_false, false_or, not_false_eq_true,
      and_true]
    exact Iff.rfl

/-- **All or nothing.** In every reachable state, `Err` to any request leaves the manager and the
spaces unchanged, and `Ok` to `Move.Focused` is true to its word if and only if the recorded window
is the lowest one on the active workspace with its id. -/
theorem ipc_all_or_nothing_iff (hw : frame.Reachable w) (disk : FrameConfig) :
    (∀ req err, (w.state.handleRequestOnMain req disk).2 = .err err →
      (w.state.handleRequestOnMain req disk).1.workspaceMgr = w.state.workspaceMgr ∧
        (w.state.handleRequestOnMain req disk).1.workspaces = w.state.workspaces) ∧
    ∀ target data, (w.state.handleRequestOnMain (.moveFocused target) disk).2 = .ok data →
      (w.Moved (w.state.handleRequestOnMain (.moveFocused target) disk).1 target ↔
        w.RecordedFirst) := by
  constructor
  · intro req err h
    exact unchanged_of_err w.state req disk err (Prod.ext rfl h)
  · intro target data h
    obtain ⟨⟨id, hp⟩, heq⟩ := planned_of_ok (Prod.ext rfl h)
    have hmoved : w.Moved (w.state.moveFocused target).1 target ↔ w.RecordedFirst :=
      ⟨recordedFirst_of_moved (World.wf_of_reachable hw) hp,
        moved_of_recordedFirst (World.wf_of_reachable hw) hp⟩
    rwa [← heq] at hmoved

/-! ### A move of a window that is gone -/

/-- A window dies on an inactive workspace, and that workspace becomes active again. -/
def recordGone : List Event := dieElsewhere ++ [.ipc (.switchWorkspace 0) {}]

theorem reachable_recordGone : frame.Reachable (frame.run World.desktop recordGone) :=
  (EventMachine.Reachable.init init_desktop).run (by decide +kernel)

theorem ipc_all_or_nothing_iff_recordGone :
    (frame.run World.desktop recordGone).Moved
        ((frame.run World.desktop recordGone).state.handleRequestOnMain (.moveFocused 2) {}).1 2 ↔
      (frame.run World.desktop recordGone).RecordedFirst :=
  (ipc_all_or_nothing_iff reachable_recordGone {}).2 2 none (by decide +kernel)

/-- The answer is `Ok`, and there is no window anywhere that could have moved. -/
theorem recordGone_ok_not_moved :
    frame.Reachable (frame.run World.desktop recordGone) ∧
      ((frame.run World.desktop recordGone).state.handleRequestOnMain (.moveFocused 2) {}).2 =
        .ok none ∧
      ¬ (frame.run World.desktop recordGone).Moved
          ((frame.run World.desktop recordGone).state.handleRequestOnMain (.moveFocused 2) {}).1
            2 := by
  refine ⟨reachable_recordGone, by decide +kernel, ?_⟩
  rintro ⟨v, loc, -, hloc, -⟩
  have hmem : v ∈ (frame.run World.desktop recordGone).state.workspaces.space 0 :=
    ZStack.mem_iff_location.mpr ⟨loc, hloc⟩
  have hempty : ((frame.run World.desktop recordGone).state.workspaces.space 0).elements = [] := by
    decide +kernel
  rw [ZStack.mem_def, hempty] at hmem
  cases hmem

end Frame

end Nullxes
