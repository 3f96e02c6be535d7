import Nullxes.Frame.Identity

/-!
# Keyboard focus

The seat's keyboard focus decides who gets the keystrokes; the focus slot of the active workspace
decides what the shortcuts act on. They are written by different handlers: a press and `unlock`
write the focus, `new_toplevel`, `toplevel_destroyed` and a move write the slot, and a switch puts
another slot in charge. `Desk.OneFocus` says that the two agree on the window in use, and
`Desk.FocusShown` that the keyboard types into something that can be seen.

Neither is kept by every act. Each act keeps it under a condition on the desk before it, given here
act by act.

## Main results

* `oneFocus_always_iff` — focus and slot agree throughout a run
* `focusShown_always_iff` — the keyboard never types into a hidden window
-/

namespace Nullxes

namespace Frame

namespace Desk

variable {d : Desk} {a : DeskAct} {t : ToplevelSurface}

/-! ## One notion of focus -/

/-- The keyboard types into the window of the toplevel, in an unlocked session. -/
def Typing (d : Desk) (t : ToplevelSurface) : Prop :=
  d.lock = none ∧ t ∈ d.toplevels ∧ d.focus = some t.wlSurface

/-- The active workspace has recorded the window the keyboard types into. -/
def OneFocus (d : Desk) : Prop := ∀ t, d.Typing t → d.slot d.active = some (windowId ⟨t⟩)

/-- The active workspace has recorded whatever live toplevel is on the surface. -/
def Recorded (d : Desk) (surface : WlSurface) : Prop :=
  ∀ t ∈ d.toplevels, t.wlSurface = surface → d.slot d.active = some (windowId ⟨t⟩)

/-- What each act has to satisfy: what it does to one notion of focus must suit the other. -/
def KeepsOneFocus (d : Desk) : DeskAct → Prop
  | .create t _ => ∀ t', d.Typing t' → windowId ⟨t'⟩ = windowId ⟨t⟩
  | .destroy t => ∀ t', d.Typing t' → t' ≠ t → windowId ⟨t'⟩ ≠ windowId ⟨t⟩
  | .switch idx => idx < d.count → ∀ t, d.Typing t → d.slot idx = some (windowId ⟨t⟩)
  | .move target => ∀ t, d.Typing t → d.planned target = none
  | .press (some w) => d.hasKeyboard → d.Recorded w.toplevelSurface.wlSurface
  | .unlock => d.hasKeyboard → ∀ w, (d.space d.active).top = some w →
      d.Recorded w.toplevelSurface.wlSurface
  | _ => True

theorem oneFocus_destroy_iff (hd : d.Wf) (h : d.OneFocus) (ht : t ∈ d.toplevels) :
    (d.apply (.destroy t)).OneFocus ↔
      ∀ t', d.Typing t' → t' ≠ t → windowId ⟨t'⟩ ≠ windowId ⟨t⟩ := by
  have htyping : ∀ t', (d.apply (.destroy t)).Typing t' ↔ d.Typing t' ∧ t' ≠ t := by
    intro t'
    simp only [Typing, lock_apply, toplevels_apply, focus_apply, List.mem_filter,
      decide_eq_true_eq]
    tauto
  have hslot : (d.apply (.destroy t)).slot d.active =
      if d.slot d.active = some (windowId ⟨t⟩) then none else d.slot d.active := by
    rw [slot_apply]
    simp [clears_iff hd ht]
  simp only [OneFocus, htyping, and_imp]
  refine forall₂_congr fun t' ht' => forall_congr' fun _ => ?_
  have hact : (d.apply (.destroy t)).active = d.active := rfl
  rw [hact, hslot, h t' ht']
  by_cases hid : windowId ⟨t'⟩ = windowId ⟨t⟩ <;> simp [hid]

theorem oneFocus_move_iff (h : d.OneFocus) {target : ℕ} :
    (d.apply (.move target)).OneFocus ↔ ∀ t, d.Typing t → d.planned target = none := by
  refine forall₂_congr fun t ht => ?_
  rw [slot_apply]
  have hact : (d.apply (.move target)).active = d.active := rfl
  rw [hact]
  rcases hp : d.planned target with _ | id
  · simpa [hp] using h t ht
  · have hne := (d.planned_eq_some_iff.mp hp).2.1
    simp [hp, Ne.symm hne]

/-- Setting the focus keeps the two together if the slot has recorded the new focus. -/
theorem oneFocus_setFocus_iff {d' : Desk} {f : WlSurface} (hfocus : d'.focus = some f)
    (hlock : d'.lock = none) : d'.OneFocus ↔ d'.Recorded f := by
  simp only [OneFocus, Typing, hfocus, hlock, Recorded, Option.some.injEq, true_and, and_imp]
  exact forall₂_congr fun t _ => imp_congr_left eq_comm

theorem oneFocus_of_no_focus {d' : Desk} (hfocus : d'.focus = none) : d'.OneFocus := by
  rintro t ⟨-, -, hf⟩
  rw [hfocus] at hf
  cases hf

theorem oneFocus_create_iff {loc : Point ℤ} :
    (d.apply (.create t loc)).OneFocus ↔ ∀ t', d.Typing t' → windowId ⟨t'⟩ = windowId ⟨t⟩ := by
  have hslot : (d.apply (.create t loc)).slot d.active = some (windowId ⟨t⟩) := by
    simp [slot_apply]
  constructor
  · rintro h' t' ⟨hlock, ht', hfocus⟩
    have hnew := h' t' ⟨hlock, List.mem_cons_of_mem t ht', hfocus⟩
    exact Option.some.inj (hnew.symm.trans hslot)
  · rintro hc t' ⟨hlock, ht', hfocus⟩
    refine hslot.trans (congrArg some ?_)
    rcases List.mem_cons.mp ht' with rfl | ht'
    · rfl
    · exact (hc t' ⟨hlock, ht', hfocus⟩).symm

/-- There is no such workspace to switch to. -/
theorem apply_switch_of_not_lt {idx : ℕ} (h : ¬ idx < d.count) : d.apply (.switch idx) = d := by
  simp [apply, h]

theorem oneFocus_switch_iff (h : d.OneFocus) {idx : ℕ} :
    (d.apply (.switch idx)).OneFocus ↔
      (idx < d.count → ∀ t, d.Typing t → d.slot idx = some (windowId ⟨t⟩)) := by
  by_cases hlt : idx < d.count
  · have hact : (d.apply (.switch idx)).active = idx := by simp [active_apply, hlt]
    rw [OneFocus, hact]
    exact ⟨fun h' _ => h', fun hc => hc hlt⟩
  · rw [apply_switch_of_not_lt hlt]
    exact iff_of_true h fun h' => absurd h' hlt

theorem oneFocus_press_iff (hd : d.Wf) {hit : Option Window} (hlock : d.lock = none) :
    (d.apply (.press hit)).OneFocus ↔ d.KeepsOneFocus (.press hit) := by
  have hfocus : (d.apply (.press hit)).focus =
      if d.hasKeyboard then hit.bind Window.wlSurface else d.focus := focus_apply
  cases hk : d.hasKeyboard with
  | false =>
    rw [hk, hd.keyboard_focus hk] at hfocus
    refine iff_of_true (oneFocus_of_no_focus hfocus) ?_
    rcases hit with _ | w
    · trivial
    · exact fun h => absurd h (by simp [hk])
  | true =>
    rw [hk] at hfocus
    rcases hit with _ | w
    · exact iff_of_true (oneFocus_of_no_focus hfocus) trivial
    · rw [oneFocus_setFocus_iff hfocus hlock, KeepsOneFocus, forall_prop_of_true hk]
      exact Iff.rfl

/-- Where there is no window to put the keyboard on, it stays where it was. -/
theorem oneFocus_of_focus_eq (hd : d.Wf) (h : d.OneFocus)
    (hfocus : (d.apply .unlock).focus = d.focus) : (d.apply .unlock).OneFocus := by
  rcases hlock : d.lock with _ | l
  · exact fun t ht => h t ⟨hlock, ht.2.1, hfocus ▸ ht.2.2⟩
  · exact oneFocus_of_no_focus (hfocus.trans (hd.locked_focus (by simp [hlock])))

theorem oneFocus_unlock_iff (hd : d.Wf) (h : d.OneFocus) :
    (d.apply .unlock).OneFocus ↔ d.KeepsOneFocus .unlock := by
  have hfocus : (d.apply .unlock).focus =
      if d.hasKeyboard then ((d.space d.active).top.bind Window.wlSurface).or d.focus
      else d.focus := focus_apply
  cases hk : d.hasKeyboard with
  | false =>
    rw [hk] at hfocus
    exact iff_of_true (oneFocus_of_focus_eq hd h hfocus) fun h => absurd h (by simp [hk])
  | true =>
    rw [hk] at hfocus
    rw [KeepsOneFocus, forall_prop_of_true hk]
    rcases htop : (d.space d.active).top with _ | w
    · rw [htop] at hfocus
      exact iff_of_true (oneFocus_of_focus_eq hd h hfocus) (by simp)
    · rw [htop] at hfocus
      rw [oneFocus_setFocus_iff hfocus rfl]
      simp only [Option.some.injEq, forall_eq']
      exact Iff.rfl

/-- **Which acts keep focus and slot together.** -/
theorem oneFocus_apply_iff (hd : d.Wf) (h : d.OneFocus) (hp : d.Possible a) :
    (d.apply a).OneFocus ↔ d.KeepsOneFocus a := by
  cases a with
  | create t loc => exact oneFocus_create_iff
  | destroy t => exact oneFocus_destroy_iff hd h hp
  | «switch» idx => exact oneFocus_switch_iff h
  | move target => exact oneFocus_move_iff h
  | press hit => exact oneFocus_press_iff hd hp.1
  | unlock => exact oneFocus_unlock_iff hd h
  | lock locker =>
    refine iff_of_true ?_ trivial
    rintro t ⟨hlock, -⟩
    simp [lock_apply] at hlock
  | lockSurface surface =>
    refine iff_of_true (fun t ht => h t ⟨?_, ht.2⟩) trivial
    simpa [lock_apply] using ht.1
  | vanish surface =>
    refine iff_of_true (fun t ht => h t ⟨ht.1, ht.2.1, ?_⟩) trivial
    have hfocus := ht.2.2
    rw [focus_apply] at hfocus
    simp only at hfocus
    split_ifs at hfocus
    exact hfocus
  | _ => exact iff_of_true h trivial

/-! ## Nothing hidden has the keyboard -/

/-- A window mapped on workspace `i` is on the surface. -/
def Shows (d : Desk) (i : ℕ) (f : WlSurface) : Prop :=
  ∃ w ∈ d.space i, w.toplevelSurface.wlSurface = f

/-- The keyboard types into nothing, into a lock surface, or into a window of the active
workspace. -/
def FocusShown (d : Desk) : Prop :=
  ∀ f, d.focus = some f →
    (∃ l, d.lock = some l ∧ (⟨f⟩ : LockSurface) ∈ l.surfaces) ∨ d.Shows d.active f

/-- What each act has to satisfy: what is taken away from the active workspace, or the workspace
that is left, must not be what the keyboard types into. -/
def KeepsFocusShown (d : Desk) : DeskAct → Prop
  | .destroy t => d.focus = some t.wlSurface → ∃ w ∈ d.space d.active,
      w.toplevelSurface.wlSurface = t.wlSurface ∧ d.firstOn t.wlSurface ≠ some (d.active, w)
  | .switch idx => idx < d.count → ∀ f, d.focus = some f → d.Shows idx f
  | .move target => ∀ id w, d.planned target = some id → d.Lowest d.active id w →
      ∀ f, d.focus = some f → ∃ v ∈ d.space d.active, v ≠ w ∧ v.toplevelSurface.wlSurface = f
  | _ => True

/-- A lock surface never has the keyboard, since nothing does while the session is locked. -/
theorem focusShown_iff (hd : d.Wf) :
    d.FocusShown ↔ ∀ f, d.focus = some f → d.Shows d.active f := by
  refine forall₂_congr fun f hf => or_iff_right ?_
  rintro ⟨l, hl, -⟩
  rw [hd.locked_focus (by simp [hl])] at hf
  cases hf

theorem focusShown_destroy_iff (h : ∀ f, d.focus = some f → d.Shows d.active f) :
    (∀ f, (d.apply (.destroy t)).focus = some f → (d.apply (.destroy t)).Shows d.active f) ↔
      d.KeepsFocusShown (.destroy t) := by
  constructor
  · intro h' hfocus
    obtain ⟨w, hw, hsurf⟩ := h' t.wlSurface hfocus
    obtain ⟨hw, hne⟩ := mem_apply.mp hw
    exact ⟨w, hw, hsurf, hne⟩
  · intro hc f hf
    have hf' : d.focus = some f := hf
    by_cases heq : f = t.wlSurface
    · subst heq
      obtain ⟨w, hw, hsurf, hne⟩ := hc hf'
      exact ⟨w, mem_apply.mpr ⟨hw, hne⟩, hsurf⟩
    · obtain ⟨w, hw, hsurf⟩ := h f hf'
      refine ⟨w, mem_apply.mpr ⟨hw, fun hfirst => heq ?_⟩, hsurf⟩
      rw [← hsurf, (d.mem_of_firstOn hfirst).2]

theorem focusShown_move_iff (h : ∀ f, d.focus = some f → d.Shows d.active f) {target : ℕ} :
    (∀ f, (d.apply (.move target)).focus = some f → (d.apply (.move target)).Shows d.active f) ↔
      d.KeepsFocusShown (.move target) := by
  rcases hc : d.carriedWindow target with _ | w
  · refine iff_of_true (fun f hf => ?_) fun id w hp hlow => ?_
    · obtain ⟨v, hv, hsurf⟩ := h f hf
      exact ⟨v, mem_apply.mpr (.inr ⟨hv, by simp [hc]⟩), hsurf⟩
    · rw [← d.carriedWindow_of_planned hp, hc] at hlow
      cases hlow
  · have hne := d.ne_active_of_carriedWindow hc
    have hmem : ∀ v, v ∈ (d.apply (.move target)).space d.active ↔
        v ∈ d.space d.active ∧ v ≠ w := by
      intro v
      rw [mem_apply]
      simp [hc, Ne.symm hne, eq_comm]
    obtain ⟨id, hp, hl⟩ := d.carriedWindow_eq_some_iff.mp hc
    constructor
    · intro h' id' w' hp' hlow f hf
      rw [← d.carriedWindow_of_planned hp', hc] at hlow
      cases hlow
      obtain ⟨v, hv, hsurf⟩ := h' f hf
      exact ⟨v, ((hmem v).mp hv).1, ((hmem v).mp hv).2, hsurf⟩
    · intro hk f hf
      obtain ⟨v, hv, hvw, hsurf⟩ := hk id w hp (d.lookup_eq_some_iff.mp hl) f hf
      exact ⟨v, (hmem v).mpr ⟨hv, hvw⟩, hsurf⟩

theorem focusShown_switch_iff (h : ∀ f, d.focus = some f → d.Shows d.active f) {idx : ℕ} :
    (∀ f, (d.apply (.switch idx)).focus = some f →
        (d.apply (.switch idx)).Shows (d.apply (.switch idx)).active f) ↔
      d.KeepsFocusShown (.switch idx) := by
  by_cases hlt : idx < d.count
  · have hact : (d.apply (.switch idx)).active = idx := by simp [active_apply, hlt]
    rw [hact]
    exact ⟨fun h' _ => h', fun hc => hc hlt⟩
  · rw [apply_switch_of_not_lt hlt]
    exact iff_of_true h fun h' => absurd h' hlt

/-- The focus stays shown if the workspace keeps its windows and only they, or nothing new, get the
keyboard. -/
theorem focusShown_of_grow (h : ∀ f, d.focus = some f → d.Shows d.active f) {d' : Desk}
    (hact : d'.active = d.active) (hmem : ∀ w ∈ d.space d.active, w ∈ d'.space d.active)
    (hfocus : ∀ f, d'.focus = some f → d.focus = some f ∨ d.Shows d.active f) :
    ∀ f, d'.focus = some f → d'.Shows d'.active f := by
  intro f hf
  obtain ⟨w, hw, hsurf⟩ : d.Shows d.active f := (hfocus f hf).elim (h f) id
  rw [hact]
  exact ⟨w, hmem w hw, hsurf⟩

/-- **Which acts keep the keyboard on something that can be seen.** -/
theorem focusShown_apply_iff (hd : d.Wf) (h : d.FocusShown) (hp : d.Possible a) :
    (d.apply a).FocusShown ↔ d.KeepsFocusShown a := by
  rw [focusShown_iff hd] at h
  rw [focusShown_iff (hd.apply hp)]
  cases a with
  | create t loc =>
    refine iff_of_true (focusShown_of_grow h rfl ?_ fun f => .inl) trivial
    exact fun w hw => mem_apply.mpr (.inl hw)
  | drag w loc =>
    refine iff_of_true (focusShown_of_grow h rfl ?_ fun f => .inl) trivial
    exact fun w hw => mem_apply.mpr (.inl hw)
  | destroy t => exact focusShown_destroy_iff h
  | move target => exact focusShown_move_iff h
  | «switch» idx => exact focusShown_switch_iff h
  | press hit =>
    refine iff_of_true (focusShown_of_grow h rfl (fun w hw => mem_apply.mpr hw) fun f hf => ?_) ?_
    · rw [focus_apply] at hf
      simp only at hf
      split_ifs at hf
      · obtain ⟨w, hhit, hsurf⟩ := Option.bind_eq_some_iff.mp hf
        exact .inr ⟨w, hp.2 w hhit, by simpa using hsurf⟩
      · exact .inl hf
    · rcases hit with _ | w <;> trivial
  | lock locker =>
    refine iff_of_true
      (focusShown_of_grow h rfl (fun w hw => mem_apply.mpr hw) fun f hf => ?_) trivial
    rw [focus_apply] at hf
    simp only at hf
    split_ifs at hf <;> exact .inl hf
  | unlock =>
    refine iff_of_true
      (focusShown_of_grow h rfl (fun w hw => mem_apply.mpr hw) fun f hf => ?_) trivial
    rw [focus_apply] at hf
    simp only at hf
    split_ifs at hf
    · rcases htop : (d.space d.active).top with _ | w
      · exact .inl (by simpa [htop] using hf)
      · exact .inr ⟨w, ZStack.mem_of_top htop, by simpa [htop] using hf⟩
    · exact .inl hf
  | vanish surface =>
    refine iff_of_true
      (focusShown_of_grow h rfl (fun w hw => mem_apply.mpr hw) fun f hf => ?_) trivial
    rw [focus_apply] at hf
    simp only at hf
    split_ifs at hf
    exact .inl hf
  | _ =>
    exact iff_of_true
      (focusShown_of_grow h rfl (fun w hw => mem_apply.mpr hw) fun f => .inl) trivial

end Desk

/-! ## Runs -/

/-- One client opens two windows, and the first one is clicked. -/
def clickFirst : List Event :=
  [.createSurface 0 12, .newToplevel ⟨0, 12, 0⟩, .commit ⟨0, 12, 0⟩ (.grasping ⟨0, 12, 0⟩),
    .createSurface 0 13, .newToplevel ⟨0, 13, 1⟩,
    .input (.pointerMotionAbsolute (1 / 2, 1 / 2)), .input (.pointerButton 272 true)]

/-- A window is opened and clicked, and another workspace becomes active. -/
def clickThenSwitch : List Event :=
  [.createSurface 0 12, .newToplevel ⟨0, 12, 0⟩, .commit ⟨0, 12, 0⟩ (.grasping ⟨0, 12, 0⟩),
    .input (.pointerMotionAbsolute (1 / 2, 1 / 2)), .input (.pointerButton 272 true),
    .ipc (.switchWorkspace 1) {}]

section

variable {w : World} {es : List Event}

/-- **One notion of focus.** In every unlocked state of a run the active workspace has recorded the
window that has the keyboard, if and only if every event of the run keeps the two together. -/
theorem oneFocus_always_iff (h0 : frame.Init w) (hl : frame.Legal w es) :
    frame.Always (fun w => w.desk.OneFocus) w es ↔
      frame.EachStep (fun w e => w.desk.KeepsOneFocus (w.deskAct e)) w es :=
  World.always_iff_eachStep (fun _ _ => Desk.oneFocus_of_no_focus rfl)
    (fun _ _ hd h hp => Desk.oneFocus_apply_iff hd h hp) h0 hl

theorem oneFocus_always_iff_clickFirst :
    frame.Always (fun w => w.desk.OneFocus) World.desktop clickFirst ↔
      frame.EachStep (fun w e => w.desk.KeepsOneFocus (w.deskAct e)) World.desktop clickFirst :=
  oneFocus_always_iff init_desktop (by decide +kernel)

/-- The first window has the keyboard, and the slot still holds the second one's id. -/
theorem clickFirst_two_notions :
    frame.Init World.desktop ∧ frame.Legal World.desktop clickFirst ∧
      ¬ frame.Always (fun w => w.desk.OneFocus) World.desktop clickFirst := by
  refine ⟨init_desktop, by decide +kernel, fun h => ?_⟩
  have htyping : (frame.run World.desktop clickFirst).desk.Typing firstToplevel :=
    ⟨by decide +kernel, by decide +kernel, by decide +kernel⟩
  have hslot : (frame.run World.desktop clickFirst).desk.slot
      (frame.run World.desktop clickFirst).desk.active ≠ some (windowId ⟨firstToplevel⟩) := by
    decide +kernel
  exact hslot (h.last firstToplevel htyping)

/-- **Keystrokes never reach a hidden window.** In every state of a run the keyboard types into
nothing, a lock surface or a window of the active workspace, if and only if no event of the run
hides the window in use. -/
theorem focusShown_always_iff (h0 : frame.Init w) (hl : frame.Legal w es) :
    frame.Always (fun w => w.desk.FocusShown) w es ↔
      frame.EachStep (fun w e => w.desk.KeepsFocusShown (w.deskAct e)) w es :=
  World.always_iff_eachStep (fun _ _ f h => by cases h)
    (fun _ _ hd h hp => Desk.focusShown_apply_iff hd h hp) h0 hl

theorem focusShown_always_iff_clickThenSwitch :
    frame.Always (fun w => w.desk.FocusShown) World.desktop clickThenSwitch ↔
      frame.EachStep (fun w e => w.desk.KeepsFocusShown (w.deskAct e)) World.desktop
        clickThenSwitch :=
  focusShown_always_iff init_desktop (by decide +kernel)

/-- After the switch the keyboard still types into the window that was left. -/
theorem clickThenSwitch_hidden :
    frame.Init World.desktop ∧ frame.Legal World.desktop clickThenSwitch ∧
      ¬ frame.Always (fun w => w.desk.FocusShown) World.desktop clickThenSwitch := by
  refine ⟨init_desktop, by decide +kernel, fun h => ?_⟩
  have hfocus : (frame.run World.desktop clickThenSwitch).desk.focus = some ⟨0, 12, 0⟩ := by
    decide +kernel
  have hlock : (frame.run World.desktop clickThenSwitch).desk.lock = none := by decide +kernel
  have hempty : ((frame.run World.desktop clickThenSwitch).desk.space
      (frame.run World.desktop clickThenSwitch).desk.active).elements = [] := by decide +kernel
  rcases h.last _ hfocus with ⟨l, hl, -⟩ | ⟨v, hv, -⟩
  · rw [hlock] at hl
    cases hl
  · rw [ZStack.mem_def, hempty] at hv
    cases hv

end

end Frame

end Nullxes
