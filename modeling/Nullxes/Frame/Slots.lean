import Nullxes.Frame.Membership

/-!
# Focus slots

Each workspace has a slot for the id of its focused window. A slot is any good only if a live window
with that id is mapped on the workspace (`Desk.NoDangling`).

`toplevel_destroyed` clears the active workspace's slot and no other, so a window that dies on an
inactive workspace leaves its id behind. That is the one way to break the property while the spaces
hold live windows only; where a dead window is still mapped, a move can also pick it up.

## Main results

* `noDangling_always_iff` — which destructions and moves leave a slot dangling
-/

namespace Nullxes

namespace Frame

namespace Desk

variable {d : Desk} {a : DeskAct}

/-- A workspace that has recorded an id has a live window with that id. -/
def NoDangling (d : Desk) : Prop :=
  ∀ i id, d.slot i = some id → ∃ t ∈ d.toplevels, (⟨t⟩ : Window) ∈ d.space i ∧ windowId ⟨t⟩ = id

/-- A destroyed window's id is recorded on the active workspace only, unless another live window
there has it, and a move takes a live window along, unless the target has one with the id. -/
def KeepsSlots (d : Desk) (a : DeskAct) : Prop :=
  (∀ t, a = .destroy t → ∀ i, i ≠ d.active → d.slot i = some (windowId ⟨t⟩) →
    ∃ t' ∈ d.toplevels, t' ≠ t ∧ (⟨t'⟩ : Window) ∈ d.space i ∧ windowId ⟨t'⟩ = windowId ⟨t⟩) ∧
  ∀ target, a = .move target → ∀ id, d.planned target = some id →
    ∃ t ∈ d.toplevels, windowId ⟨t⟩ = id ∧
      (d.Lowest d.active id ⟨t⟩ ∨ (⟨t⟩ : Window) ∈ d.space target)

/-- A destruction clears the active slot exactly when it holds the destroyed toplevel's id. -/
theorem clears_iff (hd : d.Wf) {t : ToplevelSurface} (ht : t ∈ d.toplevels) :
    d.clears t.wlSurface = true ↔ d.slot d.active = some (windowId ⟨t⟩) := by
  obtain ⟨i, w, hfirst⟩ := hd.exists_firstOn ht
  have hid : windowId w = windowId ⟨t⟩ := windowId_inj.mpr (by rw [(d.mem_of_firstOn hfirst).2])
  rw [d.clears_of_firstOn hfirst, hid]

/-- Other live windows stay where they are when a toplevel is destroyed. -/
theorem mem_destroy_of_ne (hd : d.Wf) {t t' : ToplevelSurface} (ht : t ∈ d.toplevels)
    (ht' : t' ∈ d.toplevels) (hne : t' ≠ t) {i : ℕ} :
    (⟨t'⟩ : Window) ∈ (d.apply (.destroy t)).space i ↔ (⟨t'⟩ : Window) ∈ d.space i := by
  refine mem_apply.trans (and_iff_left fun hfirst => hne ?_)
  have heq := hd.firstOn_live ht hfirst ht'
  cases heq
  rfl

theorem noDangling_destroy_iff (hd : d.Wf) (h : d.NoDangling) {t : ToplevelSurface}
    (ht : t ∈ d.toplevels) :
    (d.apply (.destroy t)).NoDangling ↔ ∀ i, i ≠ d.active → d.slot i = some (windowId ⟨t⟩) →
      ∃ t' ∈ d.toplevels, t' ≠ t ∧ (⟨t'⟩ : Window) ∈ d.space i ∧ windowId ⟨t'⟩ = windowId ⟨t⟩ := by
  constructor
  · intro h' i hi hslot
    have hslot' : (d.apply (.destroy t)).slot i = some (windowId ⟨t⟩) := by
      simp [slot_apply, hi, hslot]
    obtain ⟨t', ht', hmem, hid⟩ := h' i _ hslot'
    obtain ⟨ht', hne⟩ := List.mem_filter.mp ht'
    have hne : t' ≠ t := by simpa using hne
    exact ⟨t', ht', hne, (mem_destroy_of_ne hd ht ht' hne).mp hmem, hid⟩
  · intro hc i id hslot
    rw [slot_apply] at hslot
    simp only at hslot
    split_ifs at hslot with hclear
    rw [clears_iff hd ht] at hclear
    obtain ⟨t', ht', hne, hmem, hid⟩ : ∃ t' ∈ d.toplevels, t' ≠ t ∧ (⟨t'⟩ : Window) ∈ d.space i ∧
        windowId ⟨t'⟩ = id := by
      by_cases hid : id = windowId ⟨t⟩
      · subst hid
        refine hc i (fun hi => hclear ⟨?_, hi⟩) hslot
        rw [← hi]
        exact hslot
      · obtain ⟨t', ht', hmem, hid'⟩ := h i id hslot
        refine ⟨t', ht', ?_, hmem, hid'⟩
        rintro rfl
        exact hid hid'.symm
    refine ⟨t', List.mem_filter.mpr ⟨ht', by simpa using hne⟩, ?_, hid⟩
    exact (mem_destroy_of_ne hd ht ht' hne).mpr hmem

theorem noDangling_move_iff (h : d.NoDangling) {target : ℕ} :
    (d.apply (.move target)).NoDangling ↔ ∀ id, d.planned target = some id →
      ∃ t ∈ d.toplevels, windowId ⟨t⟩ = id ∧
        (d.Lowest d.active id ⟨t⟩ ∨ (⟨t⟩ : Window) ∈ d.space target) := by
  constructor
  · intro h' id hp
    obtain ⟨-, -, hslot⟩ := d.planned_eq_some_iff.mp hp
    obtain ⟨t, ht, hmem, hid⟩ := h' target id (by simp [slot_apply, hp, hslot])
    refine ⟨t, ht, hid, ?_⟩
    rcases mem_apply.mp hmem with ⟨-, hc⟩ | ⟨hmem, -⟩
    · exact .inl ((d.carriedWindow_of_planned hp).mp hc)
    · exact .inr hmem
  · intro hc i id hslot
    have hstay : i ≠ d.active ∨ d.planned target = none → d.slot i = some id →
        ∃ t ∈ d.toplevels, (⟨t⟩ : Window) ∈ (d.apply (.move target)).space i ∧
          windowId ⟨t⟩ = id := by
      intro hi hold
      obtain ⟨t, ht, hmem, hid⟩ := h i id hold
      refine ⟨t, ht, mem_apply.mpr (.inr ⟨hmem, ?_⟩), hid⟩
      rintro ⟨hact, hcarried⟩
      obtain ⟨id', hp, -⟩ := d.carriedWindow_eq_some_iff.mp hcarried
      rcases hi with hi | hi
      · exact hi hact
      · rw [hi] at hp
        cases hp
    rw [slot_apply] at hslot
    rcases hp : d.planned target with _ | id'
    · exact hstay (.inr hp) (by simpa [hp] using hslot)
    · obtain ⟨-, -, hact⟩ := d.planned_eq_some_iff.mp hp
      simp only [hp, Option.isSome_some, if_true] at hslot
      split_ifs at hslot with htarget hactive
      · rw [hact] at hslot
        cases hslot
        obtain ⟨t, ht, hid, hfrom⟩ := hc id hp
        refine ⟨t, ht, mem_apply.mpr ?_, hid⟩
        rcases hfrom with hlow | hmem
        · exact .inl ⟨htarget, (d.carriedWindow_of_planned hp).mpr hlow⟩
        · obtain ⟨-, hne, -⟩ := d.planned_eq_some_iff.mp hp
          exact .inr ⟨htarget ▸ hmem, fun h => hne (htarget ▸ h.1)⟩
      · exact hstay (.inl hactive) hslot

/-- **Only destructions and moves can leave a slot dangling.** -/
theorem noDangling_apply_iff (hd : d.Wf) (h : d.NoDangling) (hp : d.Possible a) :
    (d.apply a).NoDangling ↔ d.KeepsSlots a := by
  have hgrow : (∀ i id, (d.apply a).slot i = some id → d.slot i = some id ∨
      ∃ t ∈ (d.apply a).toplevels, (⟨t⟩ : Window) ∈ (d.apply a).space i ∧ windowId ⟨t⟩ = id) →
      (∀ t ∈ d.toplevels, t ∈ (d.apply a).toplevels) →
      (∀ i, ∀ w ∈ d.space i, w ∈ (d.apply a).space i) → (d.apply a).NoDangling := by
    intro hslot htop hmem i id hi
    rcases hslot i id hi with hold | hnew
    · obtain ⟨t, ht, hm, hid⟩ := h i id hold
      exact ⟨t, htop t ht, hmem i _ hm, hid⟩
    · exact hnew
  cases a with
  | destroy t => simpa [KeepsSlots] using noDangling_destroy_iff hd h hp
  | move target =>
    rw [noDangling_move_iff h]
    simp [KeepsSlots]
  | create t loc =>
    refine iff_of_true (hgrow ?_ (fun t' => List.mem_cons_of_mem t) ?_) (by simp [KeepsSlots])
    · intro i id hi
      rw [slot_apply] at hi
      simp only at hi
      split_ifs at hi with hact
      · exact .inr ⟨t, List.mem_cons_self, mem_apply.mpr (.inr ⟨hact, rfl⟩), Option.some.inj hi⟩
      · exact .inl hi
    · exact fun i w hw => mem_apply.mpr (.inl hw)
  | drag w loc =>
    refine iff_of_true (hgrow (fun i id => .inl) (fun t => id) ?_) (by simp [KeepsSlots])
    exact fun i v hv => mem_apply.mpr (.inl hv)
  | _ =>
    refine iff_of_true (hgrow (fun i id => .inl) (fun t => id) ?_) (by simp [KeepsSlots])
    exact fun i v hv => mem_apply.mpr hv

end Desk

/-! ## Runs -/

/-- A window is opened, another workspace becomes active, and the window is destroyed there. -/
def dieElsewhere : List Event :=
  [.createSurface 0 12, .newToplevel ⟨0, 12, 0⟩, .ipc (.switchWorkspace 1) {},
    .toplevelDestroyed firstToplevel]

/-- **No dangling slots.** In every state of a run each recorded id is the id of a live window
mapped on its workspace, if and only if every destruction and every move of the run keeps it so. -/
theorem noDangling_always_iff {w : World} {es : List Event} (h0 : frame.Init w)
    (hl : frame.Legal w es) :
    frame.Always (fun w => w.desk.NoDangling) w es ↔
      frame.EachStep (fun w e => w.desk.KeepsSlots (w.deskAct e)) w es :=
  World.always_iff_eachStep (fun _ _ i id h => by cases h)
    (fun _ _ hd h hp => Desk.noDangling_apply_iff hd h hp) h0 hl

theorem noDangling_always_iff_dieElsewhere :
    frame.Always (fun w => w.desk.NoDangling) World.desktop dieElsewhere ↔
      frame.EachStep (fun w e => w.desk.KeepsSlots (w.deskAct e)) World.desktop dieElsewhere :=
  noDangling_always_iff init_desktop (by decide +kernel)

/-- The slot of the workspace the window died on keeps its id. -/
theorem dieElsewhere_dangling :
    frame.Init World.desktop ∧ frame.Legal World.desktop dieElsewhere ∧
      ¬ frame.Always (fun w => w.desk.NoDangling) World.desktop dieElsewhere := by
  refine ⟨init_desktop, by decide +kernel, fun h => ?_⟩
  have hslot : (frame.run World.desktop dieElsewhere).desk.slot 0 =
      some (windowId ⟨firstToplevel⟩) := by decide +kernel
  have hnone : (frame.run World.desktop dieElsewhere).desk.toplevels = [] := by decide +kernel
  obtain ⟨t, ht, -⟩ := h.last 0 _ hslot
  rw [hnone] at ht
  cases ht

end Frame

end Nullxes
