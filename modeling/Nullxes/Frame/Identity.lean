import Nullxes.Frame.Slots

/-!
# Window identity

FRAME knows a window by `window_id`, the protocol id of its surface. Protocol ids are unique among
the live objects of one client and nowhere else, so two clients can have windows with one id, and a
client can use an id again. Three look-ups search a space for an id; the first window from the
bottom that has it is the one closed or moved.

`Desk.IdsDistinct` is the uniqueness FRAME relies on, and `Desk.FindsOwner` what it is needed for:
whatever the look-up of a recorded id finds is the window it was recorded for.

## Main results

* `identity_always_iff` — which events keep both
* `World.actsOnOwner_of_findsOwner` — what the two users of the look-up then do
-/

namespace Nullxes

namespace Frame

open Function (update update_self)

namespace Desk

variable {d : Desk} {a : DeskAct} {t : ToplevelSurface} {i : ℕ}

/-- The look-up's test. -/
def hasId (id : WindowId) (w : Window) : Bool := windowId w = id

@[simp] theorem hasId_iff {id : WindowId} {w : Window} : hasId id w = true ↔ windowId w = id := by
  simp [hasId]

/-- Distinct live toplevels have distinct ids. -/
def IdsDistinct (d : Desk) : Prop :=
  ∀ t ∈ d.toplevels, ∀ t' ∈ d.toplevels, windowId ⟨t⟩ = windowId ⟨t'⟩ → t = t'

/-- The look-up of the id workspace `i` has recorded finds the window it was recorded for, if it
finds any. -/
def FindsOwnerAt (d : Desk) (i : ℕ) : Prop :=
  ∀ id, d.slot i = some id → (d.space i).FindsOnly (hasId id) (d.owner i)

def FindsOwner (d : Desk) : Prop := ∀ i, d.FindsOwnerAt i

/-! ### Conditions -/

/-- A new toplevel's id is the id of no other client's live toplevel and of no window on the active
workspace. -/
def FreshId (d : Desk) (t : ToplevelSurface) : Prop :=
  (∀ t' ∈ d.toplevels, t'.wlSurface.client ≠ t.wlSurface.client →
    windowId ⟨t'⟩ ≠ windowId ⟨t⟩) ∧
  ∀ w ∈ d.space d.active, windowId w ≠ windowId ⟨t⟩

/-- When a destruction unmaps the window an inactive workspace has recorded, no other window there
has its id. -/
def LeavesNoTwin (d : Desk) (t : ToplevelSurface) : Prop :=
  ∀ i w, d.firstOn t.wlSurface = some (i, w) → i ≠ d.active → d.owner i = some w →
    ∀ v ∈ d.space i, windowId v = windowId w → v = w

/-- On the workspace the record moves to, nothing but the recorded window has its id. -/
def MeetsNoTwin (d : Desk) (target : ℕ) (id : WindowId) : Prop :=
  (∀ w, d.Lowest d.active id w → ∀ v ∈ d.space target, windowId v = id → v = w) ∧
  ((∀ w ∈ d.space d.active, windowId w ≠ id) → ∀ v, d.Lowest target id v → d.owner d.active = some v)

/-- Putting `w` on top of the active workspace does not change what its recorded id finds: either
`w` is the recorded window and has no twin there, or the id still finds another window. -/
def PassesNoTwin (d : Desk) (w : Window) : Prop :=
  d.slot d.active = some (windowId w) →
    (d.owner d.active = some w → ∀ v ∈ d.space d.active, windowId v = windowId w → v = w) ∧
    (d.owner d.active ≠ some w → ∃ v ∈ d.space d.active, windowId v = windowId w)

/-- What each act has to satisfy. -/
def SeparatesIds (d : Desk) : DeskAct → Prop
  | .create t _ => d.FreshId t
  | .destroy t => d.LeavesNoTwin t
  | .move target => ∀ id, d.planned target = some id → d.MeetsNoTwin target id
  | .drag w _ => d.PassesNoTwin w
  | .press (some w) => d.PassesNoTwin w
  | _ => True

/-! ### Distinct ids -/

theorem idsDistinct_of_subset {d' : Desk} (h : d.IdsDistinct)
    (hsub : ∀ t ∈ d'.toplevels, t ∈ d.toplevels) : d'.IdsDistinct :=
  fun t ht t' ht' hid => h t (hsub t ht) t' (hsub t' ht') hid

/-- A client's own ids differ anyway, so only other clients' matter. -/
theorem idsDistinct_create_iff (h : d.IdsDistinct) {loc : Point ℤ}
    (hp : d.Possible (.create t loc)) :
    (d.apply (.create t loc)).IdsDistinct ↔
      ∀ t' ∈ d.toplevels, t'.wlSurface.client ≠ t.wlSurface.client →
        windowId ⟨t'⟩ ≠ windowId ⟨t⟩ := by
  constructor
  · intro h' t' ht' hclient hid
    have heq := h' t' (List.mem_cons_of_mem t ht') t List.mem_cons_self hid
    exact hclient (by rw [heq])
  · intro hc
    have hne : ∀ t' ∈ d.toplevels, windowId ⟨t'⟩ ≠ windowId ⟨t⟩ := by
      intro t' ht'
      by_cases hclient : t'.wlSurface.client = t.wlSurface.client
      · exact fun hid => hp.2 t' ht' hclient (windowId_inj.mp hid)
      · exact hc t' ht' hclient
    intro t₁ h₁ t₂ h₂ hid
    rcases List.mem_cons.mp h₁ with rfl | h₁' <;> rcases List.mem_cons.mp h₂ with rfl | h₂'
    · rfl
    · exact absurd hid.symm (hne t₂ h₂')
    · exact absurd hid (hne t₁ h₁')
    · exact h t₁ h₁' t₂ h₂' hid

/-! ### Finding the recorded window -/

/-- If the other workspaces are all right, only workspace `k` matters. -/
theorem findsOwner_iff_at (k : ℕ) (h : ∀ i, i ≠ k → d.FindsOwnerAt i) :
    d.FindsOwner ↔ d.FindsOwnerAt k := by
  refine ⟨fun h' => h' k, fun hk i => ?_⟩
  by_cases hi : i = k
  · exact hi ▸ hk
  · exact h i hi

theorem findsOwnerAt_congr {d' : Desk} (hslot : d'.slot i = d.slot i)
    (hspace : d'.space i = d.space i) (howner : d'.owner i = d.owner i) :
    d'.FindsOwnerAt i ↔ d.FindsOwnerAt i := by
  rw [FindsOwnerAt, FindsOwnerAt, hslot, hspace, howner]

theorem findsOwner_create_iff (h : d.FindsOwner) (hnew : (⟨t⟩ : Window) ∉ d.space d.active)
    {loc : Point ℤ} :
    (d.apply (.create t loc)).FindsOwner ↔
      ∀ w ∈ d.space d.active, windowId w ≠ windowId ⟨t⟩ := by
  have hrest : ∀ i, i ≠ d.active → (d.apply (.create t loc)).FindsOwnerAt i := by
    intro i hi
    refine (findsOwnerAt_congr ?_ ?_ ?_).mpr (h i) <;> simp [apply, hi]
  have hspace : (d.apply (.create t loc)).space d.active = (d.space d.active).place ⟨t⟩ loc := by
    simp [apply]
  rw [findsOwner_iff_at d.active hrest, FindsOwnerAt, hspace]
  simp only [slot_apply, owner_apply, if_true, Option.some.injEq, forall_eq']
  rw [ZStack.findsOnly_place_self loc (by simp)]
  refine forall₂_congr fun w hw => ?_
  rw [hasId_iff]
  have hne : w ≠ ⟨t⟩ := fun heq => hnew (heq ▸ hw)
  simp [hne]

theorem slot_of_owner (hd : d.Wf) {w : Window} (h : d.owner i = some w) :
    d.slot i = some (windowId w) := by rw [hd.slot_eq, h, Option.map_some]

theorem findsOwner_destroy_iff (hd : d.Wf) (h : d.FindsOwner) (ht : t ∈ d.toplevels) :
    (d.apply (.destroy t)).FindsOwner ↔ d.LeavesNoTwin t := by
  obtain ⟨i₀, w₀, hfirst⟩ := hd.exists_firstOn ht
  have hclears := d.clears_of_firstOn hfirst
  have hspace : (d.apply (.destroy t)).space = update d.space i₀ ((d.space i₀).remove w₀) := by
    simp [apply, destroyToplevel, unmapped, hfirst]
  have hcleared : ∀ i, d.clears t.wlSurface = true → i = d.active →
      (d.apply (.destroy t)).FindsOwnerAt i := by
    intro i hc hi id hslot
    simp [slot_apply, hc, hi] at hslot
  have hrest : ∀ i, i ≠ i₀ → (d.apply (.destroy t)).FindsOwnerAt i := by
    intro i hi
    by_cases hc : d.clears t.wlSurface = true ∧ i = d.active
    · exact hcleared i hc.1 hc.2
    · refine (findsOwnerAt_congr ?_ ?_ ?_).mpr (h i)
      · simp [slot_apply, hc]
      · simp [hspace, hi]
      · simp [owner_apply, hc]
  have htwin : d.LeavesNoTwin t ↔ (i₀ ≠ d.active → d.owner i₀ = some w₀ →
      ∀ v ∈ d.space i₀, windowId v = windowId w₀ → v = w₀) := by
    simp [LeavesNoTwin, hfirst]
  rw [findsOwner_iff_at i₀ hrest, htwin]
  by_cases hc : d.clears t.wlSurface = true ∧ i₀ = d.active
  · exact iff_of_true (hcleared i₀ hc.1 hc.2) fun hne => absurd hc.2 hne
  · -- the slot stays, and the search goes on without the window that was unmapped
    have hat : (d.apply (.destroy t)).FindsOwnerAt i₀ ↔ (d.owner i₀ = some w₀ →
        ∀ v ∈ d.space i₀, windowId v = windowId w₀ → v = w₀) := by
      simp only [FindsOwnerAt, slot_apply, owner_apply, hc, if_false, hspace, update_self]
      constructor
      · intro h' howner v hv hid
        have hslot := slot_of_owner hd howner
        exact (ZStack.findsOnly_remove (h i₀ _ hslot)).mp (h' _ hslot) howner (by simp) v hv
          (by simpa using hid)
      · intro h' id hslot
        refine (ZStack.findsOnly_remove (h i₀ id hslot)).mpr fun howner _ v hv hid => ?_
        have hid' : id = windowId w₀ := Option.some.inj (hslot.symm.trans (slot_of_owner hd howner))
        exact h' howner v hv ((hasId_iff.mp hid).trans hid')
    rw [hat]
    refine ⟨fun h' _ => h', fun h' howner => ?_⟩
    refine h' (fun hact => hc ⟨hclears.mpr ?_, hact⟩) howner
    rw [← hact]
    exact slot_of_owner hd howner

/-- A move leaves every slot but the target's finding its window: the active one is cleared. -/
theorem findsOwnerAt_move (h : d.FindsOwner) {target : ℕ} {id : WindowId}
    (hp : d.planned target = some id) (hi : i ≠ target) :
    (d.apply (.move target)).FindsOwnerAt i := by
  have hne := (d.planned_eq_some_iff.mp hp).2.1
  by_cases hact : i = d.active
  · intro id' hslot'
    simp [slot_apply, hp, hact, Ne.symm hne] at hslot'
  · refine (findsOwnerAt_congr ?_ ?_ ?_).mpr (h i)
    · simp [slot_apply, hp, hi, hact]
    · show d.carried target i = d.space i
      rw [carried]
      rcases (d.planned target).bind (d.lookup d.active) with _ | w <;> simp [hi, hact]
    · simp [owner_apply, hp, hi, hact]

/-- Where the look-up finds nothing to carry, the record is tested against the target's own
windows. -/
theorem meetsNoTwin_of_lookup_none {target : ℕ} {id : WindowId}
    (hl : d.lookup d.active id = none) :
    d.MeetsNoTwin target id ↔
      ∀ v, d.lookup target id = some v → d.owner d.active = some v := by
  have hlow : ∀ w, ¬ d.Lowest d.active id w := by
    intro w hw
    rw [← lookup_eq_some_iff, hl] at hw
    cases hw
  rw [MeetsNoTwin]
  simp only [hlow, false_implies, implies_true, true_and]
  rw [← lookup_eq_none, hl]
  simp only [forall_const]
  exact forall_congr' fun v => imp_congr_left d.lookup_eq_some_iff.symm

/-- Where it finds `w`, `w` must have no twin on the target. -/
theorem meetsNoTwin_of_lookup {target : ℕ} {id : WindowId} {w : Window}
    (hl : d.lookup d.active id = some w) :
    d.MeetsNoTwin target id ↔ ∀ v ∈ d.space target, windowId v = id → v = w := by
  obtain ⟨hmem, hid⟩ := d.mem_of_lookup hl
  have hlow : ∀ v, d.Lowest d.active id v ↔ v = w := by
    intro v
    rw [← lookup_eq_some_iff, hl, Option.some.injEq, eq_comm]
  have hsome : ¬ ∀ v ∈ d.space d.active, windowId v ≠ id := fun hall => hall w hmem hid
  simp only [MeetsNoTwin, hlow, forall_eq, hsome, false_implies, and_true]

theorem findsOwner_move_iff (h : d.FindsOwner) {target : ℕ} :
    (d.apply (.move target)).FindsOwner ↔
      ∀ id, d.planned target = some id → d.MeetsNoTwin target id := by
  rcases hp : d.planned target with _ | id
  · refine iff_of_true (fun i => ?_) (by simp)
    refine (findsOwnerAt_congr ?_ ?_ ?_).mpr (h i)
    · simp [slot_apply, hp]
    · simp [apply, moveFocused, carried, hp]
    · simp [owner_apply, hp]
  have hslot := (d.planned_eq_some_iff.mp hp).2.2
  rw [findsOwner_iff_at target fun i hi => findsOwnerAt_move h hp hi]
  simp only [FindsOwnerAt, slot_apply, owner_apply, hp, Option.isSome_some, if_true, hslot,
    Option.some.injEq, forall_eq']
  rcases hl : d.lookup d.active id with _ | w
  · have hspace : (d.apply (.move target)).space target = d.space target := by
      simp [apply, moveFocused, carried, hp, hl]
    rw [hspace, meetsNoTwin_of_lookup_none hl]
    exact Iff.rfl
  · have howner : d.owner d.active = some w := h d.active id hslot w hl
    have hspace : (d.apply (.move target)).space target =
        (d.space target).place w (((d.space d.active).location w).getD (0, 0)) := by
      simp [apply, moveFocused, carried, hp, hl]
    have hid := (d.mem_of_lookup hl).2
    rw [hspace, howner, ZStack.findsOnly_place_self _ (by simpa using hid),
      meetsNoTwin_of_lookup hl]
    simp only [hasId_iff]

theorem findsOwner_restack_iff (h : d.FindsOwner) (d' : Desk) {sp : Space}
    (hspace : d'.space = update d.space d.active sp) (hslot : d'.slot = d.slot)
    (howner : d'.owner = d.owner) :
    d'.FindsOwner ↔ ∀ id, d.slot d.active = some id → sp.FindsOnly (hasId id) (d.owner d.active) := by
  have hrest : ∀ i, i ≠ d.active → d'.FindsOwnerAt i := by
    intro i hi
    exact (findsOwnerAt_congr (by rw [hslot]) (by simp [hspace, hi]) (by rw [howner])).mpr (h i)
  rw [findsOwner_iff_at d.active hrest, FindsOwnerAt, hslot, howner, hspace, update_self]

theorem findsOwner_drag_iff (h : d.FindsOwner) {w : Window} {loc : Point ℤ} :
    (d.apply (.drag w loc)).FindsOwner ↔ d.PassesNoTwin w := by
  rw [findsOwner_restack_iff h (d.apply (.drag w loc)) rfl rfl rfl]
  constructor
  · intro h' hslot
    simpa using (ZStack.findsOnly_place loc (h d.active _ hslot)).mp (h' _ hslot) (by simp)
  · intro hc id hslot
    refine (ZStack.findsOnly_place loc (h d.active id hslot)).mpr fun hid => ?_
    obtain rfl := hasId_iff.mp hid
    simpa using hc hslot

theorem findsOwner_press_iff (h : d.FindsOwner) {w : Window} (hw : w ∈ d.space d.active) :
    (d.apply (.press (some w))).FindsOwner ↔ d.PassesNoTwin w := by
  rw [findsOwner_restack_iff h (d.apply (.press (some w))) rfl rfl rfl]
  constructor
  · intro h' hslot
    refine ⟨fun howner => ?_, fun _ => ⟨w, hw, rfl⟩⟩
    simpa using (ZStack.findsOnly_raise (h d.active _ hslot) hw).mp (h' _ hslot) (by simp) howner
  · intro hc id hslot
    refine (ZStack.findsOnly_raise (h d.active id hslot) hw).mpr fun hid howner => ?_
    obtain rfl := hasId_iff.mp hid
    simpa using (hc hslot).1 howner

/-- **Which acts keep ids apart.** -/
theorem identity_apply_iff (hd : d.Wf) (h : d.IdsDistinct ∧ d.FindsOwner) (hp : d.Possible a) :
    ((d.apply a).IdsDistinct ∧ (d.apply a).FindsOwner) ↔ d.SeparatesIds a := by
  obtain ⟨hids, hfinds⟩ := h
  cases a with
  | create t loc =>
    have hnew : (⟨t⟩ : Window) ∉ d.space d.active := fun hmem =>
      (hd.known _ _ hmem).elim (fun hl => hp.2 t hl rfl rfl) hp.1
    rw [idsDistinct_create_iff hids hp, findsOwner_create_iff hfinds hnew]
    rfl
  | destroy t =>
    have hsub : (d.apply (.destroy t)).IdsDistinct :=
      idsDistinct_of_subset hids fun t' ht' => (List.mem_filter.mp ht').1
    exact (and_iff_right hsub).trans (findsOwner_destroy_iff hd hfinds hp)
  | move target =>
    have hsame : (d.apply (.move target)).IdsDistinct := hids
    exact (and_iff_right hsame).trans (findsOwner_move_iff hfinds)
  | drag w loc =>
    have hsame : (d.apply (.drag w loc)).IdsDistinct := hids
    exact (and_iff_right hsame).trans (findsOwner_drag_iff hfinds)
  | press hit =>
    rcases hit with _ | w
    · exact iff_of_true ⟨hids, hfinds⟩ trivial
    · have hsame : (d.apply (.press (some w))).IdsDistinct := hids
      exact (and_iff_right hsame).trans (findsOwner_press_iff hfinds (hp.2 w rfl))
  | _ => exact iff_of_true ⟨hids, hfinds⟩ trivial

end Desk

/-! ## The users of the look-up -/

namespace World

variable {w : World}

/-- Closing the focused window asks the window the active slot was set for, or nobody; and sending
it to another workspace moves that window, or none. -/
def ActsOnOwner (w : World) : Prop :=
  (w.state.closeFocusedWindow = w.state ∨
    ∃ v, w.owner w.state.workspaceMgr.active = some v ∧
      w.state.closeFocusedWindow = w.state.emit [.sendClose v.toplevelSurface]) ∧
  ∀ target v i, ¬ (v ∈ (w.state.moveFocused target).1.workspaces.space i ↔
    v ∈ w.state.workspaces.space i) → w.owner w.state.workspaceMgr.active = some v

theorem actsOnOwner_of_findsOwner (hw : w.Wf) (h : w.desk.FindsOwner) : w.ActsOnOwner := by
  constructor
  · rw [NullxesState.closeFocusedWindow]
    rcases hslot : w.state.workspaceMgr.focusedId with _ | id
    · exact .inl rfl
    · have hget := w.state.workspaces.get_eq_some hw.counts.active_lt
      have htest : (w.state.workspaces.space w.state.workspaceMgr.active).find (fun v =>
          decide ((v.wlSurface.map fun surf => surf.protocolId.toUInt64).getD 0 = id.raw)) =
            w.desk.lookup w.desk.active id := by
        rw [Desk.lookup]
        show ZStack.find _ _ = ZStack.find _ _
        congr 1
        funext v
        exact decide_eq_decide.mpr (by cases id; simp [windowId_eq])
      simp only [WorkspaceManager.activeIndex, hget, htest]
      rcases hl : w.desk.lookup w.desk.active id with _ | v
      · exact .inl rfl
      · exact .inr ⟨v, h w.desk.active id hslot v hl, rfl⟩
  · intro target v i hchange
    have hdesk := congrArg (fun d => v ∈ d.space i)
      (NullxesState.does_moveFocused hw.counts target w.destroyed w.owner)
    have hmem : v ∈ (w.state.moveFocused target).1.workspaces.space i ↔
        v ∈ (w.desk.apply (.move target)).space i := iff_of_eq hdesk
    rw [hmem, Desk.mem_apply] at hchange
    have hcarried : w.desk.carriedWindow target = some v := by
      by_contra hno
      exact hchange (by simp [hno]; exact Iff.rfl)
    obtain ⟨id, hp, hl⟩ := w.desk.carriedWindow_eq_some_iff.mp hcarried
    exact h w.desk.active id (w.desk.planned_eq_some_iff.mp hp).2.2 v hl

end World

/-! ## Runs -/

/-- Two clients open a window each; both call their surface number twelve. -/
def twoClients : List Event :=
  [.createSurface 0 12, .newToplevel ⟨0, 12, 0⟩, .createSurface 1 12, .newToplevel ⟨1, 12, 1⟩]

/-- **Identity.** In every state of a run distinct live toplevels have distinct ids and each
recorded id finds the window it was recorded for, if and only if every event of the run keeps ids
apart. As long as they do, closing and moving the focused window act on the recorded window. -/
theorem identity_always_iff {w : World} {es : List Event} (h0 : frame.Init w)
    (hl : frame.Legal w es) :
    (frame.Always (fun w => w.desk.IdsDistinct ∧ w.desk.FindsOwner) w es ↔
      frame.EachStep (fun w e => w.desk.SeparatesIds (w.deskAct e)) w es) ∧
    ∀ pre, pre <+: es → (frame.run w pre).desk.FindsOwner → (frame.run w pre).ActsOnOwner := by
  refine ⟨?_, fun pre hpre hfinds => ?_⟩
  · refine World.always_iff_eachStep (P := fun d => d.IdsDistinct ∧ d.FindsOwner)
      (fun _ _ => ⟨fun t ht => absurd ht (by simp [Desk.blank]), fun i id h => by cases h⟩)
      (fun _ _ hd h hp => Desk.identity_apply_iff hd h hp) h0 hl
  · have hreach : frame.Reachable (frame.run w pre) :=
      (EventMachine.Reachable.init h0).run (hl.of_prefix hpre)
    exact World.actsOnOwner_of_findsOwner (World.wf_of_reachable hreach) hfinds

theorem identity_always_iff_twoClients :
    (frame.Always (fun w => w.desk.IdsDistinct ∧ w.desk.FindsOwner) World.desktop twoClients ↔
      frame.EachStep (fun w e => w.desk.SeparatesIds (w.deskAct e)) World.desktop twoClients) ∧
    ∀ pre, pre <+: twoClients → (frame.run World.desktop pre).desk.FindsOwner →
      (frame.run World.desktop pre).ActsOnOwner :=
  identity_always_iff init_desktop (by decide +kernel)

/-- Both windows have the id 12, and the shortcut that closes the focused window, the second one,
asks the first client to close. -/
theorem twoClients_collide :
    frame.Init World.desktop ∧ frame.Legal World.desktop twoClients ∧
      ¬ (frame.run World.desktop twoClients).desk.IdsDistinct ∧
      (frame.run World.desktop twoClients).owner 0 = some ⟨⟨1, ⟨1, 12, 1⟩⟩⟩ ∧
      (frame.run World.desktop twoClients).state.closeFocusedWindow.effects =
        (frame.run World.desktop twoClients).state.effects ++ [.sendClose ⟨0, ⟨0, 12, 0⟩⟩] := by
  refine ⟨init_desktop, by decide +kernel, fun h => ?_, by decide +kernel, by decide +kernel⟩
  have heq := h ⟨0, ⟨0, 12, 0⟩⟩ (by decide +kernel) ⟨1, ⟨1, 12, 1⟩⟩ (by decide +kernel) rfl
  exact absurd heq (by decide)

end Frame

end Nullxes
