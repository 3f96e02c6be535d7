import Nullxes.Frame.Simulation

/-!
# Which workspace a window is on

`Workspaces` is meant to be the one place that says which workspace a window is on. Two properties
follow from that reading: a live toplevel is mapped in exactly one space (`Desk.OneEach`), and the
window of a destroyed one in none (`Desk.NoResidue`).

Both hold of every act but an interactive move. `MoveSurfaceGrab::motion` maps its own clone of the
window, into whatever space is active at that moment, and asks neither where the window is nor
whether it still exists. The results below say exactly which motions break the properties.

## Main results

* `oneEach_always_iff` — one workspace for each live window, as long as drags stay in place
* `noResidue_always_iff` — no trace of a destroyed window, as long as nothing drags it back
-/

namespace Nullxes

namespace Frame

namespace Desk

variable {d : Desk} {a : DeskAct}

/-! ## One workspace for each window -/

/-- Every live toplevel is mapped in exactly one workspace. -/
def OneEach (d : Desk) : Prop := ∀ t ∈ d.toplevels, ∃! i, (⟨t⟩ : Window) ∈ d.space i

/-- An interactive move of a live window happens on the workspace the window is on. -/
def DragsInPlace (d : Desk) (a : DeskAct) : Prop :=
  ∀ w loc, a = .drag w loc → w.toplevelSurface ∈ d.toplevels → w ∈ d.space d.active

/-- A window mapped in one workspace only is carried to the target and to nowhere else. -/
theorem oneEach_carried {w : Window} {target : ℕ} (h : ∃! i, w ∈ d.space i) :
    ∃! i, w ∈ d.carried target i := by
  obtain ⟨i, hi, huniq⟩ := h
  by_cases hc : d.carriedWindow target = some w
  · have hact : d.active = i := huniq _ (d.mem_of_carriedWindow hc)
    refine ⟨target, d.mem_carried.mpr (.inl ⟨rfl, hc⟩), fun j hj => ?_⟩
    rcases d.mem_carried.mp hj with ⟨rfl, -⟩ | ⟨hj, hno⟩
    · rfl
    · exact absurd ⟨(huniq j hj).trans hact.symm, hc⟩ hno
  · refine ⟨i, d.mem_carried.mpr (.inr ⟨hi, fun h => hc h.2⟩), fun j hj => ?_⟩
    rcases d.mem_carried.mp hj with ⟨-, hc'⟩ | ⟨hj, -⟩
    · exact absurd hc' hc
    · exact huniq j hj

/-- **Only a drag can break it**, and it does exactly when it maps a window that lives on another
workspace. -/
theorem oneEach_apply_iff (hd : d.Wf) (h : d.OneEach) (hp : d.Possible a) :
    (d.apply a).OneEach ↔ d.DragsInPlace a := by
  constructor
  · rintro h' w loc rfl hw
    obtain ⟨i, hi, -⟩ := h w.toplevelSurface hw
    have hold : w ∈ (d.apply (.drag w loc)).space i := mem_apply.mpr (.inl hi)
    have hnew : w ∈ (d.apply (.drag w loc)).space d.active := mem_apply.mpr (.inr ⟨rfl, rfl⟩)
    have heq : i = d.active := (h' w.toplevelSurface hw).unique hold hnew
    exact heq ▸ hi
  · intro hc t ht
    refine (existsUnique_congr fun i => mem_apply).mpr ?_
    cases a with
    | create t' loc =>
      by_cases heq : t = t'
      · subst heq
        refine ⟨d.active, .inr ⟨rfl, rfl⟩, fun i hi => ?_⟩
        rcases hi with hi | ⟨hi, -⟩
        · exact absurd (hd.known i _ hi) fun hk => hk.elim (fun hl => hp.2 t hl rfl rfl) hp.1
        · exact hi
      · have ht' : t ∈ d.toplevels := by
          rcases List.mem_cons.mp ht with h' | h'
          · exact absurd h' heq
          · exact h'
        simpa [heq] using h t ht'
    | destroy t' =>
      obtain ⟨ht, hne⟩ := List.mem_filter.mp ht
      have hstay : ∀ i, d.firstOn t'.wlSurface ≠ some (i, ⟨t⟩) := by
        intro i hfirst
        have heq := hd.firstOn_live hp hfirst ht
        cases heq
        simp at hne
      simpa [hstay] using h t ht
    | move target => exact (existsUnique_congr fun i => d.mem_carried).mp (oneEach_carried (h t ht))
    | drag w loc =>
      by_cases heq : w = ⟨t⟩
      · subst heq
        obtain ⟨i, -, huniq⟩ := h t ht
        have hact := hc _ loc rfl ht
        refine ⟨d.active, .inl hact, fun j hj => ?_⟩
        rcases hj with hj | ⟨hj, -⟩
        · exact (huniq j hj).trans (huniq _ hact).symm
        · exact hj
      · simpa [Ne.symm heq] using h t ht
    | _ => exact h t ht

/-! ## No residue -/

/-- No workspace has the window of a destroyed toplevel. -/
def NoResidue (d : Desk) : Prop := ∀ t ∈ d.destroyed, ∀ i, (⟨t⟩ : Window) ∉ d.space i

/-- An interactive move has hold of a window that still exists, and a toplevel that is destroyed is
mapped in at most one workspace. -/
def LeavesNoTrace (d : Desk) (a : DeskAct) : Prop :=
  (∀ w loc, a = .drag w loc → w.toplevelSurface ∈ d.toplevels) ∧
    ∀ t, a = .destroy t → ∀ i j, (⟨t⟩ : Window) ∈ d.space i → (⟨t⟩ : Window) ∈ d.space j → i = j

/-- While no dead window is mapped, the search for a live toplevel's surface finds its own
window. -/
theorem firstOn_of_noResidue (hd : d.Wf) (h : d.NoResidue) {t : ToplevelSurface}
    (ht : t ∈ d.toplevels) : ∃ i, d.firstOn t.wlSurface = some (i, ⟨t⟩) := by
  obtain ⟨i, w, hfirst⟩ := hd.exists_firstOn ht
  have hmem := (d.mem_of_firstOn hfirst).1
  have hlive : w.toplevelSurface ∈ d.toplevels :=
    (hd.known i w hmem).resolve_right fun hdead => h _ hdead i hmem
  obtain rfl := hd.firstOn_live ht hfirst hlive
  exact ⟨i, hfirst⟩

theorem noResidue_apply_iff (hd : d.Wf) (h : d.NoResidue) (hp : d.Possible a) :
    (d.apply a).NoResidue ↔ d.LeavesNoTrace a := by
  constructor
  · intro h'
    refine ⟨?_, ?_⟩
    · rintro w loc rfl
      refine Or.resolve_right hp fun hdead => ?_
      exact h' w.toplevelSurface hdead d.active (mem_apply.mpr (.inr ⟨rfl, rfl⟩))
    · rintro t rfl i j hi hj
      have hgone : ∀ k, (⟨t⟩ : Window) ∈ d.space k → d.firstOn t.wlSurface = some (k, ⟨t⟩) := by
        intro k hk
        by_contra hne
        exact h' t List.mem_cons_self k (mem_apply.mpr ⟨hk, hne⟩)
      have heq := (hgone i hi).symm.trans (hgone j hj)
      cases heq
      rfl
  · rintro ⟨hdrag, hdestroy⟩ t ht i hi
    rw [destroyed_apply] at ht
    rw [mem_apply] at hi
    cases a with
    | create t' loc =>
      rcases hi with hi | ⟨-, heq⟩
      · exact h t ht i hi
      · cases heq
        exact hp.1 ht
    | destroy t' =>
      rcases List.mem_cons.mp ht with rfl | ht
      · obtain ⟨i₀, hfirst⟩ := firstOn_of_noResidue hd h hp
        have heq : i₀ = i := hdestroy t rfl i₀ i (d.mem_of_firstOn hfirst).1 hi.1
        exact hi.2 (heq ▸ hfirst)
      · exact h t ht i hi.1
    | move target =>
      rcases hi with ⟨-, hc⟩ | ⟨hi, -⟩
      · exact h t ht d.active (d.mem_of_carriedWindow hc)
      · exact h t ht i hi
    | drag w loc =>
      rcases hi with hi | ⟨-, heq⟩
      · exact h t ht i hi
      · cases heq
        exact hd.apart t (hdrag ⟨t⟩ loc rfl) ht
    | _ => exact h t ht i hi

end Desk

/-! ## Runs -/

/-- Content that takes input everywhere. -/
def SurfaceData.grasping (surface : WlSurface) : SurfaceData :=
  { SurfaceData.initial with under := fun _ => some (surface, (0, 0)) }

/-- The window that `grabWindow` opens. -/
def firstToplevel : ToplevelSurface := ⟨0, ⟨0, 12, 0⟩⟩

/-- A client opens a window, the left button goes down on it, and the client asks to move it. -/
def grabWindow : List Event :=
  [.createSurface 0 12, .newToplevel ⟨0, 12, 0⟩, .commit ⟨0, 12, 0⟩ (.grasping ⟨0, 12, 0⟩),
    .input (.pointerMotionAbsolute (1 / 2, 1 / 2)), .input (.pointerButton 272 true),
    .moveRequest firstToplevel 2]

/-- The workspace is switched while the window is held, and then the pointer moves. -/
def dragAcross : List Event :=
  grabWindow ++ [.ipc (.switchWorkspace 1) {}, .input (.pointerMotion (1, 0))]

/-- The client destroys its toplevel while the window is held, keeping the surface, and then the
pointer moves. -/
def dragDead : List Event :=
  grabWindow ++ [.toplevelDestroyed firstToplevel, .input (.pointerMotion (1, 0))]

section

variable {w : World} {es : List Event}

/-- **One workspace for each window.** Every live toplevel is mapped in exactly one workspace
throughout a run if and only if each interactive move of the run happens on the workspace its
window is on. -/
theorem oneEach_always_iff (h0 : frame.Init w) (hl : frame.Legal w es) :
    frame.Always (fun w => w.desk.OneEach) w es ↔
      frame.EachStep (fun w e => w.desk.DragsInPlace (w.deskAct e)) w es :=
  World.always_iff_eachStep (fun _ _ t ht => absurd ht (by simp [Desk.blank]))
    (fun _ _ hd h hp => Desk.oneEach_apply_iff hd h hp) h0 hl

theorem oneEach_always_iff_dragAcross :
    frame.Always (fun w => w.desk.OneEach) World.desktop dragAcross ↔
      frame.EachStep (fun w e => w.desk.DragsInPlace (w.deskAct e)) World.desktop dragAcross :=
  oneEach_always_iff init_desktop (by decide +kernel)

/-- Dragged across a switch, the window is on both workspaces. -/
theorem dragAcross_not_oneEach :
    frame.Init World.desktop ∧ frame.Legal World.desktop dragAcross ∧
      ¬ frame.Always (fun w => w.desk.OneEach) World.desktop dragAcross := by
  refine ⟨init_desktop, by decide +kernel, fun h => ?_⟩
  have hlive : firstToplevel ∈ (frame.run World.desktop dragAcross).desk.toplevels := by
    decide +kernel
  have hfirst : (⟨firstToplevel⟩ : Window) ∈ (frame.run World.desktop dragAcross).desk.space 0 := by
    decide +kernel
  have hsecond :
      (⟨firstToplevel⟩ : Window) ∈ (frame.run World.desktop dragAcross).desk.space 1 := by
    decide +kernel
  exact absurd ((h.last firstToplevel hlive).unique hfirst hsecond) (by decide)

/-- **No residue.** No workspace has the window of a toplevel that was destroyed at some time, in
any state of a run, if and only if each interactive move of the run has hold of a window that still
exists and each toplevel it destroys is mapped in at most one workspace. -/
theorem noResidue_always_iff (h0 : frame.Init w) (hl : frame.Legal w es) :
    (∀ pre, pre <+: es → ∀ t, .toplevelDestroyed t ∈ pre →
        ∀ i, (⟨t⟩ : Window) ∉ (frame.run w pre).state.workspaces.space i) ↔
      frame.EachStep (fun w e => w.desk.LeavesNoTrace (w.deskAct e)) w es := by
  have hdestroyed : w.destroyed = [] := by
    obtain ⟨config, modes, keyboard, rfl⟩ := h0
    rfl
  rw [← World.always_iff_eachStep (fun _ _ t ht => absurd ht (by simp [Desk.blank]))
    (fun _ _ hd h hp => Desk.noResidue_apply_iff hd h hp) h0 hl]
  refine forall₂_congr fun pre _ => forall_congr' fun t => ?_
  have hmem : t ∈ (frame.run w pre).destroyed ↔ .toplevelDestroyed t ∈ pre := by
    rw [World.mem_destroyed_run, hdestroyed]
    simp
  exact imp_congr hmem.symm Iff.rfl

theorem noResidue_always_iff_dragDead :
    (∀ pre, pre <+: dragDead → ∀ t, .toplevelDestroyed t ∈ pre →
        ∀ i, (⟨t⟩ : Window) ∉ (frame.run World.desktop pre).state.workspaces.space i) ↔
      frame.EachStep (fun w e => w.desk.LeavesNoTrace (w.deskAct e)) World.desktop dragDead :=
  noResidue_always_iff init_desktop (by decide +kernel)

/-- The pointer maps the dead window again. -/
theorem dragDead_residue :
    frame.Init World.desktop ∧ frame.Legal World.desktop dragDead ∧
      .toplevelDestroyed firstToplevel ∈ dragDead ∧
      (⟨firstToplevel⟩ : Window) ∈
        (frame.run World.desktop dragDead).state.workspaces.space 0 :=
  ⟨init_desktop, by decide +kernel, by simp [dragDead], by decide +kernel⟩

end

end Frame

end Nullxes
