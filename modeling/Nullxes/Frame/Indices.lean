import Nullxes.Frame.Simulation

/-!
# Workspace counts and indices

Three numbers have to agree: the length of `Workspaces`, the count of `WorkspaceManager` and the
count in the loaded configuration. The first two come from one number when FRAME starts and nothing
changes either of them afterwards, so every index the code forms is in range and the two fallbacks
of `Workspaces::active` and `active_mut`, the first space and the last one, are never taken.

The third is read again by `Reload.Config`, which stores the new configuration and leaves the layout
as it is. The layout then follows the configuration only as long as what is read has the old count.

## Main results

* `Workspaces.pairwise_occupied`, `Workspaces.mem_occupied` — what `occupied` lists
* `coherent_of_reachable` — indices are in range in every reachable state
* `layoutFollowsConfig_always_iff` — when the layout is the configured one throughout a run
-/

namespace Nullxes

namespace Frame

/-! ## Occupied workspaces -/

namespace Workspaces

variable (ws : Workspaces)

/-- The occupied workspaces are listed in increasing order. -/
theorem pairwise_occupied : ws.occupied.Pairwise (· < ·) := by
  have hall : (ws.spaces.zipIdx.map Prod.snd).Pairwise (· < ·) := by
    rw [List.zipIdx_map_snd, ← List.range_eq_range']
    exact List.pairwise_lt_range
  exact hall.sublist (List.filter_sublist.map Prod.snd)

/-- A workspace is listed exactly when it exists and has a window. -/
theorem mem_occupied {i : ℕ} : i ∈ ws.occupied ↔ i < ws.count ∧ ∃ w, w ∈ ws.space i := by
  have hhead : ∀ space : Space, space.elements.head?.isSome ↔ ∃ w, w ∈ space := by
    intro space
    cases h : space.elements <;> simp [ZStack.mem_def, h]
  constructor
  · intro hi
    obtain ⟨⟨space, j⟩, hmem, rfl⟩ := List.mem_map.mp hi
    obtain ⟨hzip, hocc⟩ := List.mem_filter.mp hmem
    have hget : ws.spaces[j]? = some space := List.mk_mem_zipIdx_iff_getElem?.mp hzip
    have hlt : j < ws.count := (List.getElem?_eq_some_iff.mp hget).1
    have hspace : ws.space j = space := by
      rw [Workspaces.space, get, hget, Option.getD_some]
    exact ⟨hlt, hspace ▸ (hhead space).mp hocc⟩
  · rintro ⟨hlt, hocc⟩
    have hget : ws.spaces[i]? = some (ws.space i) := ws.get_eq_some hlt
    exact List.mem_map.mpr ⟨(ws.space i, i),
      List.mem_filter.mpr ⟨List.mk_mem_zipIdx_iff_getElem?.mpr hget, (hhead _).mpr hocc⟩, rfl⟩

theorem spaces_activeMut {idx : ℕ} (h : idx < ws.count) (f : Space → Space) :
    (ws.activeMut idx f).spaces = ws.spaces.set idx (f (ws.spaces.get ⟨idx, h⟩)) := by
  have hmin : min idx (ws.spaces.length - 1) = idx := by
    have hlt : idx < ws.spaces.length := h
    omega
  rw [activeMut, hmin, modify]
  refine List.ext_getElem? fun j => ?_
  rw [List.getElem?_modify, List.getElem?_set]
  by_cases hj : idx = j
  · subst hj
    have hlt : idx < ws.spaces.length := h
    simp [hlt]
  · simp [hj]

theorem active_eq_get {idx : ℕ} (h : idx < ws.count) : ws.active idx = ws.spaces.get ⟨idx, h⟩ := by
  have hget : ws.get idx = some (ws.spaces.get ⟨idx, h⟩) := List.getElem?_eq_getElem h
  rw [active, hget, Option.getD_some]

end Workspaces

/-! ## The indices of a state -/

namespace NullxesState

/-- Every index the code forms is in range, and the snapshot of `Get.State` tells the truth. -/
structure Coherent (s : NullxesState) : Prop where
  counts : s.workspaces.count = s.workspaceMgr.count
  slots : s.workspaceMgr.focused.length = s.workspaceMgr.count
  active_lt : s.workspaceMgr.active < s.workspaces.spaces.length
  /-- `active_space` and `active_space_mut` denote the space at the active index. -/
  activeSpace : s.activeSpace = s.workspaces.spaces.get ⟨s.workspaceMgr.active, active_lt⟩
  activeSpaceMut : ∀ f, (s.activeSpaceMut f).workspaces.spaces =
    s.workspaces.spaces.set s.workspaceMgr.active
      (f (s.workspaces.spaces.get ⟨s.workspaceMgr.active, active_lt⟩))
  /-- The slots `plan_move_focused` writes. -/
  planned : ∀ target src tgt id, (s.workspaceMgr.planMoveFocused target).2 = some (src, tgt, id) →
    src < s.workspaceMgr.focused.length ∧ tgt < s.workspaceMgr.focused.length
  /-- The space `Workspaces::active` falls back to. -/
  first : 0 < s.workspaces.spaces.length
  /-- The space `active_mut` takes, whatever index it is given. -/
  last : ∀ idx, min idx (s.workspaces.spaces.length - 1) < s.workspaces.spaces.length
  snapshot : ∀ disk, ∃ snap : StateSnapshot,
    s.handleRequestOnMain .getState disk = (s, .ok (some (.state snap))) ∧
      snap.workspaceCount = s.workspaceMgr.count ∧
      snap.activeWorkspace = s.workspaceMgr.active ∧
      snap.activeWorkspace < snap.workspaceCount ∧
      snap.occupied.Pairwise (· < ·) ∧
      ∀ i, i ∈ snap.occupied ↔
        i < snap.workspaceCount ∧ ∃ w, w ∈ s.workspaces.space i

/-- Nothing but the agreement of the two counts is needed. -/
theorem CountsAgree.coherent {s : NullxesState} (h : s.CountsAgree) : s.Coherent where
  counts := h
  slots := s.workspaceMgr.length_focused
  active_lt := h.active_lt
  activeSpace := s.workspaces.active_eq_get h.active_lt
  activeSpaceMut f := s.workspaces.spaces_activeMut h.active_lt f
  planned target src tgt id hplan := by
    have hp : s.workspaceMgr.planMoveFocused target =
        ((s.workspaceMgr.planMoveFocused target).1, some (src, tgt, id)) := Prod.ext rfl hplan
    obtain ⟨hlt, -, -, rfl, rfl, -⟩ := s.workspaceMgr.planMoveFocused_eq_some_iff.mp hp
    rw [s.workspaceMgr.length_focused]
    exact ⟨s.workspaceMgr.active_lt, hlt⟩
  first := s.workspaces.nonempty
  last idx := by
    have hpos := s.workspaces.nonempty
    omega
  snapshot disk := by
    refine ⟨_, rfl, rfl, rfl, s.workspaceMgr.active_lt, s.workspaces.pairwise_occupied, fun i => ?_⟩
    rw [s.workspaces.mem_occupied]
    have hcount : s.workspaces.count = s.workspaceMgr.count := h
    rw [hcount]

end NullxesState

/-- **Indices are coherent in every reachable state.** -/
theorem coherent_of_reachable {w : World} (h : frame.Reachable w) : w.state.Coherent :=
  (World.wf_of_reachable h).counts.coherent

/-- A window is opened, another workspace becomes active, and the state is asked for. -/
def openAndSwitch : List Event :=
  [.createSurface 0 12, .newToplevel ⟨0, 12, 0⟩, .ipc (.switchWorkspace 1) {}, .ipc .getState {}]

theorem coherent_of_reachable_openAndSwitch :
    (frame.run World.desktop openAndSwitch).state.Coherent :=
  coherent_of_reachable ((EventMachine.Reachable.init init_desktop).run (by decide +kernel))

/-! ## The loaded configuration -/

namespace NullxesState

variable {s : NullxesState}

@[simp] theorem config_emit (es : List Effect) : (s.emit es).config = s.config := rfl

@[simp] theorem config_nextSerial : s.nextSerial.config = s.config := rfl

@[simp] theorem config_setKeyboardFocus (f : Option WlSurface) :
    (s.setKeyboardFocus f).config = s.config := by
  rw [setKeyboardFocus]
  split <;> rfl

@[simp] theorem config_setOutput (o : Output) : (s.setOutput o).config = s.config := rfl

@[simp] theorem config_moveFocused (target : ℕ) : (s.moveFocused target).1.config = s.config :=
  s.moveFocused_cases (P := fun s' => s'.config = s.config) target fun _ _ _ => rfl

theorem config_handleKeybind (mods : ModifiersState) (keysym : ℕ) :
    (s.handleKeybind mods keysym).1.config = s.config := by
  refine s.handleKeybind_cases (P := fun s' => s'.config = s.config) mods keysym rfl
    config_moveFocused (fun _ => rfl) ?_ fun _ => rfl
  exact s.closeFocusedWindow_cases (P := fun s' => s'.config = s.config) rfl fun _ => rfl

theorem config_handleKeyboard (ev : KeyboardKeyEvent) (locked : Bool) :
    (s.handleKeyboard ev locked).config = s.config := by
  have hfilter : (s.nextSerial.keyboardFilter ev locked).1.config = s.config :=
    s.nextSerial.keyboardFilter_cases (P := fun s' => s'.config = s.config) ev locked rfl
      (config_handleKeybind _ _)
  have hforward : ∀ t : NullxesState, (t.forwardKey ev).config = t.config := by
    intro t
    rw [forwardKey]
    split <;> rfl
  exact s.handleKeyboard_cases (P := fun s' => s'.config = s.config) ev locked rfl
    ((hforward _).trans hfilter) hfilter

theorem config_pointerMotion (focus : PointerFocus) (loc : Point ℚ) :
    (s.pointerMotion focus loc).config = s.config := by
  rw [pointerMotion]
  split
  · rfl
  · simp only
    split <;> rfl

theorem config_handlePointerButton (button : ℕ) (pressed : Bool) :
    (s.handlePointerButton button pressed).config = s.config := by
  have hpress : ∀ (s : NullxesState) loc, (s.pressAt loc).config = s.config := by
    intro s loc
    rw [pressAt]
    split <;> simp [activeSpaceMut]
  have hbutton : ∀ (s : NullxesState) serial,
      (s.pointerButton button pressed serial).config = s.config := by
    intro s serial
    rw [pointerButton]
    split <;> rfl
  simp only [handlePointerButton]
  split
  · rfl
  · rw [hbutton]
    split
    · exact hpress _ _
    · rfl

/-- Input events leave the configuration alone. -/
theorem config_processInputEvent (ev : InputEvent) :
    (s.processInputEvent ev).config = s.config := by
  refine s.processInputEvent_cases (P := fun s' => s'.config = s.config) ev rfl
    (fun _ => config_handleKeyboard _ _) ?_ (fun _ => config_pointerMotion _ _)
    config_handlePointerButton ?_
  · intro delta
    simp only [handlePointerMotion]
    split
    · rfl
    · exact config_pointerMotion _ _
  · rw [handlePointerAxis, pointerAxis]
    split <;> rfl

/-- The configuration after an event: only `Reload.Config` loads one. -/
def configAfter (s : NullxesState) : Event → FrameConfig
  | .ipc .reloadConfig disk => disk
  | _ => s.config

theorem config_react (e : Event) : (s.react e).config = s.configAfter e := by
  cases e with
  | toplevelDestroyed t =>
    simp only [react, toplevelDestroyed_eq]
    rfl
  | moveRequest t serial =>
    rcases s.moveRequest_cases t serial with h | ⟨ptr, start, window, loc, -, -, -, -, h⟩
    · rw [react, h]
      rfl
    · rw [react, h]
      rfl
  | newLayerSurface surface layer out =>
    rcases out with _ | out <;> simp only [react, newLayerSurface] <;> split <;> rfl
  | layerDestroyed l =>
    simp only [react, layerDestroyed]
    split <;> rfl
  | lock client =>
    simp only [react, lockSession]
    split
    · rfl
    · exact config_setKeyboardFocus none
  | newLockSurface surface out =>
    simp only [react, newLockSurface]
    split <;> rfl
  | unlock =>
    simp only [react, unlockSession]
    split
    · exact config_setKeyboardFocus _
    · rfl
  | input ev => exact config_processInputEvent ev
  | ipc req disk =>
    cases req with
    | switchWorkspace idx =>
      simp only [react, handleRequestOnMain]
      split <;> rfl
    | moveFocused target =>
      have hmove := config_moveFocused (s := s) target
      simp only [react, handleRequestOnMain]
      rcases hr : s.moveFocused target with ⟨s', _ | _⟩ <;> rw [hr] at hmove <;> exact hmove
    | _ => rfl
  | resized size =>
    simp only [react, resized]
    split <;> rfl
  | redraw painted =>
    simp only [react, updatePanelBitmap]
    split <;> rfl
  | _ => rfl

/-- The layout has the number of workspaces that the loaded configuration asks for. -/
def LayoutFollowsConfig (s : NullxesState) : Prop :=
  s.workspaces.count = clampCount s.config.workspace.count ∧
    s.workspaceMgr.count = clampCount s.config.workspace.count

instance (s : NullxesState) : Decidable s.LayoutFollowsConfig :=
  inferInstanceAs (Decidable (_ ∧ _))

/-- A reload finds a configuration with the number of workspaces of the loaded one. -/
def ReloadsSameCount (s : NullxesState) (e : Event) : Prop :=
  ∀ disk, e = .ipc .reloadConfig disk →
    clampCount disk.workspace.count = clampCount s.config.workspace.count

end NullxesState

namespace World

variable {w : World} {e : Event} {es : List Event}

/-- A reload loses no window: whatever a live toplevel was mapped on is still there and has it. -/
def ReloadKeepsWindows (w : World) (e : Event) : Prop :=
  ∀ disk, e = .ipc .reloadConfig disk → ∀ t ∈ w.state.xdgShellState.toplevels,
    ∀ i < w.state.workspaces.count, (⟨t⟩ : Window) ∈ w.state.workspaces.space i →
      i < (w.step e).state.workspaces.count ∧
        (⟨t⟩ : Window) ∈ (w.step e).state.workspaces.space i

theorem reloadKeepsWindows (w : World) (e : Event) : w.ReloadKeepsWindows e := by
  rintro disk rfl t - i hi hmem
  exact ⟨hi, hmem⟩

/-- The counts of the layout never change. -/
theorem counts_step (hw : w.Wf) (he : w.state.Possible e) :
    (w.step e).state.workspaces.count = w.state.workspaces.count ∧
      (w.step e).state.workspaceMgr.count = w.state.workspaceMgr.count := by
  have hcount : (w.step e).state.workspaces.count = w.state.workspaces.count :=
    (w.state.footprint_react e).count
  refine ⟨hcount, ?_⟩
  have hagree : (w.step e).state.workspaces.count = (w.step e).state.workspaceMgr.count :=
    (hw.step he).counts
  exact hagree.symm.trans (hcount.trans hw.counts)

/-- An event keeps layout and configuration in step exactly when it does not load another count. -/
theorem layoutFollowsConfig_step_iff (hw : w.Wf) (h : w.state.LayoutFollowsConfig)
    (he : w.state.Possible e) :
    (w.step e).state.LayoutFollowsConfig ↔ w.state.ReloadsSameCount e := by
  obtain ⟨hspaces, hmgr⟩ := counts_step hw he
  have hconfig : (w.step e).state.config = w.state.configAfter e := NullxesState.config_react e
  rw [NullxesState.LayoutFollowsConfig, hspaces, hmgr, h.1, h.2, and_self, hconfig]
  by_cases hreload : ∃ disk, e = .ipc .reloadConfig disk
  · obtain ⟨disk, rfl⟩ := hreload
    simp [NullxesState.ReloadsSameCount, NullxesState.configAfter, eq_comm]
  · refine iff_of_true ?_ fun disk heq => absurd ⟨disk, heq⟩ hreload
    rw [NullxesState.configAfter]
    exact fun disk heq => hreload ⟨disk, heq⟩

end World

/-- FRAME runs with nine workspaces, and a file that asks for two is loaded. -/
def reloadTwo : List Event := [.ipc .reloadConfig { workspace := { count := 2 } }]

section

variable {w : World} {es : List Event}

/-- **Layout and configuration.** In every state of a run the layout has the number of workspaces
the loaded configuration asks for, and no reload loses a window, if and only if each reload of the
run finds the number of workspaces that was loaded before. -/
theorem layoutFollowsConfig_always_iff (h0 : frame.Init w) (hl : frame.Legal w es) :
    (frame.Always (fun w => w.state.LayoutFollowsConfig) w es ∧
        frame.EachStep World.ReloadKeepsWindows w es) ↔
      frame.EachStep (fun w e => w.state.ReloadsSameCount e) w es := by
  have hkeeps : frame.EachStep World.ReloadKeepsWindows w es :=
    fun pre e _ => World.reloadKeepsWindows _ e
  rw [and_iff_left hkeeps]
  refine EventMachine.always_iff_eachStep (I := World.Wf) (fun _ _ hw he => hw.step he)
    (fun _ _ hw h he => World.layoutFollowsConfig_step_iff hw h he)
    (World.simulation.inv_init w h0) ?_ hl
  obtain ⟨config, modes, keyboard, rfl⟩ := h0
  exact ⟨List.length_replicate, rfl⟩

theorem layoutFollowsConfig_always_iff_reloadTwo :
    (frame.Always (fun w => w.state.LayoutFollowsConfig) World.desktop reloadTwo ∧
        frame.EachStep World.ReloadKeepsWindows World.desktop reloadTwo) ↔
      frame.EachStep (fun w e => w.state.ReloadsSameCount e) World.desktop reloadTwo :=
  layoutFollowsConfig_always_iff init_desktop (by decide +kernel)

/-- After the reload the configuration asks for two workspaces and there are nine. -/
theorem reloadTwo_layout_stays :
    frame.Init World.desktop ∧ frame.Legal World.desktop reloadTwo ∧
      ¬ frame.Always (fun w => w.state.LayoutFollowsConfig) World.desktop reloadTwo := by
  refine ⟨init_desktop, by decide +kernel, fun h => ?_⟩
  exact absurd h.last (by decide +kernel)

end

end Frame

end Nullxes
