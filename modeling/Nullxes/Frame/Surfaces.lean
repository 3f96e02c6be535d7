import Nullxes.Frame.Simulation

/-!
# Surfaces and their roles

A `wl_surface` takes one role and keeps it, so the surfaces of windows, of layers and of the lock
are different surfaces: what a client commits to a layer surface cannot change a lock surface.
`SurfacesWf` states this for the lists FRAME keeps, the layer maps and the lock's surfaces, together
with what makes a new surface new and a dead one empty.

## Main results

* `NullxesState.SurfacesWf.react` — every event keeps it
* `NullxesState.role_keeps` — a surface keeps its role
* `World.surfacesWf_of_reachable`, `World.role_window`
-/

namespace Nullxes

namespace Frame

namespace NullxesState

variable {s s' : NullxesState}

/-- The surfaces FRAME holds on to have the role it holds them for, and smithay's bookkeeping of
surfaces is in order. -/
structure SurfacesWf (s : NullxesState) : Prop where
  alive_lt : ∀ x ∈ s.compositorState.alive, x.generation < s.compositorState.nextGeneration
  role_lt : ∀ x, s.compositorState.role x ≠ none →
    x.generation < s.compositorState.nextGeneration
  dead : ∀ x, x ∉ s.compositorState.alive → s.surfaceData x = SurfaceData.initial
  layer : ∀ l ∈ s.layerShellState.layers, s.compositorState.role l.wlSurface = some .layer
  mapped : ∀ o ∈ s.outputs, ∀ l ∈ o.layerMap, s.compositorState.role l.wlSurface = some .layer
  lock : ∀ l, s.lock = some l → ∀ x ∈ l.surfaces,
    s.compositorState.role x.wlSurface = some .lock

theorem surfacesWf_new (config : FrameConfig) (modes : List (Point ℤ)) (keyboard : Bool) :
    (new config modes keyboard).SurfacesWf where
  alive_lt x hx := by cases hx
  role_lt x hx := absurd rfl hx
  dead x _ := rfl
  layer l hl := by cases hl
  mapped o ho l hl := by
    obtain ⟨m, -, rfl⟩ := List.mem_map.mp ho
    cases hl
  lock l hl := by cases hl

namespace SurfacesWf

/-- It speaks of four components of the state only. -/
theorem congr (h : s.SurfacesWf) (hc : s'.compositorState = s.compositorState)
    (hl : s'.layerShellState = s.layerShellState) (ho : s'.outputs = s.outputs)
    (hk : s'.lock = s.lock) : s'.SurfacesWf where
  alive_lt := by rw [hc]; exact h.alive_lt
  role_lt := by rw [hc]; exact h.role_lt
  dead x hx := by
    rw [hc] at hx
    rw [surfaceData, hc]
    exact h.dead x hx
  layer := by rw [hc, hl]; exact h.layer
  mapped := by rw [hc, ho]; exact h.mapped
  lock := by rw [hc, hk]; exact h.lock

theorem of_rearranges (h : s.SurfacesWf) (hr : Rearranges s s') : s'.SurfacesWf :=
  h.congr hr.compositorState_eq hr.layerShellState_eq hr.outputs_eq hr.lock_eq

/-- A surface that can take a role keeps the one it has. -/
theorem role_setRole {x y : WlSurface} {role r : Role} (ht : s.CanTakeRole x role)
    (hy : s.compositorState.role y = some r) :
    (s.setRole x role).compositorState.role y = some r := by
  show Function.update s.compositorState.role x (some role) y = some r
  rw [Function.update_apply]
  split
  next heq =>
    rw [heq] at hy
    rcases ht.2 with hnone | hsame
    · rw [hnone] at hy
      cases hy
    · rw [← hsame, hy]
  next => exact hy

theorem role_setRole_self (x : WlSurface) (role : Role) :
    (s.setRole x role).compositorState.role x = some role := Function.update_self ..

theorem setRole (h : s.SurfacesWf) {x : WlSurface} {role : Role} (ht : s.CanTakeRole x role) :
    (s.setRole x role).SurfacesWf where
  alive_lt := h.alive_lt
  role_lt y hy := by
    by_cases heq : y = x
    · rw [heq]
      exact h.alive_lt x ht.1
    · refine h.role_lt y ?_
      have hother : (s.setRole x role).compositorState.role y = s.compositorState.role y :=
        Function.update_of_ne heq ..
      rwa [hother] at hy
  dead := h.dead
  layer l hl := role_setRole ht (h.layer l hl)
  mapped o ho l hl := role_setRole ht (h.mapped o ho l hl)
  lock l hl y hy := role_setRole ht (h.lock l hl y hy)

theorem createSurface (h : s.SurfacesWf) (client : ClientId) (protocolId : UInt32) :
    (s.createSurface client protocolId).SurfacesWf where
  alive_lt x hx := by
    rcases List.mem_cons.mp hx with rfl | hx
    · exact Nat.lt_succ_self _
    · exact Nat.lt_succ_of_lt (h.alive_lt x hx)
  role_lt x hx := Nat.lt_succ_of_lt (h.role_lt x hx)
  dead x hx := h.dead x fun hmem => hx (List.mem_cons_of_mem _ hmem)
  layer := h.layer
  mapped := h.mapped
  lock := h.lock

theorem commit (h : s.SurfacesWf) {x : WlSurface} (hx : x ∈ s.compositorState.alive)
    (data : SurfaceData) : (s.commit x data).SurfacesWf where
  alive_lt := h.alive_lt
  role_lt := h.role_lt
  dead y hy := by
    have hne : y ≠ x := fun heq => hy (heq ▸ hx)
    exact (Function.update_of_ne hne ..).trans (h.dead y hy)
  layer := h.layer
  mapped := h.mapped
  lock := h.lock

theorem destroySurface (h : s.SurfacesWf) (x : WlSurface) : (s.destroySurface x).SurfacesWf where
  alive_lt y hy := h.alive_lt y (List.mem_filter.mp hy).1
  role_lt := h.role_lt
  dead y hy := by
    show Function.update s.compositorState.data x SurfaceData.initial y = SurfaceData.initial
    rw [Function.update_apply]
    split
    next => rfl
    next hne =>
      refine h.dead y fun hmem => hy ?_
      exact List.mem_filter.mpr ⟨hmem, by simpa using hne⟩
  layer := h.layer
  mapped := h.mapped
  lock := h.lock

/-- Replacing an output's record by one whose layer map has layer surfaces only. -/
theorem setOutput (h : s.SurfacesWf) {o : Output}
    (ho : ∀ l ∈ o.layerMap, s.compositorState.role l.wlSurface = some .layer) :
    (s.setOutput o).SurfacesWf where
  alive_lt := h.alive_lt
  role_lt := h.role_lt
  dead := h.dead
  layer := h.layer
  mapped o' ho' := by
    obtain ⟨o₀, ho₀, rfl⟩ := List.mem_map.mp ho'
    split
    · exact ho
    · exact h.mapped o₀ ho₀
  lock := h.lock

theorem mem_outputs_of_output {id : OutputId} {o : Output} (h : s.output id = some o) :
    o ∈ s.outputs := List.mem_of_find?_eq_some h

theorem mem_outputs_of_primary {o : Output} (h : s.primary = some o) : o ∈ s.outputs := by
  obtain ⟨id, -, hid⟩ := Option.bind_eq_some_iff.mp h
  exact mem_outputs_of_output hid

theorem registerLayer (h : s.SurfacesWf) {x : WlSurface} (ht : s.CanTakeRole x .layer)
    (layer : Layer) : (s.registerLayer x layer).SurfacesWf where
  alive_lt := (h.setRole ht).alive_lt
  role_lt := (h.setRole ht).role_lt
  dead := (h.setRole ht).dead
  layer l hl := by
    rcases List.mem_cons.mp hl with rfl | hl
    · exact role_setRole_self x .layer
    · exact (h.setRole ht).layer l hl
  mapped := (h.setRole ht).mapped
  lock := (h.setRole ht).lock

theorem newLayerSurface (h : s.SurfacesWf) {l : LayerSurface}
    (hl : s.compositorState.role l.wlSurface = some .layer) (wlOutput : Option OutputId) :
    (s.newLayerSurface l wlOutput).SurfacesWf := by
  have hmap : ∀ o ∈ s.outputs,
      (s.setOutput { o with layerMap := o.layerMap ++ [l] }).SurfacesWf := by
    intro o ho
    refine h.setOutput fun l' hl' => ?_
    rcases List.mem_append.mp hl' with hl' | hl'
    · exact h.mapped o ho l' hl'
    · rwa [List.mem_singleton.mp hl']
  rcases wlOutput with _ | id
  · simp only [NullxesState.newLayerSurface]
    split
    · exact h.congr rfl rfl rfl rfl
    next o ho => exact hmap o (mem_outputs_of_primary ho)
  · simp only [NullxesState.newLayerSurface]
    split
    · exact h.congr rfl rfl rfl rfl
    next o ho => exact hmap o (mem_outputs_of_output ho)

theorem layerDestroyed (h : s.SurfacesWf) (l : LayerSurface) : (s.layerDestroyed l).SurfacesWf := by
  rw [NullxesState.layerDestroyed]
  split
  · exact h
  next o ho =>
    refine h.setOutput fun l' hl' => ?_
    exact h.mapped o (mem_outputs_of_primary ho) l' (List.mem_filter.mp hl').1

theorem forgetLayer (h : s.SurfacesWf) (l : LayerSurface) : (s.forgetLayer l).SurfacesWf where
  alive_lt := h.alive_lt
  role_lt := h.role_lt
  dead := h.dead
  layer l' hl' := h.layer l' (List.mem_filter.mp hl').1
  mapped := h.mapped
  lock := h.lock

/-- Storing a lock that holds no surface yet, or none at all. -/
theorem setLock (h : s.SurfacesWf) {lock : Option LockSession}
    (hlock : ∀ l, lock = some l → ∀ x ∈ l.surfaces,
      s.compositorState.role x.wlSurface = some .lock) :
    ({ s with lock := lock } : NullxesState).SurfacesWf where
  alive_lt := h.alive_lt
  role_lt := h.role_lt
  dead := h.dead
  layer := h.layer
  mapped := h.mapped
  lock := hlock

theorem lockSession (h : s.SurfacesWf) (locker : SessionLocker) :
    (s.lockSession locker).SurfacesWf := by
  rw [NullxesState.lockSession]
  split
  · exact h.congr rfl rfl rfl rfl
  · have hempty : ({ s with lock := some ⟨locker, []⟩ } : NullxesState).SurfacesWf := by
      refine h.setLock fun l hl x hx => ?_
      cases hl
      cases hx
    exact hempty.of_rearranges (rearranges_nextSerial.trans (rearranges_setKeyboardFocus none))

theorem unlockSession (h : s.SurfacesWf) : s.unlockSession.SurfacesWf := by
  have hopen : ∀ es, ({ s with lock := none, effects := es } : NullxesState).SurfacesWf :=
    fun es => (h.setLock fun l hl => by cases hl).congr rfl rfl rfl rfl
  simp only [NullxesState.unlockSession]
  split
  · exact (hopen _).of_rearranges (rearranges_nextSerial.trans (rearranges_setKeyboardFocus _))
  · exact hopen _

theorem newLockSurface (h : s.SurfacesWf) {x : LockSurface}
    (hx : s.compositorState.role x.wlSurface = some .lock) (wlOutput : OutputId) :
    (s.newLockSurface x wlOutput).SurfacesWf := by
  rw [NullxesState.newLockSurface]
  split
  · exact h
  next l hl =>
    have hpush : ({ s with lock := some { l with surfaces := l.surfaces ++ [x] } } :
        NullxesState).SurfacesWf := by
      refine h.setLock fun l' hl' y hy => ?_
      cases hl'
      rcases List.mem_append.mp hy with hy | hy
      · exact h.lock l hl y hy
      · rwa [List.mem_singleton.mp hy]
    exact hpush.congr rfl rfl rfl rfl

/-- **Every event keeps the surfaces in order.** -/
theorem react (h : s.SurfacesWf) {e : Event} (he : s.Possible e) : (s.react e).SurfacesWf := by
  cases e with
  | createSurface client protocolId => exact h.createSurface client protocolId
  | commit surface data => exact h.commit he data
  | destroySurface surface => exact h.destroySurface surface
  | newToplevel surface =>
    have hreg : (s.registerToplevel surface).SurfacesWf :=
      (h.setRole he.1).congr rfl rfl rfl rfl
    exact hreg.of_rearranges (rearranges_newToplevel _)
  | toplevelDestroyed t =>
    have hforget : (s.forgetToplevel t).SurfacesWf := h.congr rfl rfl rfl rfl
    exact hforget.of_rearranges (rearranges_toplevelDestroyed _)
  | moveRequest t serial =>
    rcases s.moveRequest_cases t serial with heq | ⟨ptr, start, window, loc, -, -, -, -, heq⟩
    · rwa [NullxesState.react, heq]
    · rw [NullxesState.react, heq]
      exact h.congr rfl rfl rfl rfl
  | newLayerSurface surface layer out =>
    have hreg := h.registerLayer he.1 layer
    exact hreg.newLayerSurface (l := s.freshLayer surface layer)
      (role_setRole_self surface .layer) out
  | layerDestroyed l => exact (h.forgetLayer l).layerDestroyed l
  | lock client =>
    have hnext : ({ s with nextLocker := s.nextLocker + 1 } : NullxesState).SurfacesWf :=
      h.congr rfl rfl rfl rfl
    exact hnext.lockSession _
  | newLockSurface surface out =>
    exact (h.setRole he).newLockSurface (role_setRole_self surface .lock) out
  | unlock => exact h.unlockSession
  | input ev => exact h.of_rearranges (rearranges_processInputEvent ev)
  | ipc req disk => exact h.of_rearranges (rearranges_handleRequestOnMain req disk)
  | resized size =>
    simp only [NullxesState.react, NullxesState.resized]
    split
    · exact h
    next o ho => exact h.setOutput (h.mapped o (mem_outputs_of_primary ho))
  | signal => exact h.congr rfl rfl rfl rfl
  | pauseSession => exact h.congr rfl rfl rfl rfl
  | xwm ready => exact h.congr rfl rfl rfl rfl
  | redraw painted =>
    simp only [NullxesState.react, updatePanelBitmap]
    split <;> exact h.congr rfl rfl rfl rfl

end SurfacesWf

/-! ## Roles -/

/-- The roles there are after an event. -/
def roleAfter (s : NullxesState) : Event → WlSurface → Option Role
  | .newToplevel surface => Function.update s.compositorState.role surface (some .toplevel)
  | .newLayerSurface surface _ _ => Function.update s.compositorState.role surface (some .layer)
  | .newLockSurface surface _ => Function.update s.compositorState.role surface (some .lock)
  | _ => s.compositorState.role

theorem role_react (e : Event) : (s.react e).compositorState.role = s.roleAfter e := by
  cases e with
  | newToplevel surface =>
    rw [NullxesState.react, (rearranges_newToplevel _).compositorState_eq]
    rfl
  | toplevelDestroyed t =>
    rw [NullxesState.react, (rearranges_toplevelDestroyed _).compositorState_eq]
    rfl
  | moveRequest t serial =>
    rcases s.moveRequest_cases t serial with heq | ⟨ptr, start, window, loc, -, -, -, -, heq⟩ <;>
      rw [NullxesState.react, heq] <;> rfl
  | newLayerSurface surface layer out =>
    rcases out with _ | id <;> simp only [NullxesState.react, NullxesState.newLayerSurface] <;>
      split <;> rfl
  | layerDestroyed l =>
    simp only [NullxesState.react, NullxesState.layerDestroyed]
    split <;> rfl
  | lock client =>
    simp only [NullxesState.react, NullxesState.lockSession]
    split
    · rfl
    · rw [(rearranges_setKeyboardFocus none).compositorState_eq]
      rfl
  | newLockSurface surface out =>
    simp only [NullxesState.react, NullxesState.newLockSurface]
    split <;> rfl
  | unlock =>
    simp only [NullxesState.react, NullxesState.unlockSession]
    split
    · rw [(rearranges_setKeyboardFocus _).compositorState_eq]
      rfl
    · rfl
  | input ev => rw [NullxesState.react, (rearranges_processInputEvent ev).compositorState_eq]; rfl
  | ipc req disk =>
    rw [NullxesState.react, (rearranges_handleRequestOnMain req disk).compositorState_eq]
    rfl
  | resized size =>
    simp only [NullxesState.react, NullxesState.resized]
    split <;> rfl
  | redraw painted =>
    simp only [NullxesState.react, updatePanelBitmap]
    split <;> rfl
  | _ => rfl

/-- **A surface keeps its role.** -/
theorem role_keeps {e : Event} (he : s.Possible e) {x : WlSurface} {r : Role}
    (hr : s.compositorState.role x = some r) : (s.react e).compositorState.role x = some r := by
  rw [role_react]
  cases e with
  | newToplevel surface => exact SurfacesWf.role_setRole he.1 hr
  | newLayerSurface surface layer out => exact SurfacesWf.role_setRole he.1 hr
  | newLockSurface surface out => exact SurfacesWf.role_setRole he hr
  | _ => exact hr

end NullxesState

theorem World.surfacesWf_of_reachable {w : World} (h : frame.Reachable w) : w.state.SurfacesWf := by
  refine h.invariant (I := fun w => w.state.SurfacesWf) ?_ fun w e hw he => hw.react he
  rintro _ ⟨config, modes, keyboard, rfl⟩
  exact NullxesState.surfacesWf_new config modes keyboard

/-- The surfaces of toplevels, also of those that are gone, have their role. -/
theorem World.role_toplevel {w : World} (h : frame.Reachable w) {t : ToplevelSurface}
    (ht : w.desk.Known t) : w.state.compositorState.role t.wlSurface = some .toplevel := by
  refine (h.invariant (I := fun w => w.Wf ∧ ∀ t, w.desk.Known t →
    w.state.compositorState.role t.wlSurface = some .toplevel) ?_ ?_).2 t ht
  · rintro _ ⟨config, modes, keyboard, rfl⟩
    refine ⟨wf_boot config modes keyboard, fun t ht => ?_⟩
    rw [desk_boot] at ht
    rcases ht with ht | ht <;> cases ht
  · rintro w e ⟨hw, hrole⟩ he
    refine ⟨hw.step he, fun t ht => ?_⟩
    rcases (known_step hw he).mp ht with ht | ⟨loc, hcreate⟩
    · exact NullxesState.role_keeps he (hrole t ht)
    · obtain ⟨surface, rfl, rfl⟩ := NullxesState.deskAct_eq_create hcreate
      show (w.state.react (.newToplevel surface)).compositorState.role surface = some .toplevel
      rw [NullxesState.role_react]
      exact Function.update_self ..

/-- So have the surfaces of the windows that are mapped. -/
theorem World.role_window {w : World} (h : frame.Reachable w) {v : Window}
    (hv : v ∈ w.state.activeSpace) :
    w.state.compositorState.role v.toplevelSurface.wlSurface = some .toplevel := by
  have hw := wf_of_reachable h
  rw [hw.counts.activeSpace] at hv
  exact role_toplevel h (hw.desk.known _ v hv)

end Frame

end Nullxes
