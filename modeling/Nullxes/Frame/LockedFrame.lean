import Mathlib.Data.Fintype.EquivFin
import Nullxes.Frame.Render
import Nullxes.Frame.Surfaces

/-!
# The frame while the session is locked

`collect_elements` pushes the lock surfaces last, and the list is drawn front to back, so the lock
is behind everything: the background layers are topmost, and the lock shows only where no element of
the session covers it. The comment beside the last group ("the lock buffer covers everything else
visually") describes the opposite order.

The frame of a locked output is therefore never a function of the lock alone. From any state, a
client that may still do what clients do while the session is locked can paint the whole output in
any colour.

## Main results

* `NullxesState.composedFrame_of_uncovered` — where the lock is visible
* `exists_plated` — the output can be painted in any opaque colour without touching the lock
* `frameFixed_iff` — the lock fixes the frame of an output only if the output has no pixel
-/

namespace Nullxes

namespace Frame

/-- The pixels of an output of this size. -/
def OnOutput (size p : Point ℤ) : Prop := 0 ≤ p.1 ∧ p.1 < size.1 ∧ 0 ≤ p.2 ∧ p.2 < size.2

instance (size p : Point ℤ) : Decidable (OnOutput size p) :=
  inferInstanceAs (Decidable (_ ∧ _ ∧ _ ∧ _))

theorem not_onOutput_iff {size : Point ℤ} :
    (∀ p, ¬ OnOutput size p) ↔ size.1 ≤ 0 ∨ size.2 ≤ 0 := by
  constructor
  · intro h
    have horigin : ¬ (0 < size.1 ∧ 0 < size.2) := fun hpos =>
      h (0, 0) ⟨le_refl 0, hpos.1, le_refl 0, hpos.2⟩
    omega
  · rintro hsize p ⟨hx, hx', hy, hy'⟩
    omega

/-- A buffer in one colour. -/
def Buffer.plain (size : Point ℤ) (c : Rgba) : Buffer :=
  ⟨size.1.toNat, size.2.toNat, fun _ _ => c⟩

/-- A surface that is one plain buffer. -/
def plate (size : Point ℤ) (c : Rgba) : SurfaceData where
  tree := [((0, 0), .plain size c)]
  under _ := none
  bbox := ⟨(0, 0), size⟩
  layerLoc := (0, 0)

theorem Rgba.over_of_opaque {c : Rgba} (h : c.a = 1) (d : Rgba) : c.over d = c := by
  obtain ⟨r, g, b, a⟩ := c
  obtain rfl : a = 1 := h
  simp [Rgba.over]

/-- A plain opaque buffer of the output's size hides what is behind it. -/
theorem ink_plain {size p : Point ℤ} {c : Rgba} (hc : c.a = 1) (hp : OnOutput size p) (d : Rgba) :
    (⟨(0, 0), .plain size c⟩ : RenderElement).ink p d = c := by
  obtain ⟨hx, hx', hy, hy'⟩ := hp
  have hcovers : (⟨(0, 0), .plain size c⟩ : RenderElement).Covers p := by
    simp only [RenderElement.Covers, Buffer.plain]
    omega
  rw [RenderElement.ink, if_pos hcovers]
  exact Rgba.over_of_opaque hc d

namespace NullxesState

variable {s s' s'' : NullxesState} {o : Output} {l : LockSession}

/-- What is drawn of the session, in front of the lock. -/
def sessionElements (s : NullxesState) (o : Output) : List RenderElementVariant :=
  s.layerElements o .background ++ s.layerElements o .bottom ++ s.spaceElements o s.activeSpace ++
    s.layerElements o .top ++ s.layerElements o .overlay ++ s.panelElements o

/-- The image of the lock surfaces over the clear colour. -/
def lockImage (s : NullxesState) : Point ℤ → Rgba := renderOutput s.lockElements

/-- **Where the lock is visible.** At a pixel no element of the session covers. -/
theorem composedFrame_of_uncovered {p : Point ℤ}
    (h : ∀ e ∈ s.sessionElements o, ¬ e.element.Covers p) :
    s.composedFrame o p = s.lockImage p := by
  have hclear : ∀ e ∈ (s.sessionElements o).map fun e => e.element.ink,
      Compositing.Clear e p := by
    intro e he c
    obtain ⟨v, hv, rfl⟩ := List.mem_map.mp he
    exact if_neg (h v hv)
  have hsplit : s.collectElements o = s.sessionElements o ++ s.lockElements := rfl
  rw [composedFrame, renderOutput, hsplit, List.map_append, Compositing.compose_append,
    Compositing.compose_of_clear hclear]
  rfl

/-- The last background layer is opaque and as large as the output, and the others show nothing:
the frame has its colour everywhere. -/
theorem composedFrame_of_plate {ls : List LayerSurface} {x : LayerSurface} {size p : Point ℤ}
    {c : Rgba} (hsplit : o.layersOn .background = ls ++ [x])
    (hblank : ∀ y ∈ ls, s.surfaceData y.wlSurface = SurfaceData.initial)
    (hplate : s.surfaceData x.wlSurface = plate size c) (hc : c.a = 1) (hp : OnOutput size p) :
    s.composedFrame o p = c := by
  have hnone : ls.flatMap (fun layer => ((s.surfaceData layer.wlSurface).renderElements
      (s.surfaceData layer.wlSurface).layerLoc).map RenderElementVariant.surface) = [] := by
    rw [List.flatMap_eq_nil_iff]
    intro y hy
    rw [hblank y hy]
    rfl
  have hbackground : s.layerElements o .background = [.surface ⟨(0, 0), .plain size c⟩] := by
    rw [layerElements, hsplit, List.flatMap_append, hnone, List.nil_append,
      List.flatMap_singleton, hplate]
    rfl
  rw [composedFrame, renderOutput, collectElements, hbackground]
  simp only [List.append_assoc, List.cons_append, List.nil_append, List.map_cons,
    Compositing.compose_cons]
  exact ink_plain hc hp _

/-- `s'` holds the lock `l`, and its surfaces show what they show in `s`. -/
def SameLock (l : LockSession) (s s' : NullxesState) : Prop :=
  s'.lock = some l ∧ ∀ x ∈ l.surfaces, s'.surfaceData x.wlSurface = s.surfaceData x.wlSurface

namespace SameLock

theorem refl (h : s.lock = some l) : SameLock l s s := ⟨h, fun _ _ => rfl⟩

theorem trans (h : SameLock l s s') (h' : SameLock l s' s'') : SameLock l s s'' :=
  ⟨h'.1, fun x hx => (h'.2 x hx).trans (h.2 x hx)⟩

/-- What is committed to a layer surface does not change the lock. -/
theorem commit (hs : s.SurfacesWf) (h : s.lock = some l) {x : WlSurface}
    (hx : s.compositorState.role x = some .layer) (data : SurfaceData) :
    SameLock l s (s.commit x data) := by
  refine ⟨h, fun y hy => ?_⟩
  have hne : y.wlSurface ≠ x := by
    intro heq
    have hrole := hs.lock l h y hy
    rw [heq, hx] at hrole
    cases hrole
  exact Function.update_of_ne hne ..

end SameLock

theorem output_setOutput {o₀ : Output} (h : s.output o.id = some o₀) :
    (s.setOutput o).output o.id = some o := by
  have hid : ∀ o' : Output, (if o'.id = o.id then o else o').id = o'.id := by
    intro o'
    split
    next heq => exact heq.symm
    next => rfl
  rw [output, setOutput, List.find?_map]
  have hsame : ((fun o' : Output => decide (o'.id = o.id)) ∘
      fun o' => if o'.id = o.id then o else o') = fun o' => decide (o'.id = o.id) := by
    funext o'
    simp only [Function.comp_apply, hid]
  rw [output] at h
  rw [hsame, h]
  have hfound : o₀.id = o.id := by simpa using List.find?_some h
  simp [hfound]

end NullxesState

open NullxesState

variable {w : World} {o : Output} {l : LockSession} {size : Point ℤ}

/-- The layers of a list can all be emptied. -/
theorem exists_blank (hw : frame.Reachable w) (hl : w.state.lock = some l)
    {ls : List LayerSurface}
    (hls : ∀ x ∈ ls, w.state.compositorState.role x.wlSurface = some .layer) :
    ∃ w', frame.Reachable w' ∧ SameLock l w.state w'.state ∧
      w'.state.outputs = w.state.outputs ∧
      w'.state.compositorState.role = w.state.compositorState.role ∧
      ∀ x ∈ ls, w'.state.surfaceData x.wlSurface = SurfaceData.initial := by
  induction ls with
  | nil => exact ⟨w, hw, .refl hl, rfl, rfl, fun x hx => by cases hx⟩
  | cons x ls ih =>
    obtain ⟨w', hw', hsame, houtputs, hrole, hblank⟩ :=
      ih fun y hy => hls y (List.mem_cons_of_mem x hy)
    have hwf := World.surfacesWf_of_reachable hw'
    by_cases halive : x.wlSurface ∈ w'.state.compositorState.alive
    · have hx : w'.state.compositorState.role x.wlSurface = some .layer := by
        rw [hrole]
        exact hls x (by simp)
      refine ⟨w'.step (.commit x.wlSurface SurfaceData.initial), hw'.step halive,
        hsame.trans (.commit hwf hsame.1 hx _), houtputs, hrole, fun y hy => ?_⟩
      show Function.update w'.state.compositorState.data x.wlSurface SurfaceData.initial
        y.wlSurface = SurfaceData.initial
      rw [Function.update_apply]
      split
      next => rfl
      next hne =>
        rcases List.mem_cons.mp hy with rfl | hy
        · exact absurd rfl hne
        · exact hblank y hy
    · refine ⟨w', hw', hsame, houtputs, hrole, fun y hy => ?_⟩
      rcases List.mem_cons.mp hy with rfl | hy
      · exact hwf.dead _ halive
      · exact hblank y hy

theorem exists_idFree (s : NullxesState) (protocolId : UInt32) :
    ∃ client, s.IdFree client protocolId := by
  obtain ⟨client, hclient⟩ := Infinite.exists_notMem_finset
    (s.compositorState.alive.map WlSurface.client ++
      s.xdgShellState.toplevels.map fun t => t.wlSurface.client).toFinset
  simp only [List.mem_toFinset, List.mem_append, List.mem_map, not_or, not_exists, not_and]
    at hclient
  exact ⟨client, fun x hx heq => absurd heq (hclient.1 x hx),
    fun t ht heq => absurd heq (hclient.2 t ht)⟩

/-- A client can add a background layer to an output. -/
theorem exists_newLayer (hw : frame.Reachable w) (hl : w.state.lock = some l)
    (ho : w.state.output o.id = some o) :
    ∃ w' x, frame.Reachable w' ∧ SameLock l w.state w'.state ∧
      w'.state.output o.id = some { o with layerMap := o.layerMap ++ [x] } ∧
      x.layer = .background ∧ x.wlSurface ∈ w'.state.compositorState.alive ∧
      w.state.compositorState.role x.wlSurface = none ∧
      w'.state.compositorState.role x.wlSurface = some .layer ∧
      w'.state.surfaceData = w.state.surfaceData := by
  have hwf := World.surfacesWf_of_reachable hw
  obtain ⟨client, hfree⟩ := exists_idFree w.state 12
  let surface := w.state.freshSurface client 12
  have hnew : w.state.compositorState.role surface = none := by
    by_contra hrole
    exact Nat.lt_irrefl _ (hwf.role_lt surface hrole)
  let w₁ := w.step (.createSurface client 12)
  have hw₁ : frame.Reachable w₁ := hw.step hfree
  have hpossible : w₁.state.Possible (.newLayerSurface surface .background (some o.id)) := by
    refine ⟨⟨List.mem_cons_self, .inl hnew⟩, fun y hy heq => ?_⟩
    have hrole := hwf.layer y hy
    rw [heq, hnew] at hrole
    cases hrole
  let x := w₁.state.freshLayer surface .background
  have ho₁ : (w₁.state.registerLayer surface .background).output o.id = some o := ho
  have hreact : w₁.state.react (.newLayerSurface surface .background (some o.id)) =
      (w₁.state.registerLayer surface .background).setOutput
        { o with layerMap := o.layerMap ++ [x] } := by
    simp only [react, newLayerSurface, ho₁]
    rfl
  refine ⟨w₁.step (.newLayerSurface surface .background (some o.id)), x, hw₁.step hpossible, ?_⟩
  rw [World.step, hreact]
  refine ⟨⟨hl, fun _ _ => rfl⟩, output_setOutput (o := { o with layerMap := _ }) ho₁, rfl,
    List.mem_cons_self, hnew, SurfacesWf.role_setRole_self surface .layer, rfl⟩

/-- **A client can paint a locked output.** In any opaque colour, and without touching the lock. -/
theorem exists_plated (hw : frame.Reachable w) (hl : w.state.lock = some l)
    (ho : w.state.output o.id = some o) (hm : o.currentMode = some size) {c : Rgba}
    (hc : c.a = 1) :
    ∃ w' o', frame.Reachable w' ∧ SameLock l w.state w'.state ∧ w'.state.output o.id = some o' ∧
      o'.currentMode = some size ∧ ∀ p, OnOutput size p → w'.state.composedFrame o' p = c := by
  have hlayers : ∀ y ∈ o.layersOn .background,
      w.state.compositorState.role y.wlSurface = some .layer := fun y hy =>
    (World.surfacesWf_of_reachable hw).mapped o (SurfacesWf.mem_outputs_of_output ho) y
      (List.mem_filter.mp hy).1
  obtain ⟨w₁, hw₁, hsame₁, houtputs, hrole₁, hblank⟩ := exists_blank hw hl hlayers
  have ho₁ : w₁.state.output o.id = some o := by
    rw [output, houtputs]
    exact ho
  obtain ⟨w₂, x, hw₂, hsame₂, ho₂, hbackground, halive, hnew, hrole₂, hdata⟩ :=
    exists_newLayer hw₁ hsame₁.1 ho₁
  refine ⟨w₂.step (.commit x.wlSurface (plate size c)), { o with layerMap := o.layerMap ++ [x] },
    hw₂.step halive, ?_, ho₂, hm, fun p hp => ?_⟩
  · exact (hsame₁.trans hsame₂).trans
      (.commit (World.surfacesWf_of_reachable hw₂) hsame₂.1 hrole₂ _)
  · have hsplit : ({ o with layerMap := o.layerMap ++ [x] } : Output).layersOn .background =
        o.layersOn .background ++ [x] := by
      simp [Output.layersOn, hbackground]
    refine composedFrame_of_plate hsplit (fun y hy => ?_) (Function.update_self ..) hc hp
    have hne : y.wlSurface ≠ x.wlSurface := by
      intro heq
      have hrole := hlayers y hy
      rw [← hrole₁, heq, hnew] at hrole
      cases hrole
    have hkeep : (w₂.step (.commit x.wlSurface (plate size c))).state.surfaceData y.wlSurface =
        w₂.state.surfaceData y.wlSurface := Function.update_of_ne hne ..
    rw [hkeep, hdata]
    exact hblank y hy

/-- The lock alone decides the frame of the output `o` of `w`: whatever else the session shows, in
every state with the same lock and the same mode the frame is the same. -/
def FrameFixed (w : World) (l : LockSession) (o : Output) (size : Point ℤ) : Prop :=
  ∀ w' o', frame.Reachable w' → SameLock l w.state w'.state → w'.state.output o.id = some o' →
    o'.currentMode = some size → ∀ p, OnOutput size p →
      w'.state.composedFrame o' p = w.state.composedFrame o p

/-- **The lock fixes the frame of no output that has a pixel**, whatever its surfaces show and
however many there are. -/
theorem frameFixed_iff (hw : frame.Reachable w) (hl : w.state.lock = some l)
    (ho : w.state.output o.id = some o) (hm : o.currentMode = some size) :
    FrameFixed w l o size ↔ size.1 ≤ 0 ∨ size.2 ≤ 0 := by
  rw [← not_onOutput_iff]
  constructor
  · intro hfixed p hp
    have hframe : ∀ c : Rgba, c.a = 1 → w.state.composedFrame o p = c := by
      intro c hc
      obtain ⟨w', o', hw', hsame, ho', hm', hplated⟩ := exists_plated hw hl ho hm hc
      rw [← hfixed w' o' hw' hsame ho' hm' p hp]
      exact hplated p hp
    have hblack := hframe ⟨0, 0, 0, 1⟩ rfl
    have hwhite := hframe ⟨1, 1, 1, 1⟩ rfl
    rw [hblack] at hwhite
    exact absurd (congrArg Rgba.r hwhite) (by norm_num)
  · intro hnone w' o' _ _ _ _ p hp
    exact absurd hp (hnone p)

/-! ## Two runs -/

/-- Every surface of the lock is one opaque buffer of the output's size. -/
def NullxesState.LockCovers (s : NullxesState) (l : LockSession) (size : Point ℤ) : Prop :=
  ∀ x ∈ l.surfaces, ∃ b : Buffer, (s.surfaceData x.wlSurface).tree = [((0, 0), b)] ∧
    (b.width : ℤ) = size.1 ∧ (b.height : ℤ) = size.2 ∧ ∀ i j, (b.pixel i j).a = 1

/-- A client shows a dark or a light window, and the session is locked by a client with one black
lock surface. -/
def lockedOver (light : Bool) : List Event :=
  [.createSurface 0 12, .newToplevel ⟨0, 12, 0⟩,
    .commit ⟨0, 12, 0⟩ (plate (300, 200) (if light then ⟨1, 1, 1, 1⟩ else ⟨1 / 5, 0, 0, 1⟩)),
    .createSurface 7 12, .lock 7, .newLockSurface ⟨7, 12, 1⟩ 0,
    .commit ⟨7, 12, 1⟩ (plate (1920, 1080) ⟨0, 0, 0, 1⟩)]

/-- The state it leads to. -/
def lockedDesk (light : Bool) : World := frame.run World.desktop (lockedOver light)

/-- The lock of that state. -/
def blackLock : LockSession := ⟨⟨7, 0⟩, [⟨⟨7, 12, 1⟩⟩]⟩

/-- The output of that state. -/
def loneOutput : Output := ⟨0, some (1920, 1080), []⟩

theorem reachable_lockedDesk (light : Bool) : frame.Reachable (lockedDesk light) := by
  have hlegal : ∀ light, frame.Legal World.desktop (lockedOver light) := by decide +kernel
  exact (EventMachine.Reachable.init init_desktop).run (hlegal light)

theorem lock_lockedDesk (light : Bool) : (lockedDesk light).state.lock = some blackLock := rfl

theorem output_lockedDesk (light : Bool) :
    (lockedDesk light).state.output loneOutput.id = some loneOutput := rfl

theorem surfaceData_lockedDesk (light : Bool) :
    (lockedDesk light).state.surfaceData ⟨7, 12, 1⟩ = plate (1920, 1080) ⟨0, 0, 0, 1⟩ := rfl

theorem frameFixed_iff_lockedDesk :
    FrameFixed (lockedDesk false) blackLock loneOutput (1920, 1080) ↔
      (1920 : ℤ) ≤ 0 ∨ (1080 : ℤ) ≤ 0 :=
  frameFixed_iff (reachable_lockedDesk false) (lock_lockedDesk false) (output_lockedDesk false) rfl

/-- Two windows of different colours, under one and the same opaque lock surface of the output's
size, give two different frames. -/
theorem lockedDesk_frames_differ :
    ¬ ∀ (w w' : World) (l : LockSession) (o o' : Output) (size : Point ℤ),
      frame.Reachable w → frame.Reachable w' → w.state.lock = some l →
      SameLock l w.state w'.state → w.state.LockCovers l size →
      w.state.output o.id = some o → w'.state.output o.id = some o' →
      o.currentMode = some size → o'.currentMode = some size →
      ∀ p, OnOutput size p → w'.state.composedFrame o' p = w.state.composedFrame o p := by
  intro h
  have hcovers : (lockedDesk false).state.LockCovers blackLock (1920, 1080) := by
    intro x hx
    obtain rfl := List.mem_singleton.mp hx
    exact ⟨.plain (1920, 1080) ⟨0, 0, 0, 1⟩, by rw [surfaceData_lockedDesk]; rfl, rfl, rfl,
      fun _ _ => rfl⟩
  have hsame : SameLock blackLock (lockedDesk false).state (lockedDesk true).state := by
    refine ⟨lock_lockedDesk true, fun x hx => ?_⟩
    obtain rfl := List.mem_singleton.mp hx
    rw [surfaceData_lockedDesk, surfaceData_lockedDesk]
  have hframes := h (lockedDesk false) (lockedDesk true) blackLock loneOutput loneOutput
    (1920, 1080) (reachable_lockedDesk false) (reachable_lockedDesk true) (lock_lockedDesk false)
    hsame hcovers (output_lockedDesk false) (output_lockedDesk true) rfl rfl (600, 400)
    (by decide)
  have hdiffer : (lockedDesk true).state.composedFrame loneOutput (600, 400) ≠
      (lockedDesk false).state.composedFrame loneOutput (600, 400) := by decide +kernel
  exact hdiffer hframes

end Frame

end Nullxes
