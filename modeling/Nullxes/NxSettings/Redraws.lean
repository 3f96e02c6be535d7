import Mathlib.Tactic.Set
import Nullxes.Launcher.Redraws
import Nullxes.NxSettings.State

/-!
# What a redraw of the settings window does

`redraw` in one equation: it changes the pool and the `wl_shm` global, and commits what it has drawn
if the pool has a buffer for it. A key redraws whatever it does, a configure too, and nothing else.

## Main results

* `SettingsState.redraw_eq` — a redraw of a window that was configured
* `SettingsState.dispatch_cases` — what an event does to what the window is about
-/

namespace Nullxes

namespace Wlcommon

namespace ShmDoubleBuffer

variable {γ : Type} [Inhabited γ] {me : ShmDoubleBuffer γ} {shm : Shm}

/-- A pool that can be drawn into is painted into; what is handed over is what was painted. -/
theorem draw_of_canDraw (h : me.canDraw shm = true) (paint : γ → ℕ → UInt32 → UInt32 → γ) :
    ∃ pool drawn shm' old stride w height, me.draw shm paint = (.ok (pool, drawn), shm') ∧
      drawn.pixels = paint old stride w height := by
  rcases me.draw_cases shm paint with ⟨e, shm', herr, -⟩ | ⟨slot, shm', buf, -, -, -, hok⟩
  · exact absurd herr (not_error_of_canDraw h)
  · exact ⟨_, _, _, _, _, _, _, hok, rfl⟩

/-- Without a free buffer, and without room or memory for another, there is nothing to draw into. -/
theorem draw_of_not_canDraw (h : me.canDraw shm = false) (paint : γ → ℕ → UInt32 → UInt32 → γ) :
    ∃ e shm', me.draw shm paint = (.error e, shm') := by
  rw [canDraw, Bool.or_eq_false_iff] at h
  obtain ⟨hany, hroom⟩ := h
  have hnone : (me.buffers.findFinIdx? fun b => b.released) = none := by
    rw [List.findFinIdx?_eq_none_iff]
    intro b hb
    simpa using List.any_eq_false.mp hany b hb
  rw [draw, findFreeOrGrow]
  simp only [hnone]
  rw [allocateOne]
  by_cases hlen : me.buffers.length ≥ maxBuffers
  · rw [if_pos hlen]
    exact ⟨_, _, rfl⟩
  · rw [if_neg hlen]
    have hfailure : (shm.failure shm.attempted).isNone = false := by
      simpa [Nat.lt_of_not_le hlen] using hroom
    dsimp only
    cases hf : shm.failure shm.attempted with
    | none => simp [hf] at hfailure
    | some message => exact ⟨_, _, rfl⟩

/-- A pool cannot be made without memory for two buffers. -/
theorem new_eq_error {w h : UInt32}
    (hfailure : ((shm.failure shm.attempted).isNone &&
      (shm.failure (shm.attempted + 1)).isNone) = false) :
    ∃ e shm', (new shm w h : Except ClientError (ShmDoubleBuffer γ) × Shm) = (.error e, shm') := by
  have hlen : ¬ maxBuffers ≤ 0 := by decide
  have hlen' : ¬ maxBuffers ≤ 1 := by decide
  rcases hnew : (new shm w h : Except ClientError (ShmDoubleBuffer γ) × Shm) with ⟨e | pool, shm'⟩
  · exact ⟨e, shm', rfl⟩
  · cases hfirst : shm.failure shm.attempted with
    | some message => simp [new, allocateOne, hfirst, hlen] at hnew
    | none =>
      cases hsecond : shm.failure (shm.attempted + 1) with
      | some message => simp [new, allocateOne, push, hfirst, hsecond, hlen, hlen'] at hnew
      | none => simp [hfirst, hsecond] at hfailure

/-- A pool is made exactly where there is memory for two buffers, and can then be drawn into. -/
theorem new_cases (shm : Shm) (w h : UInt32) :
    (((shm.failure shm.attempted).isNone && (shm.failure (shm.attempted + 1)).isNone) = true ∧
        ∃ (pool : ShmDoubleBuffer γ) (shm' : Shm), new shm w h = (.ok pool, shm') ∧
          pool.canDraw { shm' with sent := [] } = true) ∨
      ((shm.failure shm.attempted).isNone && (shm.failure (shm.attempted + 1)).isNone) = false ∧
        ∃ e shm', (new shm w h : Except ClientError (ShmDoubleBuffer γ) × Shm) =
          (.error e, shm') := by
  cases hfree : ((shm.failure shm.attempted).isNone &&
      (shm.failure (shm.attempted + 1)).isNone) with
  | false => exact .inr ⟨rfl, new_eq_error hfree⟩
  | true =>
    rw [Bool.and_eq_true, Option.isNone_iff_eq_none, Option.isNone_iff_eq_none] at hfree
    rcases hnew : (new shm w h : Except ClientError (ShmDoubleBuffer γ) × Shm) with
      ⟨e | pool, shm'⟩
    · exact absurd hnew (new_ne_error hfree.1 hfree.2)
    · exact .inl ⟨rfl, pool, shm', rfl, canDraw_of_new hnew⟩

end ShmDoubleBuffer

end Wlcommon

namespace NxSettings

open Wlcommon

namespace SettingsState

variable (ctx : Context) (s : SettingsState)

/-- The state with another pool, and after these requests. -/
def redrawn (shm : Shm) (buffer : Option (ShmDoubleBuffer (Option Picture)))
    (made : List ShmRequest) (commit : List WlRequest) : SettingsState :=
  { s with
    shm := { shm with sent := [] }, buffer := buffer, sent := s.sent ++ made.map .shm ++ commit }

/-- There is a pool that can be drawn into, or memory to make one. -/
def canDraw : Bool :=
  match s.buffer with
  | some pool => pool.canDraw s.shm
  | none =>
    (s.shm.failure s.shm.attempted).isNone && (s.shm.failure (s.shm.attempted + 1)).isNone

/-- The request that commits a frame, with what is in it. -/
def frame : WlRequest → Option (Option Picture)
  | .attachAndCommit buffer => some buffer.pixels
  | _ => none

/-- What was committed last. -/
def lastFrame : Option Picture := (s.sent.filterMap frame).getLast?.bind id

variable {s}

/-- Nothing before the first configure. -/
theorem redraw_of_not_configured (hc : s.configured = false) (disk : FrameConfFile) :
    s.redraw ctx disk = s := by
  rw [redraw, hc]
  rfl

/-- Making a pool goes as `canDraw` says. -/
theorem pool_cases : s.canDraw = true ∧ (∃ pool shm, s.pool = (some pool, shm) ∧
      pool.canDraw { shm with sent := [] } = true) ∨
    s.canDraw = false ∧ ((∃ shm, s.pool = (none, shm)) ∨
      ∃ pool shm, s.pool = (some pool, shm) ∧ pool.canDraw { shm with sent := [] } = false) := by
  rw [canDraw, pool]
  cases hb : s.buffer with
  | some pool =>
    dsimp only
    cases hd : pool.canDraw s.shm with
    | true => exact .inl ⟨rfl, pool, s.shm, rfl, hd⟩
    | false => exact .inr ⟨rfl, .inr ⟨pool, s.shm, rfl, hd⟩⟩
  | none =>
    dsimp only
    rcases ShmDoubleBuffer.new_cases (γ := Option Picture) s.shm s.width s.height with
      ⟨hfree, pool, shm', hnew, hdraw⟩ | ⟨hfree, e, shm', hnew⟩
    · exact .inl ⟨hfree, pool, shm', by rw [hnew], hdraw⟩
    · exact .inr ⟨hfree, .inl ⟨shm', by rw [hnew]⟩⟩

/-- **A redraw** commits a picture of the window as it is, unless there is no buffer for it. -/
theorem redraw_eq (hc : s.configured = true) (hs : s.surface = true) (disk : FrameConfFile) :
    ∃ shm buffer made commit, s.redraw ctx disk = s.redrawn shm buffer made commit ∧
      (s.canDraw = false ∧ commit = [] ∨
        s.canDraw = true ∧ ∃ drawn picture, commit = [.attachAndCommit drawn] ∧
          drawn.pixels = some picture ∧ picture.ui = s.ui) := by
  rcases pool_cases (s := s) with
    ⟨hd, pool, shm, hp, hdraw⟩ | ⟨hd, ⟨shm, hp⟩ | ⟨pool, shm, hp, hdraw⟩⟩
  · set t := { s.setShm shm with buffer := some pool }
    obtain ⟨pool', drawn, shm', old, stride, w, height, hok, hpixels⟩ :=
      ShmDoubleBuffer.draw_of_canDraw hdraw (t.picture ctx disk)
    refine ⟨shm', some pool', shm.sent ++ shm'.sent, [.attachAndCommit drawn], ?_,
      .inr ⟨hd, drawn, _, rfl, hpixels, rfl⟩⟩
    rw [redraw]
    dsimp only
    rw [if_neg (by rw [hc]; decide), hp]
    dsimp only
    rw [show pool.draw t.shm (t.picture ctx disk) = _ from hok]
    simp [redrawn, setShm, request, hs]
  · refine ⟨shm, none, shm.sent, [], ?_, .inl ⟨hd, rfl⟩⟩
    rw [redraw]
    simp [hc, hp, redrawn, setShm]
  · set t := { s.setShm shm with buffer := some pool }
    obtain ⟨e, shm', herr⟩ := ShmDoubleBuffer.draw_of_not_canDraw hdraw (t.picture ctx disk)
    refine ⟨shm', some pool, shm.sent ++ shm'.sent, [], ?_, .inl ⟨hd, rfl⟩⟩
    rw [redraw]
    dsimp only
    rw [if_neg (by rw [hc]; decide), hp]
    dsimp only
    rw [show pool.draw t.shm (t.picture ctx disk) = _ from herr]
    simp [redrawn, setShm]

/-- The window, its tasks and what is on the screen are the same. -/
structure Same (s t : SettingsState) : Prop where
  ui : t.ui = s.ui
  tasks : t.tasks = s.tasks
  configured : t.configured = s.configured
  surface : t.surface = s.surface
  lastFrame : t.lastFrame = s.lastFrame

theorem Same.rfl : s.Same s := ⟨.refl _, .refl _, .refl _, .refl _, .refl _⟩

theorem same_request {r : WlRequest} (hr : frame r = none) (keyboard : Bool) :
    s.Same { s.request r with keyboard := keyboard } := by
  refine ⟨.refl _, .refl _, .refl _, .refl _, ?_⟩
  simp [lastFrame, request, hr]

variable (s) in
/-- The window before the redraw of a configure. -/
def acked (serial : UInt32) : SettingsState :=
  { s.request (.ackConfigure serial) with configured := true }

variable (s) in
/-- What a key press stands for, if anything. -/
def action : WindowEvent → Option Action
  | .key key true _ =>
    match s.keymap.processKey key with
    | .action a => some a
    | _ => none
  | _ => none

/-- **What an event does.** A configure redraws the window, and so does every action. -/
theorem dispatch_cases (e : WindowEvent) :
    s.Same (s.dispatch ctx e) ∧ s.action e = none ∧ (∀ serial disk, e ≠ .configure serial disk) ∨
      (∃ serial disk, e = .configure serial disk ∧
        s.dispatch ctx e = (s.acked serial).redraw ctx disk) ∨
      ∃ a disk, s.action e = some a ∧ (∀ serial disk, e ≠ .configure serial disk) ∧
        s.dispatch ctx e = (s.act a).redraw ctx disk := by
  cases e with
  | configure serial disk => exact .inr (.inl ⟨serial, disk, rfl, rfl⟩)
  | key key pressed disk =>
    rw [dispatch, dispatchKey]
    cases pressed with
    | false =>
      rw [if_neg (by decide)]
      exact .inl ⟨.rfl, by simp [action], fun _ _ h => nomatch h⟩
    | true =>
      rw [if_pos rfl]
      cases hkey : s.keymap.processKey key with
      | action a =>
        refine .inr (.inr ⟨a, disk, by simp only [action, hkey], fun _ _ h => ?_, rfl⟩)
        cases h
      | text text => exact .inl ⟨.rfl, by simp only [action, hkey], fun _ _ h => nomatch h⟩
      | none => exact .inl ⟨.rfl, by simp only [action, hkey], fun _ _ h => nomatch h⟩
  | ping serial => exact .inl ⟨same_request rfl s.keyboard, rfl, fun _ _ h => nomatch h⟩
  | capabilities keyboard =>
    refine .inl ⟨?_, rfl, fun _ _ h => nomatch h⟩
    rw [dispatch, dispatchCapabilities]
    split
    · exact same_request rfl true
    · exact .rfl
  | keymap xkbV1 loaded =>
    refine .inl ⟨?_, rfl, fun _ _ h => nomatch h⟩
    rw [dispatch]
    split <;> exact ⟨.refl _, .refl _, .refl _, .refl _, .refl _⟩
  | close | modifiers mods | release wlBuf | other =>
    exact .inl ⟨⟨.refl _, .refl _, .refl _, .refl _, .refl _⟩, rfl, fun _ _ h => nomatch h⟩

/-- A redraw changes neither what the window is about nor its tasks. -/
theorem redraw_keeps (disk : FrameConfFile) : (s.redraw ctx disk).ui = s.ui ∧
    (s.redraw ctx disk).tasks = s.tasks ∧ (s.redraw ctx disk).configured = s.configured ∧
    (s.redraw ctx disk).surface = s.surface ∧
    (s.redraw ctx disk).shouldClose = s.shouldClose := by
  rw [redraw]
  split
  · exact ⟨rfl, rfl, rfl, rfl, rfl⟩
  · dsimp only
    split
    · exact ⟨rfl, rfl, rfl, rfl, rfl⟩
    · split
      · exact ⟨rfl, rfl, rfl, rfl, rfl⟩
      · split <;> exact ⟨rfl, rfl, rfl, rfl, rfl⟩

/-- Only `Enter` starts a task and sets the status. -/
theorem tasks_dispatch (e : WindowEvent) :
    (s.dispatch ctx e).tasks = s.tasks ∧ (s.dispatch ctx e).ui.status = s.ui.status ∨
      (s.dispatch ctx e).tasks = s.tasks ++ [.spawned] ∧
        (s.dispatch ctx e).ui.status = some reloading := by
  rcases dispatch_cases ctx (s := s) e with
    ⟨hsame, -, -⟩ | ⟨serial, disk, -, heq⟩ | ⟨a, disk, -, -, heq⟩
  · exact .inl ⟨hsame.tasks, by rw [hsame.ui]⟩
  · obtain ⟨hui, htasks, -⟩ := redraw_keeps ctx (s := s.acked serial) disk
    rw [heq, hui, htasks]
    exact .inl ⟨rfl, rfl⟩
  · obtain ⟨hui, htasks, -⟩ := redraw_keeps ctx (s := s.act a) disk
    rw [heq, hui, htasks]
    cases a with
    | enter => exact .inr ⟨rfl, rfl⟩
    | _ => exact .inl ⟨rfl, rfl⟩

/-! ## On the screen -/

variable (s) in
/-- What was committed last shows the window as it is, once anything was. -/
def UpToDate : Prop := s.configured = true → s.lastFrame.map Picture.ui = some s.ui

variable (s) in
/-- After the event the screen shows the window: it is redrawn, or there is nothing new to show. -/
def Shows (e : WindowEvent) : Prop :=
  (∀ a, s.action e = some a → s.configured = true →
    s.canDraw = true ∨ (s.act a).ui = s.ui) ∧
  ∀ serial disk, e = .configure serial disk → s.configured = true ∨ s.canDraw = true

theorem UpToDate.same {t : SettingsState} (hs : s.Same t) : t.UpToDate ↔ s.UpToDate := by
  rw [UpToDate, UpToDate, hs.configured, hs.lastFrame, hs.ui]

theorem upToDate_redraw (hc : s.configured = true) (hs : s.surface = true)
    (disk : FrameConfFile) : (s.redraw ctx disk).UpToDate ↔
      s.canDraw = true ∨ s.lastFrame.map Picture.ui = some s.ui := by
  obtain ⟨hui, -, hconf, -⟩ := redraw_keeps ctx (s := s) disk
  rw [UpToDate, hui, hconf, hc]
  obtain ⟨shm, buffer, made, commit, heq, hcases⟩ := redraw_eq ctx hc hs disk
  rcases hcases with ⟨hd, rfl⟩ | ⟨hd, drawn, picture, rfl, hpixels, hpicture⟩
  · have hlast : (s.redraw ctx disk).lastFrame = s.lastFrame := by
      simp [heq, redrawn, lastFrame, List.filterMap_map, Function.comp_def, frame]
    simp [hlast, hd]
  · have hlast : (s.redraw ctx disk).lastFrame = some picture := by
      simp [heq, redrawn, lastFrame, frame, hpixels, List.filterMap_append]
    simp [hlast, hd, hpicture]

theorem act_canDraw (a : Action) : (s.act a).canDraw = s.canDraw ∧
    (s.act a).lastFrame = s.lastFrame ∧ (s.act a).configured = s.configured ∧
    (s.act a).surface = s.surface := by
  cases a <;> exact ⟨rfl, rfl, rfl, rfl⟩

variable (s) in
/-- The window has its surface, and nothing is committed before the first configure. -/
structure Started : Prop where
  surface : s.surface = true
  blank : s.configured = false → s.lastFrame = none

theorem Started.same {t : SettingsState} (h : s.Started) (hs : s.Same t) : t.Started :=
  ⟨hs.surface.trans h.surface, fun hc => hs.lastFrame.trans (h.blank (hs.configured ▸ hc))⟩

theorem Started.dispatch (h : s.Started) (e : WindowEvent) : (s.dispatch ctx e).Started := by
  rcases dispatch_cases ctx (s := s) e with
    ⟨hsame, -, -⟩ | ⟨serial, disk, -, heq⟩ | ⟨a, disk, -, -, heq⟩
  · exact h.same hsame
  · obtain ⟨-, -, hconf, hsurface, -⟩ := redraw_keeps ctx (s := s.acked serial) disk
    rw [heq]
    refine ⟨hsurface.trans h.surface, fun hc => ?_⟩
    rw [hconf] at hc
    cases hc
  · obtain ⟨-, -, hconf, hsurface, -⟩ := redraw_keeps ctx (s := s.act a) disk
    obtain ⟨-, hlast, hconf', hsurface'⟩ := act_canDraw (s := s) a
    rw [heq]
    refine ⟨hsurface.trans (hsurface'.trans h.surface), fun hc => ?_⟩
    rw [hconf] at hc
    rw [redraw_of_not_configured ctx hc, hlast]
    exact h.blank (hconf' ▸ hc)

/-- **One event.** -/
theorem UpToDate.dispatch_iff (h : s.UpToDate) (hs : s.Started) (e : WindowEvent) :
    (s.dispatch ctx e).UpToDate ↔ s.Shows e := by
  rcases dispatch_cases ctx (s := s) e with
    ⟨hsame, hno, hne⟩ | ⟨serial, disk, rfl, heq⟩ | ⟨a, disk, ha, hne, heq⟩
  · rw [UpToDate.same hsame]
    refine iff_of_true h ⟨fun a ha => ?_, fun serial disk he => absurd he (hne serial disk)⟩
    rw [hno] at ha
    cases ha
  · have hlast : (s.acked serial).lastFrame = s.lastFrame :=
      (same_request rfl s.keyboard).lastFrame
    rw [heq, upToDate_redraw ctx (s := s.acked serial) rfl hs.surface, hlast]
    have hshows : s.Shows (.configure serial disk) ↔ s.configured = true ∨ s.canDraw = true :=
      ⟨fun hor => hor.2 serial disk rfl, fun hor => ⟨fun _ ha => (nomatch ha), fun _ _ _ => hor⟩⟩
    have hdraw : (s.acked serial).canDraw = s.canDraw := rfl
    have hui : (s.acked serial).ui = s.ui := rfl
    rw [hshows, hdraw, hui]
    cases hc : s.configured with
    | true => simp [h hc]
    | false => simp [hs.blank hc]
  · obtain ⟨hdraw, hlast, hconf, hsurface⟩ := act_canDraw (s := s) a
    have hshows : s.Shows e ↔
        (s.configured = true → s.canDraw = true ∨ (s.act a).ui = s.ui) := by
      refine ⟨fun hor => hor.1 a ha, fun hor => ⟨fun a' ha' => ?_, fun serial disk he =>
        absurd he (hne serial disk)⟩⟩
      obtain rfl := Option.some.inj (ha.symm.trans ha')
      exact hor
    rw [heq, hshows]
    cases hc : s.configured with
    | false =>
      rw [redraw_of_not_configured ctx (hconf.trans hc)]
      refine iff_of_true (fun hc' => ?_) nofun
      rw [hconf, hc] at hc'
      cases hc'
    | true =>
      rw [upToDate_redraw ctx (hconf.trans hc) (hsurface.trans hs.surface), hdraw, hlast, h hc,
        Option.some.injEq, eq_comm (a := s.ui)]
      exact ⟨fun hor _ => hor, fun hor => hor rfl⟩

end SettingsState

end NxSettings

end Nullxes
