import Nullxes.Launcher.Selection

/-!
# Redraws that are refused

A redraw that finds no buffer is given up: nothing remembers it, and a `Release` only marks its
buffer. Until something else is edited, the screen shows the query and the selection of an earlier
frame, and `Enter` launches what is selected now.

## Main definitions

* `LauncherState.Current` — what was committed last shows the query, its results and the selection
* `LauncherState.Quiescent` — the compositor has given back all buffers
* `LauncherState.Supplied` — there is a buffer to draw into, if one is needed

## Main results

* `current_of_supplied` — as long as no redraw is refused, the screen is current
* `not_current` — four frames are in flight, and the fifth is lost
-/

namespace Nullxes

namespace Wlcommon

namespace ShmDoubleBuffer

variable {γ : Type} [Inhabited γ] {me : ShmDoubleBuffer γ} {shm : Shm}

/-- There is a free buffer, or room for one more and memory for it. -/
def canDraw (me : ShmDoubleBuffer γ) (shm : Shm) : Bool :=
  me.buffers.any ShmBuffer.released ||
    decide (me.buffers.length < maxBuffers) && (shm.failure shm.attempted).isNone

theorem not_error_of_canDraw (h : me.canDraw shm = true) {paint : γ → ℕ → UInt32 → UInt32 → γ}
    {e : ClientError} {shm' : Shm} : me.draw shm paint ≠ (.error e, shm') := by
  intro hd
  rw [draw, findFreeOrGrow] at hd
  cases hfind : me.buffers.findFinIdx? fun b => b.released with
  | some i =>
    simp only [hfind] at hd
    cases hd
  | none =>
    have htaken := List.findFinIdx?_eq_none_iff.mp hfind
    have hany : me.buffers.any ShmBuffer.released = false :=
      List.any_eq_false.mpr fun b hb => by simpa using htaken b hb
    rw [canDraw, hany, Bool.false_or, Bool.and_eq_true, decide_eq_true_eq,
      Option.isNone_iff_eq_none] at h
    simp only [hfind, allocateOne, h.2] at hd
    rw [if_neg (Nat.not_le_of_lt h.1)] at hd
    cases hd

/-- A new pool can be drawn into. -/
theorem canDraw_of_new {w h : UInt32} {pool : ShmDoubleBuffer γ} {shm' : Shm}
    (hnew : new shm w h = (.ok pool, shm')) : pool.canDraw { shm' with sent := [] } = true := by
  have hfree := (refilled_of_new shm hnew).free
  cases refilled_of_new shm hnew with
  | two h₁ h₂ =>
    rename_i slot slot' shm₁
    have hmem : slot'.pool.buffers.get slot'.idx ∈ slot'.pool.buffers := List.get_mem _ _
    rw [canDraw, List.any_eq_true.mpr ⟨_, hmem, hfree _ hmem⟩, Bool.true_or]

/-- A pool can be made where memory for two buffers is to be had. -/
theorem new_ne_error {w h : UInt32} {e : ClientError} {shm' : Shm}
    (hfirst : shm.failure shm.attempted = none) (hsecond : shm.failure (shm.attempted + 1) = none) :
    (new shm w h : Except ClientError (ShmDoubleBuffer γ) × Shm) ≠ (.error e, shm') := by
  intro hnew
  have hlen : ¬ maxBuffers ≤ 0 := by decide
  have hlen' : ¬ maxBuffers ≤ 1 := by decide
  simp [new, allocateOne, push, hfirst, hsecond, hlen, hlen'] at hnew

end ShmDoubleBuffer

end Wlcommon

namespace Launcher

open Wlcommon

namespace LauncherState

variable (s : LauncherState)

/-- There is a pool that can be drawn into, or memory to make one. -/
def canDraw : Bool :=
  match s.buffer with
  | some pool => pool.canDraw s.shm
  | none =>
    (s.shm.failure s.shm.attempted).isNone && (s.shm.failure (s.shm.attempted + 1)).isNone

/-- An event that edits something finds a buffer to show it in. -/
def Supplied (e : ServerEvent) : Prop := s.redraws e = true → s.canDraw = true

instance (e : ServerEvent) : Decidable (s.Supplied e) :=
  inferInstanceAs (Decidable (_ → _))

/-- What was committed last. -/
def lastFrame : Option Picture := s.frames.getLast?.bind id

/-- All buffers were released. -/
def Quiescent : Prop := ∀ pool ∈ s.buffer, ∀ b ∈ pool.buffers, b.released = true

/-- What was committed last shows the query, its results and the selection, and `Enter` launches
what it marks. -/
structure Current (picture : Picture) : Prop where
  last : s.lastFrame = some picture
  query : picture.query = s.query
  results : picture.results = s.results
  selected : picture.selected = s.selected
  launched : (s.handleAction .enter).launched =
    s.launched ++ (picture.results[picture.selected]?.bind fun app => splitFirst app.argv).toList

variable {s}

theorem not_refuses (h : s.canDraw = true) (shm : Shm) : ¬ s.Refuses shm := by
  rintro (hnone | ⟨pool, e, shm', hp, hd⟩)
  · rw [pool] at hnone
    rw [canDraw] at h
    cases hb : s.buffer with
    | some pool =>
      rw [hb] at hnone
      cases hnone
    | none =>
      rw [hb] at hnone h
      rw [Bool.and_eq_true, Option.isNone_iff_eq_none, Option.isNone_iff_eq_none] at h
      dsimp only at hnone
      split at hnone
      next => cases hnone
      next hnew => exact ShmDoubleBuffer.new_ne_error h.1 h.2 hnew
  · refine ShmDoubleBuffer.not_error_of_canDraw ?_ hd
    rw [LauncherState.pool] at hp
    rw [canDraw] at h
    cases hb : s.buffer with
    | some pool' =>
      rw [hb] at hp h
      cases hp
      exact h
    | none =>
      rw [hb] at hp
      dsimp only at hp
      split at hp
      next hnew =>
        cases hp
        exact ShmDoubleBuffer.canDraw_of_new hnew
      next => cases hp

/-- **A redraw that is not refused.** -/
theorem redraw_current (hc : s.configured = true) (hs : s.surface = true) (h : s.canDraw = true) :
    ∃ shm buffer made drawn picture,
      s.redraw = s.redrawn shm buffer made [.attachAndCommit drawn] ∧
        drawn.pixels = some picture ∧ picture.query = s.query ∧ picture.results = s.results ∧
        picture.selected = s.selected := by
  obtain ⟨shm₀, shm, buffer, made, commit, heq, hcases⟩ := s.redraw_cases hc
  rcases hcases with ⟨hrefused, -⟩ | ⟨pool, hp, pool', drawn, shm', hd, hcommit⟩
  · exact absurd hrefused (not_refuses h shm₀)
  · rw [hs, if_pos rfl] at hcommit
    subst hcommit
    rcases pool.draw_cases { shm₀ with sent := [] } s.picture with
      ⟨e, shm₁, herr, -⟩ | ⟨slot, shm₁, buf, -, -, -, hok⟩
    · cases herr.symm.trans hd
    · cases hok.symm.trans hd
      exact ⟨shm, buffer, made, _, _, heq, rfl, rfl, rfl, rfl⟩

/-- The screen is current once there is one. -/
structure UpToDate (s : LauncherState) : Prop where
  surface : s.surface = true
  shown : s.configured = true → ∃ picture, s.lastFrame = some picture ∧
    picture.query = s.query ∧ picture.results = s.results ∧ picture.selected = s.selected

theorem UpToDate.same {t : LauncherState} (h : s.UpToDate) (hs : s.Same t) : t.UpToDate := by
  refine ⟨hs.surface.trans h.surface, fun hc => ?_⟩
  rw [hs.configured] at hc
  rw [lastFrame, results, hs.frames, hs.query, hs.searcher, hs.selected]
  exact h.shown hc

theorem Edit.surface {t : LauncherState} (h : s.Edit t) : t.surface = s.surface := by
  cases h <;> rfl

theorem Edit.canDraw {t : LauncherState} (h : s.Edit t) : t.canDraw = s.canDraw := by
  cases h <;> rfl

/-- An edit before the first configure. -/
theorem UpToDate.edit_of_not_configured {t : LauncherState} (h : s.UpToDate) (ht : s.Edit t)
    (hc : t.configured = false) : t.UpToDate :=
  ⟨ht.surface.trans h.surface, fun hc' => by rw [hc] at hc'; cases hc'⟩

theorem upToDate_redraw (hc : s.configured = true) (hs : s.surface = true)
    (h : s.canDraw = true) : s.redraw.UpToDate := by
  obtain ⟨shm, buffer, made, drawn, picture, heq, hpixels, hshows⟩ := redraw_current hc hs h
  rw [heq]
  refine ⟨hs, fun _ => ⟨picture, ?_, hshows⟩⟩
  simp [lastFrame, frames, redrawn, frame, hpixels, List.filterMap_append]

theorem UpToDate.dispatch (h : s.UpToDate) {e : ServerEvent} (hsupplied : s.Supplied e) :
    (s.dispatch e).UpToDate := by
  rcases s.dispatch_cases e with hsame | ⟨t, hedit, heq, hredraws⟩
  · exact h.same hsame
  · rw [heq]
    cases hc : t.configured with
    | false =>
      rw [t.redraw_of_not_configured hc]
      exact h.edit_of_not_configured hedit hc
    | true =>
      refine upToDate_redraw hc (hedit.surface.trans h.surface) ?_
      rw [hedit.canDraw]
      exact hsupplied (hredraws hc)

end LauncherState

/-- **Nothing is lost as long as no redraw is refused.** -/
theorem current_of_supplied {failure : ℕ → Option String} {text : Bool} {searcher : Searcher}
    {es : List ServerEvent}
    (hsupplied : launcher.EachStep LauncherState.Supplied
      (LauncherState.new failure text searcher).initSurface es) :
    launcher.Always
      (fun s => s.configured = true → s.Quiescent → ∃ picture, s.Current picture)
      (LauncherState.new failure text searcher).initSurface es := by
  have hinit : (LauncherState.new failure text searcher).initSurface.UpToDate :=
    ⟨rfl, fun hc => by cases hc⟩
  have hall := EventMachine.Always.of_eachStep (fun s e hs _ hc => hs.dispatch hc) hinit
    (legal_launcher _ es) hsupplied
  refine hall.mono fun s hs hc _ => ?_
  obtain ⟨picture, hlast, hquery, hresults, hselected⟩ := hs.shown hc
  refine ⟨picture, hlast, hquery, hresults, hselected, ?_⟩
  rw [hresults, hselected]
  exact LauncherState.launched_enter

/-- An application that is its own command. -/
def plainApp (name : String) : AppEntry := ⟨name, none, [name], none, [], ["/", name]⟩

/-- Three applications, nothing of which is searched. -/
def threeApps : Searcher := ⟨fun _ _ => none, ["One", "Two", "Three"].map plainApp⟩

/-- The arrow keys. -/
def arrows : Keymap := ⟨fun _ keycode => if keycode = 111 then 0xff52 else 0xff54, fun _ _ => ""⟩

/-- The launcher before any event. -/
def opened : LauncherState := (LauncherState.new (fun _ => none) true threeApps).initSurface

/-- Down, with the frames released in between. -/
def unhurried : List ServerEvent :=
  [.keymap true (some arrows), .configure 1, .release 0, .key 108 true, .release 0]

theorem current_of_supplied_unhurried :
    launcher.Always (fun s => s.configured = true → s.Quiescent → ∃ picture, s.Current picture)
      opened unhurried :=
  current_of_supplied (by decide)

/-- Down, up, down, down, and only then are the frames released. -/
def hurried : List ServerEvent :=
  [.keymap true (some arrows), .configure 1, .key 108 true, .key 103 true, .key 108 true,
    .key 108 true, .release 0, .release 1, .release 2, .release 3]

/-- The second row stays marked, and `Enter` launches the third. -/
theorem not_current :
    (launcher.run opened hurried).configured = true ∧ (launcher.run opened hurried).Quiescent ∧
      (launcher.run opened hurried).lastFrame.map Picture.selected = some 1 ∧
      ((launcher.run opened hurried).handleAction .enter).launched = [("Three", [])] ∧
      ¬ ∃ picture, (launcher.run opened hurried).Current picture := by
  have hlast : (launcher.run opened hurried).lastFrame.map Picture.selected = some 1 := by decide
  refine ⟨by decide, fun pool hpool b hb => ?_, hlast, by decide, ?_⟩
  · have hfree : (launcher.run opened hurried).buffer.map
        (fun pool => pool.buffers.map ShmBuffer.released) = some [true, true, true, true] := by
      decide
    rw [Option.mem_def.mp hpool] at hfree
    have hreleased : pool.buffers.map ShmBuffer.released = [true, true, true, true] :=
      Option.some.inj hfree
    have hmem := List.mem_map_of_mem (f := ShmBuffer.released) hb
    rw [hreleased] at hmem
    simpa using hmem
  · rintro ⟨picture, h⟩
    have hselected : (launcher.run opened hurried).selected = 2 := by decide
    rw [h.last] at hlast
    have hone : picture.selected = 1 := Option.some.inj hlast
    rw [h.selected, hselected] at hone
    cases hone

end Launcher

end Nullxes
