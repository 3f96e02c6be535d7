import Mathlib.Tactic.Set
import Nullxes.Launcher.State
import Nullxes.Library.EventMachine
import Nullxes.Wlcommon.Exhaustion

/-!
# What is selected

Every event either leaves the query and the selection alone, or is an edit that ends in a redraw:
`LauncherState.dispatch_cases`. An edit of the query selects the first result, and the arrow keys
stay within the results, so what is selected is a result whenever there is one.

## Main definitions

* `launcher` — the launcher and the compositor
* `LauncherState.Edit` — what a redraw comes after
* `Highlights` — the row that `draw::paint` marks

## Main results

* `LauncherState.redraw_cases`, `LauncherState.dispatch_cases` — what a redraw and an event do
* `selected_valid` — what is selected, marked and launched
-/

namespace Nullxes

namespace Launcher

open Wlcommon

/-! ## The marked row -/

/-- The background of the row is that of the selection. -/
def Highlights (ops : List DrawOp) (i : ℕ) : Prop :=
  .fillRect 0 (rowY i) width.toNat rowH .selectionBg ∈ ops

theorem rowY_injective : Function.Injective rowY := by
  intro i j h
  have hrow : (i : ℤ) * rowH = j * rowH := by simpa [rowY] using h
  rw [rowH] at hrow
  omega

theorem highlights_paintRow {count selected i j : ℕ} :
    Highlights (paintRow count selected j) i ↔ i = j ∧ j = selected := by
  rw [Highlights, paintRow]
  by_cases hj : j = selected
  · simp [hj, rowY_injective.eq_iff]
  · simp [hj]

theorem not_highlights_paintLabel {selected : ℕ} {app : AppEntry} {i j : ℕ} :
    ¬ Highlights (paintLabel selected app j) i := by
  rw [Highlights, paintLabel]
  cases app.comment with
  | none => simp
  | some comment => simp

/-- **The row that `draw::paint` marks**: that of the selected result. -/
theorem highlights_paint {text : Bool} {query : String} {results : List AppEntry}
    {selected i : ℕ} :
    Highlights (paint text query results selected) i ↔ i = selected ∧ i < results.length := by
  have hlabel : ∀ app j,
      .fillRect 0 (rowY i) width.toNat rowH .selectionBg ∉ paintLabel selected app j :=
    fun app j => not_highlights_paintLabel
  have hrows :
      Highlights ((List.range results.length).flatMap (paintRow results.length selected)) i ↔
        i = selected ∧ i < results.length := by
    rw [Highlights, List.mem_flatMap]
    constructor
    · rintro ⟨j, hj, hmem⟩
      obtain ⟨rfl, rfl⟩ := highlights_paintRow.mp hmem
      exact ⟨rfl, List.mem_range.mp hj⟩
    · rintro ⟨rfl, hi⟩
      exact ⟨i, List.mem_range.mpr hi, highlights_paintRow.mpr ⟨rfl, rfl⟩⟩
  rw [← hrows, paint, Highlights]
  cases text with
  | false => simp [Highlights]
  | true => cases query.isEmpty <;> simp [Highlights, hlabel]

/-! ## What happens -/

namespace Searcher

theorem length_query_le (me : Searcher) (query : String) (limit : ℕ) :
    (me.query query limit).length ≤ limit := by
  rw [Searcher.query]
  split
  · exact List.length_take_le _ _
  · rw [List.length_map]
    exact List.length_take_le _ _

end Searcher

namespace LauncherState

variable (s : LauncherState)

/-- The state with another pool, and after these requests. -/
def redrawn (shm : Shm) (buffer : Option (ShmDoubleBuffer (Option Picture)))
    (made : List ShmRequest) (commit : List WlRequest) : LauncherState :=
  { s with
    shm := { shm with sent := [] }, buffer := buffer, sent := s.sent ++ made.map .shm ++ commit }

/-- The pool that there is or that is made is drawn into, and what was drawn is committed. -/
structure Draws (shm : Shm) (pool : ShmDoubleBuffer (Option Picture)) (commit : List WlRequest) :
    Prop where
  takes : s.pool = (some pool, shm)
  commit : ∃ pool' drawn shm', pool.draw { shm with sent := [] } s.picture =
    (.ok (pool', drawn), shm') ∧ commit = if s.surface then [.attachAndCommit drawn] else []

/-- Nothing is drawn: there is no pool, or it refuses. -/
def Refuses (shm : Shm) : Prop :=
  s.pool = (none, shm) ∨ ∃ pool e shm', s.pool = (some pool, shm) ∧
    pool.draw { shm with sent := [] } s.picture = (.error e, shm')

/-- **What `redraw` does.** -/
theorem redraw_cases (hc : s.configured = true) :
    ∃ shm₀ shm buffer made commit, s.redraw = s.redrawn shm buffer made commit ∧
      (s.Refuses shm₀ ∧ commit = [] ∨ ∃ pool, s.Draws shm₀ pool commit) := by
  match hp : s.pool with
  | (none, shm) =>
    refine ⟨shm, shm, none, shm.sent, [], ?_, .inl ⟨.inl hp, rfl⟩⟩
    rw [redraw]
    simp [hc, hp, redrawn, setShm]
  | (some pool, shm) =>
    set t := { s.setShm shm with buffer := some pool }
    match hd : pool.draw t.shm t.picture with
    | (.error e, shm') =>
      refine ⟨shm, shm', some pool, shm.sent ++ shm'.sent, [], ?_,
        .inl ⟨.inr ⟨pool, e, shm', hp, hd⟩, rfl⟩⟩
      rw [redraw]
      dsimp only
      rw [if_neg (by rw [hc]; decide), hp]
      dsimp only
      rw [hd]
      simp [redrawn, setShm]
    | (.ok (pool', drawn), shm') =>
      refine ⟨shm, shm', some pool', shm.sent ++ shm'.sent, _, ?_,
        .inr ⟨pool, hp, pool', drawn, shm', hd, rfl⟩⟩
      rw [redraw]
      dsimp only
      rw [if_neg (by rw [hc]; decide), hp]
      dsimp only
      rw [hd]
      cases hs : s.surface <;> simp [redrawn, setShm, request, hs]

/-- Nothing before the first configure. -/
theorem redraw_of_not_configured (hc : s.configured = false) : s.redraw = s := by
  rw [redraw, hc]
  rfl

/-- What is edited before a redraw. -/
inductive Edit : LauncherState → Prop
  | configure (serial : UInt32) :
    Edit { s.request (.ackConfigure serial) with configured := true }
  | text (text : String) : Edit { s with query := s.query ++ text, selected := 0 }
  | backspace : Edit { s with query := String.ofList s.query.toList.dropLast, selected := 0 }
  | up : 0 < s.selected → Edit { s with selected := s.selected - 1 }
  | down : s.selected < s.results.length - 1 → Edit { s with selected := s.selected + 1 }

/-- The event edits something, in a launcher that draws. -/
def redraws : ServerEvent → Bool
  | .configure _ => true
  | .key key pressed =>
    s.configured && pressed &&
      match s.keymap.processKey key with
      | .text _ | .action .backspace => true
      | .action .up => 0 < s.selected
      | .action .down => s.selected < s.results.length - 1
      | _ => false
  | _ => false

/-- The request that commits a frame, with what is in it. -/
def frame : WlRequest → Option (Option Picture)
  | .attachAndCommit buffer => some buffer.pixels
  | _ => none

/-- What was committed, in order. -/
def frames : List (Option Picture) := s.sent.filterMap frame

/-- What is searched, selected and shown is the same. -/
structure Same (t : LauncherState) : Prop where
  query : t.query = s.query
  searcher : t.searcher = s.searcher
  selected : t.selected = s.selected
  configured : t.configured = s.configured
  surface : t.surface = s.surface
  frames : t.frames = s.frames

variable {s}

theorem Same.rfl : s.Same s := ⟨.refl _, .refl _, .refl _, .refl _, .refl _, .refl _⟩

theorem same_request {r : WlRequest} (hr : frame r = none) (keyboard : Bool) :
    s.Same { s.request r with keyboard := keyboard } := by
  refine ⟨.refl _, .refl _, .refl _, .refl _, .refl _, ?_⟩
  simp [frames, request, hr]

theorem same_launchSelected : s.Same { s.launchSelected with shouldClose := true } := by
  rw [launchSelected]
  split
  · exact ⟨.refl _, .refl _, .refl _, .refl _, .refl _, .refl _⟩
  · split <;> exact ⟨.refl _, .refl _, .refl _, .refl _, .refl _, .refl _⟩

theorem handleAction_down : s.handleAction .down =
    if s.selected < s.results.length - 1 then { s with selected := s.selected + 1 }.redraw else s :=
  .refl _

/-- **What a key does.** -/
theorem dispatchKey_cases (key : UInt32) (pressed : Bool) :
    s.Same (s.dispatchKey key pressed) ∨
      ∃ t, s.Edit t ∧ s.dispatchKey key pressed = t.redraw ∧
        (t.configured = true → s.redraws (.key key pressed) = true) := by
  cases pressed with
  | false => exact .inl .rfl
  | true =>
    rw [dispatchKey, if_pos rfl]
    cases hkey : s.keymap.processKey key with
    | none => exact .inl .rfl
    | text text =>
      exact .inr ⟨_, .text text, .refl _, fun hc => by simp_all [redraws]⟩
    | action a =>
      dsimp only
      cases a with
      | backspace => exact .inr ⟨_, .backspace, .refl _, fun hc => by simp_all [redraws]⟩
      | up =>
        rw [handleAction]
        split
        next h => exact .inr ⟨_, .up h, .refl _, fun hc => by simp_all [redraws]⟩
        next => exact .inl .rfl
      | down =>
        rw [handleAction_down]
        split
        next h => exact .inr ⟨_, .down h, .refl _, fun hc => by simp_all [redraws]⟩
        next => exact .inl .rfl
      | enter => exact .inl same_launchSelected
      | escape | delete | tab | left | right | home | «end» | pageUp | pageDown =>
        exact .inl ⟨.refl _, .refl _, .refl _, .refl _, .refl _, .refl _⟩

/-- **What an event does.** -/
theorem dispatch_cases (e : ServerEvent) :
    s.Same (s.dispatch e) ∨
      ∃ t, s.Edit t ∧ s.dispatch e = t.redraw ∧ (t.configured = true → s.redraws e = true) := by
  cases e with
  | configure serial => exact .inr ⟨_, .configure serial, rfl, fun _ => rfl⟩
  | key key pressed =>
    rcases s.dispatchKey_cases key pressed with h | ⟨t, hedit, h, hr⟩
    · exact .inl h
    · exact .inr ⟨t, hedit, h, hr⟩
  | capabilities keyboard =>
    left
    rw [dispatch, dispatchCapabilities]
    split
    · exact same_request rfl true
    · exact .rfl
  | keymap xkbV1 loaded =>
    left
    rw [dispatch]
    split <;> exact ⟨.refl _, .refl _, .refl _, .refl _, .refl _, .refl _⟩
  | closed | modifiers mods | release wlBuf | other =>
    exact .inl ⟨.refl _, .refl _, .refl _, .refl _, .refl _, .refl _⟩

/-- What `Enter` launches. -/
theorem launched_enter : (s.handleAction .enter).launched =
    s.launched ++ (s.results[s.selected]?.bind fun app => splitFirst app.argv).toList := by
  rw [handleAction]
  dsimp only
  rw [launchSelected]
  cases s.results[s.selected]? with
  | none => simp
  | some app =>
    dsimp only [Option.bind_some]
    cases splitFirst app.argv with
    | none => simp
    | some command => rfl

/-! ## What stays valid -/

/-- The selection is a result, or the first. -/
def Valid (s : LauncherState) : Prop := s.selected = 0 ∨ s.selected < s.results.length

theorem Valid.same {t : LauncherState} (h : s.Valid) (hs : s.Same t) : t.Valid := by
  rw [Valid, results, hs.selected, hs.searcher, hs.query]
  exact h

theorem Valid.edit {t : LauncherState} (h : s.Valid) (ht : s.Edit t) : t.Valid := by
  cases ht with
  | configure serial => exact h
  | text text => exact .inl rfl
  | backspace => exact .inl rfl
  | up hpos =>
    rcases h with h | h
    · exact .inl (by simp [h])
    · exact .inr ((Nat.sub_le _ _).trans_lt h)
  | down hlt => exact .inr (Nat.add_lt_of_lt_sub hlt)

theorem Valid.redraw (h : s.Valid) : s.redraw.Valid := by
  cases hc : s.configured with
  | false => rwa [s.redraw_of_not_configured hc]
  | true =>
    obtain ⟨shm₀, shm, buffer, made, commit, heq, -⟩ := s.redraw_cases hc
    rw [heq]
    exact h

theorem Valid.dispatch (h : s.Valid) (e : ServerEvent) : (s.dispatch e).Valid := by
  rcases s.dispatch_cases e with hsame | ⟨t, hedit, heq, -⟩
  · exact h.same hsame
  · rw [heq]
    exact (h.edit hedit).redraw

end LauncherState

/-- The launcher, with whatever the compositor tells it. -/
def launcher : EventMachine LauncherState ServerEvent where
  Init s := ∃ failure text searcher, s = (LauncherState.new failure text searcher).initSurface
  Enabled _ _ := True
  step := LauncherState.dispatch

theorem legal_launcher (s : LauncherState) (es : List ServerEvent) : launcher.Legal s es :=
  EventMachine.legal_of_enabled (fun _ _ => trivial) s es

/-- **What is selected is there.** There are at most eight results, and if there are any, `Enter`
launches the one whose row is marked. -/
theorem selected_valid (failure : ℕ → Option String) (text : Bool) (searcher : Searcher)
    (es : List ServerEvent) :
    let s := launcher.run (LauncherState.new failure text searcher).initSurface es
    (s.selected = 0 ∨ s.selected < s.results.length) ∧ s.results.length ≤ 8 ∧
      (s.results ≠ [] → ∃ app, s.results[s.selected]? = some app ∧
        (∀ i, Highlights (paint s.text s.query s.results s.selected) i ↔ i = s.selected) ∧
        (s.handleAction .enter).launched =
          s.launched ++ (LauncherState.splitFirst app.argv).toList) := by
  intro s
  have hvalid : s.Valid :=
    (EventMachine.Always.of_invariant (fun s e hs _ => hs.dispatch e) (.inl rfl)
      (legal_launcher _ es)).last
  refine ⟨hvalid, Searcher.length_query_le _ _ _, fun hne => ?_⟩
  have hlt : s.selected < s.results.length := by
    have hpos := List.length_pos_iff.mpr hne
    rcases hvalid with hzero | hlt
    · rwa [hzero]
    · exact hlt
  have happ : s.results[s.selected]? = some s.results[s.selected] := List.getElem?_eq_getElem hlt
  refine ⟨_, happ, fun i => ?_, ?_⟩
  · rw [highlights_paint]
    constructor
    · exact fun h => h.1
    · rintro rfl
      exact ⟨rfl, hlt⟩
  · rw [LauncherState.launched_enter, happ]
    rfl

end Launcher

end Nullxes
