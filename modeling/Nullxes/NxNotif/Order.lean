import Nullxes.NxNotif.Stack

/-!
# First come, first shown

What was displayed, followed by what waits, is what came: a notification that is added goes to the
end of the queue, and pumping moves the front of it to the end of what was displayed. No other part
of a round touches either, so the equation holds over a whole run, wherever toasts are taken away
or replaced.

## Main definitions

* `displayed`, `arrived` — what becomes visible in a run, and what is passed to `enqueue` in it

## Main results

* `first_come_first_shown`
-/

namespace Nullxes

namespace NxNotif

namespace WaylandThreadState

variable {s : WaylandThreadState}

/-- The notifications that become visible in a part of a round: those of the toasts with a layer
surface that no toast had before. -/
def newcomers (s : WaylandThreadState) (e : ThreadStep) : List Notif :=
  ((s.act e).visible.filter fun v => v.layer ∉ s.layers).map VisibleToast.notif

/-- The notification that is passed to `enqueue`, if it replaces none. -/
def arrival (s : WaylandThreadState) : ThreadStep → List Notif
  | .receive n => if s.adds (.receive n) then [n] else []
  | _ => []

/-- What becomes visible, in order. -/
def displayed : WaylandThreadState → List ThreadStep → List Notif
  | _, [] => []
  | s, e :: es => s.newcomers e ++ (s.act e).displayed es

/-- What is passed to `enqueue` and replaces nothing, in order. -/
def arrived : WaylandThreadState → List ThreadStep → List Notif
  | _, [] => []
  | s, e :: es => s.arrival e ++ (s.act e).arrived es

/-- No toast is new if none has a new layer surface. -/
theorem newcomers_eq_nil {e : ThreadStep} (h : ∀ l ∈ (s.act e).layers, l ∈ s.layers) :
    s.newcomers e = [] := by
  rw [newcomers, List.map_eq_nil_iff, List.filter_eq_nil_iff]
  intro v hv
  have hold := h v.layer (List.mem_map_of_mem hv)
  simpa using hold

theorem newcomers_adds (h : s.Apart) {n : Notif} (hadds : s.adds (.receive n) = true) :
    s.newcomers (.receive n) = s.placed n := by
  have hold : (s.visible.filter fun v => v.layer ∉ s.layers) = [] := by
    rw [List.filter_eq_nil_iff]
    intro v hv
    have hmem : v.layer ∈ s.layers := List.mem_map_of_mem hv
    simpa using hmem
  have hnew : ((s.made (s.placed n)).filter fun v => v.layer ∉ s.layers) =
      s.made (s.placed n) := by
    rw [List.filter_eq_self]
    intro v hv
    obtain ⟨j, m, -, rfl⟩ := mem_made.mp hv
    exact decide_eq_true fun hmem =>
      h.notMem_new hmem (List.mem_map_of_mem (List.mem_range.mpr (Nat.lt_succ_self j)))
  have hvisible : (s.act (.receive n)).visible = s.visible ++ s.made (s.placed n) := by
    rw [act_receive_new hadds]
  rw [newcomers, hvisible, List.filter_append, hold, hnew, List.nil_append, notifs_made]

/-- **One part of a round**: what it displays, before what waits after it, is what waited and what
came. -/
theorem newcomers_append_queue (h : s.Apart) (e : ThreadStep) :
    s.newcomers e ++ (s.act e).queue = s.queue ++ s.arrival e := by
  rcases s.act_cases e with ⟨n, rfl, hadds⟩ | ⟨n, rfl, hreplaces⟩ | ⟨hadds, -, hk⟩
  · rw [newcomers_adds h hadds, act_receive_new hadds, arrival, if_pos hadds]
    exact List.take_append_drop _ _
  · have hlayers := layers_receive_visible hreplaces
    obtain ⟨i, v, -, -, -, hact⟩ := act_receive_visible hreplaces
    rw [newcomers_eq_nil fun l hl => hlayers ▸ hl, hact, arrival, adds_of_replaces hreplaces]
    exact (List.append_nil _).symm
  · have harrival : s.arrival e = [] := by
      cases e with
      | receive n => rw [arrival, hadds]; rfl
      | _ => rfl
    rw [newcomers_eq_nil fun l hl => hk.layers.mem hl, hk.queue, harrival, List.append_nil]
    rfl

/-- What a run displays, before what waits after it, is what waited and what came. -/
theorem displayed_append_queue (h : s.Apart) (es : List ThreadStep) :
    s.displayed es ++ (es.foldl act s).queue = s.queue ++ s.arrived es := by
  induction es generalizing s with
  | nil => simp [displayed, arrived]
  | cons e es ih =>
    calc s.displayed (e :: es) ++ ((e :: es).foldl act s).queue
        = s.newcomers e ++ ((s.act e).displayed es ++ (es.foldl act (s.act e)).queue) :=
          List.append_assoc _ _ _
      _ = s.newcomers e ++ (s.act e).queue ++ (s.act e).arrived es := by
          rw [ih (h.act e), List.append_assoc]
      _ = s.queue ++ s.arrived (e :: es) := by
          rw [newcomers_append_queue h e, arrived, List.append_assoc]

end WaylandThreadState

/-- **First come, first shown.** In every run there are at most `maxVisible` toasts, and what
becomes visible is the beginning of what was passed to `enqueue` and replaced nothing, in order. -/
theorem first_come_first_shown (failure : ℕ → Option String) (clock : ℕ → ℕ)
    (es : List ThreadStep) :
    (waylandParts failure clock).Always (fun s => s.visible.length ≤ maxVisible)
        (.new failure clock) es ∧
      (WaylandThreadState.new failure clock).displayed es <+:
        (WaylandThreadState.new failure clock).arrived es := by
  have hlegal : (waylandParts failure clock).Legal (.new failure clock) es :=
    EventMachine.legal_of_enabled (fun _ _ => trivial) _ es
  refine ⟨EventMachine.Always.of_invariant
    (fun s e hs _ => WaylandThreadState.act_bounded hs e) (Nat.zero_le _) hlegal, ?_⟩
  exact ⟨_, WaylandThreadState.displayed_append_queue (.new failure clock) es⟩

end NxNotif

end Nullxes
