import Mathlib.Data.List.Perm.Subperm
import Nullxes.NxNotif.Stack

/-!
# What closed toasts leave on the screen

A layer surface stays until it is destroyed, and a proxy that is dropped asks for nothing. The
thread drops the proxies of a toast that it takes from the stack and sends no destroy request, so
the layer surfaces on the screen are those of the stack as long as no toast has gone.

## Main definitions

* `WaylandThreadState.created`, `WaylandThreadState.destroyed` — the layer surfaces, by requests
* `OnScreen`, `CleansUp` — what should hold of a state, and of a step

## Main results

* `no_leftovers_iff` — nothing is left exactly in the runs in which no toast goes
-/

namespace Nullxes

namespace NxNotif

/-- The layer surface that the request makes. -/
def Request.creates : Request → Option Proxy
  | .getLayerSurface layer _ => some layer
  | _ => none

/-- The layer surface that the request destroys. -/
def Request.destroys : Request → Option Proxy
  | .destroyLayer layer => some layer
  | _ => none

namespace WaylandThreadState

variable {s : WaylandThreadState} {e : ThreadStep}

/-- The layer surfaces that were created. -/
def created (s : WaylandThreadState) : List Proxy := s.sent.filterMap Request.creates

/-- The layer surfaces that were destroyed. -/
def destroyed (s : WaylandThreadState) : List Proxy := s.sent.filterMap Request.destroys

/-- The layer surfaces that were created and not destroyed are those of the toasts. -/
def OnScreen (s : WaylandThreadState) : Prop :=
  ∀ l, l ∈ s.created ∧ l ∉ s.destroyed ↔ l ∈ s.layers

/-- For a toast that is gone after a tick or a message, destroy requests have been sent. -/
def CleansUp (s : WaylandThreadState) : ThreadStep → Prop
  | .dispatch _ => True
  | e => ∀ p ∈ s.proxies, p ∉ (s.act e).proxies →
    .destroySurface p.1 ∈ (s.act e).sent ∧ .destroyLayer p.2 ∈ (s.act e).sent

/-! ## The requests of a step -/

theorem creates_setups (s : WaylandThreadState) (k : ℕ) :
    (s.setups k).filterMap Request.creates =
      (List.range k).map fun j => s.nextProxy + 2 * j + 1 := by
  rw [filterMap_setups, List.map_eq_flatMap]
  rfl

theorem destroys_setups (s : WaylandThreadState) (k : ℕ) :
    (s.setups k).filterMap Request.destroys = [] := by
  rw [filterMap_setups, List.flatMap_eq_nil_iff]
  exact fun _ _ => rfl

theorem Request.isPlain.creates {r : Request} (h : r.isPlain = true) :
    r.creates = none ∧ r.destroys = none := by
  cases r <;> first | exact ⟨rfl, rfl⟩ | cases h

theorem Keeps.created {t : WaylandThreadState} (h : s.Keeps t) :
    t.created = s.created ∧ t.destroyed = s.destroyed := by
  obtain ⟨rs, hsent, hplain⟩ := h.sent
  have hcreates : rs.filterMap Request.creates = [] :=
    List.filterMap_eq_nil_iff.mpr fun r hr => (Request.isPlain.creates (hplain r hr)).1
  have hdestroys : rs.filterMap Request.destroys = [] :=
    List.filterMap_eq_nil_iff.mpr fun r hr => (Request.isPlain.creates (hplain r hr)).2
  rw [WaylandThreadState.created, WaylandThreadState.destroyed, hsent, List.filterMap_append,
    List.filterMap_append, hcreates, hdestroys, List.append_nil, List.append_nil]
  exact ⟨rfl, rfl⟩

/-! ## What is left -/

/-- Nothing is destroyed, and every toast has a layer surface of its own. -/
structure Undestroyed (s : WaylandThreadState) : Prop where
  apart : s.Apart
  destroyed : s.destroyed = []

theorem Undestroyed.act (h : s.Undestroyed) (e : ThreadStep) : (s.act e).Undestroyed := by
  refine ⟨h.apart.act e, ?_⟩
  rcases s.act_cases e with ⟨n, rfl, hadds⟩ | ⟨n, rfl, hreplaces⟩ | ⟨-, -, hk⟩
  · rw [act_receive_new hadds, WaylandThreadState.destroyed, List.filterMap_append, destroys_setups]
    exact congrArg (· ++ []) h.destroyed
  · obtain ⟨i, v, -, -, -, hact⟩ := act_receive_visible hreplaces
    rw [hact]
    exact h.destroyed
  · rw [hk.created.2, h.destroyed]

/-- **A step leaves nothing behind** exactly if it frees no slot. -/
theorem Undestroyed.onScreen_act (h : s.Undestroyed) (hs : s.OnScreen) (e : ThreadStep) :
    (s.act e).OnScreen ↔ s.frees e = false := by
  have hafter := (h.act e).destroyed
  unfold OnScreen at hs ⊢
  rw [h.destroyed] at hs
  rw [hafter]
  simp only [List.not_mem_nil, not_false_eq_true, and_true] at hs ⊢
  rcases s.act_cases e with ⟨n, rfl, hadds⟩ | ⟨n, rfl, hreplaces⟩ | ⟨hadds, -, hk⟩
  · have hcreated : (s.act (.receive n)).created = s.created ++
        (List.range (s.placed n).length).map fun j => s.nextProxy + 2 * j + 1 := by
      rw [act_receive_new hadds, created, List.filterMap_append, creates_setups]
      rfl
    refine iff_of_true (fun l => ?_) (frees_of_adds hadds)
    rw [hcreated, layers_receive_new hadds, List.mem_append, List.mem_append, hs l]
  · have hcreated : (s.act (.receive n)).created = s.created := by
      obtain ⟨i, v, -, -, -, hact⟩ := act_receive_visible hreplaces
      rw [hact]
      rfl
    refine iff_of_true (fun l => ?_) (frees_of_replaces hreplaces)
    rw [hcreated, layers_receive_visible hreplaces, hs l]
  · obtain ⟨-, hle, hfrees⟩ := act_closes hadds
    rw [hk.created.1, ← hfrees]
    constructor
    · intro hall
      have hsub : s.layers ⊆ (s.act e).layers := fun l hl => (hall l).mp ((hs l).mpr hl)
      have hlen := (List.subperm_of_subset h.apart.nodup hsub).length_le
      rw [layers, layers, List.length_map, List.length_map] at hlen
      omega
    · intro hlen l
      have hsame : (s.act e).layers = s.layers :=
        hk.layers.eq_of_length (by rw [layers, layers, List.length_map, List.length_map, hlen])
      rw [hsame, hs l]

/-- A step that frees no slot has nothing to clean up. -/
theorem cleansUp_of_frees (h : s.frees e = false) : s.CleansUp e := by
  have hall : ∀ p ∈ s.proxies, p ∈ (s.act e).proxies := by
    rcases s.act_cases e with ⟨n, rfl, hadds⟩ | ⟨n, rfl, hreplaces⟩ | ⟨hadds, -, hk⟩
    · rw [proxies_receive_new hadds]
      exact fun p hp => List.mem_append_left _ hp
    · rw [proxies_receive_visible hreplaces]
      exact fun p hp => hp
    · have hlen := (act_closes hadds).2.2.mpr h
      have hsame : (s.act e).proxies = s.proxies :=
        hk.proxies.eq_of_length (by rw [proxies, proxies, List.length_map, List.length_map, hlen])
      exact fun p hp => hsame.symm ▸ hp
  cases e with
  | dispatch e => trivial
  | _ => exact fun p hp hgone => absurd (hall p hp) hgone

end WaylandThreadState

/-- **When closed toasts leave nothing on the screen**: in the runs in which no toast goes. -/
theorem no_leftovers_iff (failure : ℕ → Option String) (clock : ℕ → ℕ) (es : List ThreadStep) :
    (waylandParts failure clock).Always WaylandThreadState.OnScreen (.new failure clock) es ∧
        (waylandParts failure clock).EachStep WaylandThreadState.CleansUp
          (.new failure clock) es ↔
      (waylandParts failure clock).EachStep (fun s e => s.frees e = false)
        (.new failure clock) es := by
  have hlegal : (waylandParts failure clock).Legal (.new failure clock) es :=
    EventMachine.legal_of_enabled (fun _ _ => trivial) _ es
  have hstart : (WaylandThreadState.new failure clock).Undestroyed :=
    ⟨.new failure clock, rfl⟩
  have hscreen : (WaylandThreadState.new failure clock).OnScreen := fun l =>
    ⟨fun h => h.1, fun h => absurd h (List.not_mem_nil)⟩
  have halways : (waylandParts failure clock).Always WaylandThreadState.OnScreen
      (.new failure clock) es ↔ _ :=
    EventMachine.always_iff_eachStep (fun s e hs _ => hs.act e)
      (fun s e hs hP _ => hs.onScreen_act hP e) hstart hscreen hlegal
  rw [halways]
  exact ⟨And.left, fun h => ⟨h, fun pre e hp => WaylandThreadState.cleansUp_of_frees (h pre e hp)⟩⟩

/-- A toast that has had its time is still on the screen. -/
theorem not_no_leftovers :
    ¬ ∀ (failure : ℕ → Option String) (clock : ℕ → ℕ) (es : List ThreadStep),
      (waylandParts failure clock).Always WaylandThreadState.OnScreen (.new failure clock) es ∧
        (waylandParts failure clock).EachStep WaylandThreadState.CleansUp
          (.new failure clock) es := by
  intro h
  have hlast := (h (fun _ => none) (fun n => n * 10000000000) [.receive (plain 1), .tick]).1.last
  exact absurd ((hlast 4).mp (by decide)) (by decide)

end NxNotif

end Nullxes
