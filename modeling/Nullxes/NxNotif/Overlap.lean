import Nullxes.Library.Logs
import Nullxes.NxNotif.Stack

/-!
# Toasts on top of each other

A toast gets its place when it is made: the one after as many as are visible then. It keeps it when
toasts above it go, and the next one that is made is placed by how many are left, which may be the
place of one that stayed.

## Main definitions

* `NoOverlap` — the extents of the visible toasts are disjoint
* `Lands` — no toast is made where one stands

## Main results

* `no_overlap_iff` — toasts do not overlap exactly in the runs in which each lands
-/

namespace Nullxes

namespace NxNotif

/-- The top margin that the request gives a layer surface. -/
def Request.margin : Request → Option (Proxy × Int32)
  | .setMargin layer top _ _ _ => some (layer, top)
  | _ => none

/-- Toasts with these top margins are disjoint from `top` to `top + TOAST_H`. -/
def Clear (a b : Int32) : Prop :=
  a.toInt + toastH.toNat ≤ b.toInt ∨ b.toInt + toastH.toNat ≤ a.toInt

instance (a b : Int32) : Decidable (Clear a b) := inferInstanceAs (Decidable (_ ∨ _))

/-- Two places of the stack are disjoint unless they are one. -/
theorem clear_topOf : ∀ j < maxVisible, ∀ k < maxVisible, Clear (topOf j) (topOf k) ↔ j ≠ k := by
  decide

theorem topOf_inj : ∀ j < maxVisible, ∀ k < maxVisible, topOf j = topOf k → j = k := by
  decide

namespace WaylandThreadState

variable {s : WaylandThreadState}

/-- The top margin that a layer surface was last given. -/
def marginTop (s : WaylandThreadState) (layer : Proxy) : Option Int32 :=
  Logs.last layer (s.sent.filterMap Request.margin)

/-- Any two visible toasts have their margins, and are disjoint. -/
def NoOverlap (s : WaylandThreadState) : Prop :=
  s.visible.Pairwise fun v w =>
    ∃ a ∈ s.marginTop v.layer, ∃ b ∈ s.marginTop w.layer, Clear a b

/-- Where toasts are made, none stands. -/
def Lands (s : WaylandThreadState) : ThreadStep → Prop
  | .receive n => s.adds (.receive n) = true → ∀ j < (s.placed n).length, ∀ v ∈ s.visible,
    s.marginTop v.layer ≠ some (topOf (s.visible.length + j))
  | _ => True

/-! ## Margins -/

/-- The requests for new toasts place these, one after the other. -/
theorem margins_setups (s : WaylandThreadState) (k : ℕ) :
    (s.setups k).filterMap Request.margin =
      (List.range k).map fun j => (s.nextProxy + 2 * j + 1, topOf (s.visible.length + j)) := by
  rw [filterMap_setups, List.map_eq_flatMap]
  rfl

theorem Keeps.marginTop {t : WaylandThreadState} (h : s.Keeps t) : t.marginTop = s.marginTop := by
  obtain ⟨rs, hsent, hplain⟩ := h.sent
  have hnone : rs.filterMap Request.margin = [] := by
    rw [List.filterMap_eq_nil_iff]
    intro r hr
    have hr := hplain r hr
    cases r <;> first | rfl | cases hr
  funext l
  rw [WaylandThreadState.marginTop, hsent, List.filterMap_append, hnone, List.append_nil]
  rfl

/-! ## The margins of the stack -/

/-- The top margins of the toasts. -/
def tops (s : WaylandThreadState) : List (Option Int32) := s.layers.map s.marginTop

theorem tops_receive_new (h : s.Apart) {n : Notif} (hadds : s.adds (.receive n) = true) :
    (s.act (.receive n)).tops = s.tops ++
      (List.range (s.placed n).length).map fun j => some (topOf (s.visible.length + j)) := by
  have hmargins : (s.act (.receive n)).sent.filterMap Request.margin =
      s.sent.filterMap Request.margin ++ (List.range (s.placed n).length).map fun j =>
        (s.nextProxy + 2 * j + 1, topOf (s.visible.length + j)) := by
    rw [act_receive_new hadds, List.filterMap_append, margins_setups]
  rw [tops, layers_receive_new hadds, List.map_append, List.map_map]
  congr 1
  · refine List.map_congr_left fun l hl => ?_
    rw [marginTop, hmargins]
    refine Logs.last_append_of_notMem fun hmem => ?_
    rw [List.map_map] at hmem
    exact h.notMem_new hl hmem
  · refine List.map_congr_left fun j hj => ?_
    show (s.act (.receive n)).marginTop (s.nextProxy + 2 * j + 1) = _
    rw [marginTop, hmargins]
    refine Logs.last_append_of_mem ?_ (List.mem_map_of_mem hj)
    rw [List.map_map]
    exact nodup_new _ _

theorem tops_receive_visible {n : Notif} (hreplaces : s.replaces (.receive n) = true) :
    (s.act (.receive n)).tops = s.tops := by
  obtain ⟨i, v, -, -, -, hact⟩ := act_receive_visible hreplaces
  have hmargin : (s.act (.receive n)).marginTop = s.marginTop := by
    rw [hact]
    rfl
  rw [tops, layers_receive_visible hreplaces, hmargin, tops]

theorem Keeps.tops {t : WaylandThreadState} (h : s.Keeps t) : t.tops.Sublist s.tops := by
  rw [WaylandThreadState.tops, WaylandThreadState.tops, h.marginTop]
  exact h.layers.map _

/-- What is known of the stack: every toast stands in one of its places. -/
structure Arranged (s : WaylandThreadState) : Prop where
  apart : s.Apart
  bounded : s.visible.length ≤ maxVisible
  placed : ∀ top ∈ s.tops, ∃ k < maxVisible, top = some (topOf k)

theorem length_placed_le (s : WaylandThreadState) (n : Notif) :
    (s.placed n).length ≤ maxVisible - s.visible.length := by
  rw [placed, List.length_take]
  omega

theorem Arranged.act (h : s.Arranged) (e : ThreadStep) : (s.act e).Arranged := by
  refine ⟨h.apart.act e, act_bounded h.bounded e, fun top htop => ?_⟩
  rcases s.act_cases e with ⟨n, rfl, hadds⟩ | ⟨n, rfl, hreplaces⟩ | ⟨-, -, hk⟩
  · rw [tops_receive_new h.apart hadds] at htop
    rcases List.mem_append.mp htop with htop | htop
    · exact h.placed top htop
    · obtain ⟨j, hj, rfl⟩ := List.mem_map.mp htop
      have hlt := List.mem_range.mp hj
      have hle := s.length_placed_le n
      exact ⟨_, by omega, rfl⟩
  · rw [tops_receive_visible hreplaces] at htop
    exact h.placed top htop
  · exact h.placed top (hk.tops.mem htop)

/-- Toasts in the places of the stack are disjoint unless two stand in one. -/
theorem Arranged.noOverlap_iff (h : s.Arranged) : s.NoOverlap ↔ s.tops.Nodup := by
  rw [NoOverlap, tops, layers, List.map_map, List.Nodup, List.pairwise_map]
  refine List.Pairwise.iff_of_mem fun {v w} hv hw => ?_
  obtain ⟨j, hj, htop⟩ := h.placed (s.marginTop v.layer)
    (List.mem_map_of_mem (List.mem_map_of_mem hv))
  obtain ⟨k, hk, htop'⟩ := h.placed (s.marginTop w.layer)
    (List.mem_map_of_mem (List.mem_map_of_mem hw))
  have hclear := clear_topOf j hj k hk
  simp only [Function.comp_apply, htop, htop', Option.mem_def, Option.some.injEq, exists_eq_left',
    hclear, ne_eq]
  exact not_congr ⟨fun hjk => hjk ▸ rfl, topOf_inj j hj k hk⟩

/-- **A step leaves toasts disjoint** exactly if those it makes land where none stands. -/
theorem Arranged.noOverlap_act (h : s.Arranged) (hs : s.NoOverlap) (e : ThreadStep) :
    (s.act e).NoOverlap ↔ s.Lands e := by
  rw [h.noOverlap_iff] at hs
  rw [(h.act e).noOverlap_iff]
  rcases s.act_cases e with ⟨n, rfl, hadds⟩ | ⟨n, rfl, hreplaces⟩ | ⟨hadds, -, hk⟩
  · have hfresh : ((List.range (s.placed n).length).map fun j =>
        some (topOf (s.visible.length + j))).Nodup := by
      refine List.Nodup.map_on (fun j hj k hk hjk => ?_) List.nodup_range
      have hle := s.length_placed_le n
      have hj := List.mem_range.mp hj
      have hk := List.mem_range.mp hk
      have hsame := topOf_inj _ (by omega) _ (by omega) (Option.some.inj hjk)
      omega
    rw [tops_receive_new h.apart hadds, List.nodup_append]
    simp only [hs, hfresh, true_and, List.mem_map, List.mem_range, Lands, hadds, forall_true_left]
    constructor
    · intro hne j hj v hv htop
      exact hne _ (List.mem_map_of_mem (List.mem_map_of_mem hv)) _ ⟨j, hj, rfl⟩ htop
    · rintro hlands top htop _ ⟨j, hj, rfl⟩
      obtain ⟨l, hl, rfl⟩ := List.mem_map.mp htop
      obtain ⟨v, hv, rfl⟩ := List.mem_map.mp hl
      exact hlands j hj v hv
  · have hnone : s.Lands (.receive n) := by
      intro hadds
      rw [adds_of_replaces hreplaces] at hadds
      cases hadds
    rw [tops_receive_visible hreplaces]
    exact iff_of_true hs hnone
  · have hnone : s.Lands e := by
      cases e with
      | receive n =>
        intro h
        rw [hadds] at h
        cases h
      | _ => trivial
    exact iff_of_true (hs.sublist hk.tops) hnone

end WaylandThreadState

/-- **When toasts do not overlap**: in the runs in which none is made where another stands. -/
theorem no_overlap_iff (failure : ℕ → Option String) (clock : ℕ → ℕ) (es : List ThreadStep) :
    (waylandParts failure clock).Always WaylandThreadState.NoOverlap (.new failure clock) es ↔
      (waylandParts failure clock).EachStep WaylandThreadState.Lands (.new failure clock) es := by
  have hlegal : (waylandParts failure clock).Legal (.new failure clock) es :=
    EventMachine.legal_of_enabled (fun _ _ => trivial) _ es
  have hstart : (WaylandThreadState.new failure clock).Arranged :=
    ⟨.new failure clock, Nat.zero_le _, nofun⟩
  exact EventMachine.always_iff_eachStep (fun s e hs _ => hs.act e)
    (fun s e hs hP _ => hs.noOverlap_act hP e) hstart .nil hlegal

/-- Two toasts, of which the upper is closed by a request, and a third. -/
def thirdOfThree : List ThreadStep :=
  [.receive (plain 1), .receive (plain 2), .receive (.closeFor 1), .receive (plain 3)]

/-- A third toast is made where the second still stands. -/
theorem not_no_overlap :
    ¬ ∀ (failure : ℕ → Option String) (clock : ℕ → ℕ) (es : List ThreadStep),
      (waylandParts failure clock).Always WaylandThreadState.NoOverlap (.new failure clock) es := by
  intro h
  have hlast := (h (fun _ => none) (fun _ => 0) thirdOfThree).last
  unfold WaylandThreadState.NoOverlap at hlast
  exact absurd hlast (by decide)

end NxNotif

end Nullxes
