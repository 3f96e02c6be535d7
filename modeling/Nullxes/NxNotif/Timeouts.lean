import Mathlib.Order.Monotone.Defs
import Nullxes.Library.Logs
import Nullxes.NxNotif.Stack

/-!
# The time a toast has

A toast expires a lifetime after it was shown or given another notification, whichever came last.
A tick takes exactly the toasts that have expired. But a lifetime is at least a millisecond: a
notification that is to stay until it is closed goes like one that has the shortest time there is.

## Main definitions

* `Timed` — the thread, with when each toast was last shown or replaced
* `OnTime`, `Fleeting` — what should hold of a tick, and what is visible at one

## Main results

* `on_time_iff` — toasts go on time exactly in the runs with fleeting ones
-/

namespace Nullxes

namespace NxNotif

/-- Milliseconds as nanoseconds. -/
def millis (n : ℕ) : ℕ := n * 1000000

namespace WaylandThreadState

variable {s : WaylandThreadState}

/-- The layer surfaces of the toasts that are shown, or get another notification, in a part of a
round, with what the clock gives then. -/
def shows (s : WaylandThreadState) : ThreadStep → List (Proxy × ℕ)
  | .receive n =>
    if n.isClose then []
    else
      match s.visible.find? fun v => v.notif.id = n.id with
      | some v => [(v.layer, s.clock s.reads)]
      | none =>
        ((s.act (.receive n)).visible.drop s.visible.length).mapIdx fun j v =>
          (v.layer, s.clock (s.reads + j))
  | _ => []

end WaylandThreadState

/-- The thread, with when each toast was shown or replaced. -/
structure Timed where
  thread : WaylandThreadState
  shown : List (Proxy × ℕ)

namespace Timed

/-- What a part of a round does. -/
def act (d : Timed) (e : ThreadStep) : Timed := ⟨d.thread.act e, d.shown ++ d.thread.shows e⟩

/-- When a toast was last shown or replaced. -/
def shownAt (d : Timed) (v : VisibleToast) : Option ℕ := Logs.last v.layer d.shown

/-- A tick takes a toast if its notification has a timeout, and that is over. -/
def OnTime (d : Timed) : ThreadStep → Prop
  | .tick => ∀ v ∈ d.thread.visible, ∃ t ∈ d.shownAt v,
    (v ∉ (d.thread.act .tick).visible ↔ v.notif.timeoutMs ≠ 0 ∧
      t + millis v.notif.timeoutMs.toNat ≤ d.thread.clock d.thread.reads)
  | _ => True

/-- What has no timeout has just been shown when a tick comes. -/
def Fleeting (d : Timed) : ThreadStep → Prop
  | .tick => ∀ v ∈ d.thread.visible, v.notif.timeoutMs = 0 → ∀ t ∈ d.shownAt v,
    d.thread.clock d.thread.reads < t + millis 1
  | _ => True

end Timed

/-- The thread, part by part, with when each toast was shown or replaced. -/
def timedParts (failure : ℕ → Option String) (clock : ℕ → ℕ) : EventMachine Timed ThreadStep where
  Init d := d = ⟨.new failure clock, []⟩
  Enabled _ _ := True
  step := .act

/-! ## What is shown -/

namespace WaylandThreadState

variable {s : WaylandThreadState}

theorem shows_adds {n : Notif} (h : s.adds (.receive n) = true) :
    s.shows (.receive n) = (List.range (s.placed n).length).map fun j =>
      (s.nextProxy + 2 * j + 1, s.clock (s.reads + j)) := by
  obtain ⟨hclose, hvis⟩ : n.isClose = false ∧ s.isVisible n.id = false := by simpa [adds] using h
  have hfind : (s.visible.find? fun v => v.notif.id = n.id) = none := by
    rw [← findIdx?_eq_none_iff, List.findIdx?_eq_none_iff] at hvis
    rw [List.find?_eq_none]
    exact fun v hv => by simpa using hvis v hv
  have hvisible : (s.act (.receive n)).visible = s.visible ++ s.made (s.placed n) := by
    rw [act_receive_new h]
  rw [shows, if_neg (by simp [hclose]), hfind, hvisible, List.drop_left]
  exact List.ext_getElem (by simp [made]) fun j _ _ => by simp [made]

theorem shows_replaces {n : Notif} (h : s.replaces (.receive n) = true) :
    ∃ i v, s.visible[i]? = some v ∧ s.shows (.receive n) = [(v.layer, s.clock s.reads)] ∧
      s.act (.receive n) = { s with
        visible := s.visible.set i
          { v with notif := n, expiresAt := s.clock s.reads + lifetime n, buffer := none }
        reads := s.reads + 1 } := by
  obtain ⟨i, v, hidx, hv, -, hact⟩ := act_receive_visible h
  have hclose : n.isClose = false := by
    simp only [replaces, Bool.and_eq_true, Bool.not_eq_true'] at h
    exact h.1
  have hfind : (s.visible.find? fun v => v.notif.id = n.id) = some v := by
    rw [List.find?_eq_bind_findIdx?_getElem?, hidx]
    exact hv
  refine ⟨i, v, hv, ?_, hact⟩
  rw [shows, if_neg (by simp [hclose]), hfind]

theorem shows_keeps {e : ThreadStep} (hadds : s.adds e = false) (hreplaces : s.replaces e = false) :
    s.shows e = [] := by
  cases e with
  | receive n =>
    have hclose : n.isClose = true := by
      by_contra hno
      have hclose : n.isClose = false := by simpa using hno
      simp only [adds, replaces, hclose, Bool.not_false, Bool.true_and] at hadds hreplaces
      rw [hreplaces] at hadds
      cases hadds
    exact if_pos hclose
  | _ => rfl

end WaylandThreadState

/-! ## When toasts expire -/

/-- A notification with a timeout has that for a lifetime. -/
theorem lifetime_eq {n : Notif} (h : n.timeoutMs ≠ 0) :
    WaylandThreadState.lifetime n = millis n.timeoutMs.toNat := by
  have hmax : max n.timeoutMs 1 = n.timeoutMs := by
    show (if n.timeoutMs ≤ 1 then 1 else n.timeoutMs) = _
    split
    next hle =>
      have hne : n.timeoutMs.toNat ≠ 0 := fun hzero => h (UInt32.toNat_inj.mp hzero)
      have hone : n.timeoutMs.toNat ≤ 1 := UInt32.le_iff_toNat_le.mp hle
      refine UInt32.toNat_inj.mp ?_
      show 1 = n.timeoutMs.toNat
      omega
    · rfl
  rw [WaylandThreadState.lifetime, hmax, millis]

/-- Every toast expires a lifetime after it was last shown or replaced. -/
structure Dated (d : Timed) : Prop where
  apart : d.thread.Apart
  expires : ∀ m ∈ d.thread.marks, ∃ t ∈ Logs.last m.layer d.shown,
    m.expiresAt = t + WaylandThreadState.lifetime m.notif

namespace Dated

open WaylandThreadState

variable {d : Timed}

theorem adds (h : Dated d) {n : Notif} (hadds : d.thread.adds (.receive n) = true) :
    Dated (d.act (.receive n)) := by
  refine ⟨h.apart.act (.receive n), fun m hm => ?_⟩
  have hshown : (d.act (.receive n)).shown = d.shown ++
      (List.range (d.thread.placed n).length).map fun j =>
        (d.thread.nextProxy + 2 * j + 1, d.thread.clock (d.thread.reads + j)) :=
    congrArg (d.shown ++ ·) (shows_adds hadds)
  have hmarks : (d.act (.receive n)).thread.marks = d.thread.marks ++
      (d.thread.made (d.thread.placed n)).map VisibleToast.mark := by
    show (d.thread.act (.receive n)).marks = _
    rw [act_receive_new hadds]
    exact List.map_append
  rw [hmarks, List.mem_append] at hm
  rw [hshown]
  rcases hm with hm | hm
  · obtain ⟨v, hv, rfl⟩ := List.mem_map.mp hm
    have hold : v.layer ∈ d.thread.layers := List.mem_map_of_mem hv
    obtain ⟨t, ht, hexp⟩ := h.expires _ hm
    refine ⟨t, ?_, hexp⟩
    rw [Logs.last_append_of_notMem]
    · exact ht
    · rw [List.map_map]
      exact h.apart.notMem_new hold
  · obtain ⟨v, hv, rfl⟩ := List.mem_map.mp hm
    obtain ⟨j, m, hj, rfl⟩ := mem_made.mp hv
    refine ⟨d.thread.clock (d.thread.reads + j), ?_, rfl⟩
    refine Logs.last_append_of_mem ?_ ?_
    · rw [List.map_map]
      exact nodup_new _ _
    · have hlt := (List.getElem?_eq_some_iff.mp hj).1
      exact List.mem_map_of_mem (List.mem_range.mpr hlt)

theorem replaces (h : Dated d) {n : Notif} (hreplaces : d.thread.replaces (.receive n) = true) :
    Dated (d.act (.receive n)) := by
  refine ⟨h.apart.act (.receive n), fun m hm => ?_⟩
  obtain ⟨i, v, hv, hshows, hact⟩ := shows_replaces hreplaces
  have hshown : (d.act (.receive n)).shown =
      d.shown ++ [(v.layer, d.thread.clock d.thread.reads)] :=
    congrArg (d.shown ++ ·) hshows
  obtain ⟨w, hw, rfl⟩ := List.mem_map.mp hm
  have hvisible : (d.act (.receive n)).thread.visible = _ :=
    congrArg WaylandThreadState.visible hact
  rw [hvisible] at hw
  rw [hshown]
  rcases h.apart.mem_set hv hw with rfl | ⟨hw, hne⟩
  · exact ⟨_, Logs.last_concat, rfl⟩
  · obtain ⟨t, ht, hexp⟩ := h.expires _ (List.mem_map_of_mem hw)
    refine ⟨t, ?_, hexp⟩
    rw [Logs.last_append_of_notMem]
    · exact ht
    · exact fun hmem => hne (List.mem_singleton.mp hmem)

theorem act (h : Dated d) (e : ThreadStep) : Dated (d.act e) := by
  rcases d.thread.act_cases e with ⟨n, rfl, hadds⟩ | ⟨n, rfl, hreplaces⟩ | ⟨hadds, hreplaces, hk⟩
  · exact h.adds hadds
  · exact h.replaces hreplaces
  · refine ⟨h.apart.act e, fun m hm => ?_⟩
    have hshown : (d.act e).shown = d.shown := by
      show d.shown ++ d.thread.shows e = _
      rw [shows_keeps hadds hreplaces, List.append_nil]
    rw [hshown]
    exact h.expires m (hk.marks.mem hm)

/-- **A tick is on time** exactly if what has no timeout has just been shown. -/
theorem onTime_iff (h : Dated d) (e : ThreadStep) : d.OnTime e ↔ d.Fleeting e := by
  cases e with
  | tick =>
    refine forall₂_congr fun v hv => ?_
    obtain ⟨t, ht, hexp⟩ := h.expires v.mark (List.mem_map_of_mem hv)
    have hshown : d.shownAt v = some t := ht
    have hgone : v ∉ (d.thread.act .tick).visible ↔
        t + lifetime v.notif ≤ d.thread.clock d.thread.reads := by
      have hexp : v.expiresAt = t + lifetime v.notif := hexp
      show v ∉ d.thread.tickTimeouts.visible ↔ _
      rw [tickTimeouts_eq, List.mem_filter, ← hexp]
      simp [hv]
    simp only [hshown, Option.mem_def, Option.some.injEq, exists_eq_left', forall_eq', hgone]
    by_cases hzero : v.notif.timeoutMs = 0
    · have hlife : lifetime v.notif = millis 1 := by
        rw [lifetime, hzero]
        rfl
      simp [hzero, hlife]
    · simp [hzero, lifetime_eq hzero]
  | _ => exact Iff.rfl

end Dated

/-- **When toasts go on time**: in the runs in which a tick only ever finds notifications without a
timeout that have just been shown. -/
theorem on_time_iff (failure : ℕ → Option String) (clock : ℕ → ℕ) (es : List ThreadStep) :
    (timedParts failure clock).EachStep Timed.OnTime ⟨.new failure clock, []⟩ es ↔
      (timedParts failure clock).EachStep Timed.Fleeting ⟨.new failure clock, []⟩ es := by
  have hlegal : (timedParts failure clock).Legal ⟨.new failure clock, []⟩ es :=
    EventMachine.legal_of_enabled (fun _ _ => trivial) _ es
  have hdated : (timedParts failure clock).Always Dated ⟨.new failure clock, []⟩ es :=
    EventMachine.Always.of_invariant (fun d e hd _ => hd.act e) ⟨.new failure clock, nofun⟩ hlegal
  exact EventMachine.eachStep_congr hdated hlegal fun d e hd _ => hd.onTime_iff e

/-- A notification that is to stay until it is closed. -/
def sticky : Notif := { plain 1 with timeoutMs := 0 }

/-- A notification that is to stay is gone with the first tick after a millisecond. -/
theorem not_on_time :
    ¬ ∀ (failure : ℕ → Option String) (clock : ℕ → ℕ), Monotone clock → ∀ es : List ThreadStep,
      (timedParts failure clock).EachStep Timed.OnTime ⟨.new failure clock, []⟩ es := by
  intro h
  have hmono : Monotone fun n => n * 10000000000 := fun _ _ hab => Nat.mul_le_mul_right _ hab
  have hall := h (fun _ => none) _ hmono [.receive sticky, .tick]
  obtain ⟨t, ht, hiff⟩ := hall [.receive sticky] .tick (List.prefix_refl _) _
    (List.mem_singleton.mpr rfl)
  exact absurd rfl (hiff.mp (by decide)).1

end NxNotif

end Nullxes
