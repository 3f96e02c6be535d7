import Nullxes.NxNotif.Pending

/-!
# What a close request closes

A message of `close_notification` removes the first toast with its id. It looks neither behind that
one nor at what waits, and what waits is shown later. So a request closes what it is for as long as
its id is that of one notification on the screen at most, and of none that waits.

## Main definitions

* `ClosesForGood` — what was there with the id of a request is not there from then on
* `OneOnScreen` — the id of a request is on the screen once at most, and does not wait

## Main results

* `closes_for_good_iff`
-/

namespace Nullxes

namespace NxNotif

/-- What is visible or waits with the id of a close request is neither when the request has been
received, nor at any later time. -/
def ClosesForGood (failure : ℕ → Option String) (clock : ℕ → ℕ) (d : Daemon) : DaemonEvent → Prop
  | .receive => ∀ id, d.channel.head? = some (.closeFor id) → ∀ m ∈ d.thread.live, m.id = id →
    ∀ fs, (daemon failure clock).Legal (d.step .receive) fs →
      m ∉ ((daemon failure clock).run (d.step .receive) fs).thread.live
  | _ => True

/-- The id of a close request is that of one visible notification at most, and of none that
waits. -/
def OneOnScreen (d : Daemon) : DaemonEvent → Prop
  | .receive => ∀ id, d.channel.head? = some (.closeFor id) →
    id ∉ d.thread.queue.map Notif.id ∧ (d.thread.notifs.map Notif.id).count id ≤ 1
  | _ => True

namespace WaylandThreadState

variable {s : WaylandThreadState}

/-- A close request closes one notification with its id, if one is visible. -/
theorem receive_closeFor (s : WaylandThreadState) (id : UInt32) :
    ∃ cs, s.Closes (s.receive (.closeFor id)) cs ∧
      cs.map (fun c => c.notif.id) = if s.isVisible id then [id] else [] := by
  have hclose : (Notif.closeFor id).isClose = true := rfl
  rw [receive, if_pos hclose]
  cases hidx : s.visible.findIdx? fun t => t.notif.id = (Notif.closeFor id).id with
  | none =>
    have hvis : s.isVisible id = false := findIdx?_eq_none_iff.mp hidx
    exact ⟨[], .of_eq rfl rfl rfl, by simp [hvis]⟩
  | some i =>
    obtain ⟨hi, hid, -⟩ := List.findIdx?_eq_some_iff_getElem.mp hidx
    have hid : s.visible[i].notif.id = id := of_decide_eq_true hid
    have hvis : s.isVisible id = true :=
      isVisible_iff.mpr ⟨_, List.mem_map_of_mem (List.getElem_mem hi), hid⟩
    exact ⟨_, close_closes (List.getElem?_eq_getElem hi) _, by simp [hvis, hid]⟩

/-- **What a close request leaves of its id**: nothing, exactly if there is one notification on the
screen at most, and none that waits. -/
theorem closeFor_iff (s : WaylandThreadState) (id : UInt32) :
    (∀ m ∈ s.live, m.id = id → m ∉ (s.receive (.closeFor id)).live) ↔
      id ∉ s.queue.map Notif.id ∧ (s.notifs.map Notif.id).count id ≤ 1 := by
  obtain ⟨cs, hc, hids⟩ := s.receive_closeFor id
  set t := s.receive (.closeFor id)
  have hcount : (t.notifs.map Notif.id).count id + (if s.isVisible id then 1 else 0) =
      (s.notifs.map Notif.id).count id := by
    have hperm := (hc.perm.map Notif.id).count_eq id
    rw [List.map_append, List.count_append, List.map_map] at hperm
    have hsame : cs.map (Notif.id ∘ Closing.notif) = cs.map fun c => c.notif.id := rfl
    rw [hsame, hids] at hperm
    rw [← hperm]
    cases s.isVisible id <;> simp
  have hvisible : s.isVisible id = true ↔ 0 < (s.notifs.map Notif.id).count id := by
    rw [List.count_pos_iff, isVisible_iff, List.mem_map]
  have hleft : (∀ m ∈ s.live, m.id = id → m ∉ t.live) ↔ id ∉ t.live.map Notif.id := by
    constructor
    · intro h hmem
      obtain ⟨m, hm, hid⟩ := List.mem_map.mp hmem
      exact h m (hc.live_sublist.mem hm) hid hm
    · rintro h m - rfl hm
      exact h (List.mem_map_of_mem hm)
  have hnotifs : id ∉ t.notifs.map Notif.id ↔ (s.notifs.map Notif.id).count id ≤ 1 := by
    rw [← List.count_eq_zero]
    split at hcount
    · omega
    next hno =>
      rw [hvisible] at hno
      omega
  rw [hleft, live, List.map_append, List.mem_append, not_or, hc.queue, hnotifs, and_comm]

end WaylandThreadState

/-! ## What is closed is gone -/

/-- Notifications from calls of their own are told apart by these. -/
theorem eq_of_origin {l : List Notif} (hl : (tracked l).Nodup) {m n : Notif} (hm : m ∈ l)
    (hn : n ∈ l) {k : ℕ} (hmk : m.origin = some k) (hnk : n.origin = some k) : m = n := by
  induction l with
  | nil => cases hm
  | cons x l ih =>
    have hcons : x :: l = [x] ++ l := rfl
    rw [hcons, tracked_append, tracked_singleton, List.nodup_append] at hl
    obtain ⟨-, hrest, hdisj⟩ := hl
    have hapart : ∀ y ∈ l, x.origin = some k → y.origin ≠ some k := by
      intro y hy hx hyk
      exact hdisj k (by rw [hx]; simp) k (List.mem_filterMap.mpr ⟨y, hy, hyk⟩) rfl
    rcases List.mem_cons.mp hm with rfl | hm'
    · rcases List.mem_cons.mp hn with rfl | hn'
      · rfl
      · exact absurd hnk (hapart n hn' hmk)
    · rcases List.mem_cons.mp hn with rfl | hn'
      · exact absurd hmk (hapart m hm' hnk)
      · exact ih hrest hm' hn'

/-- A live notification that is not live after the thread has received is gone. -/
theorem Owned.gone {d : Daemon} (h : Owned d) {n : Notif} {rest : List Notif}
    (hc : d.channel = n :: rest) {m : Notif} {k : ℕ} (hk : m.origin = some k)
    (hm : m ∈ d.thread.live) (hgone : m ∉ (d.step .receive).thread.live) :
    Gone (d.step .receive) k := by
  have hpending : m ∈ d.pending := List.mem_append_right _ hm
  have hlt : k < d.calls := h.made k (List.mem_filterMap.mpr ⟨m, hpending, hk⟩)
  have hcalls : (d.step .receive).calls = d.calls := d.calls_receive
  refine ⟨fun hmem => ?_, hcalls.symm ▸ hlt⟩
  obtain ⟨m', hm', hk'⟩ := List.mem_filterMap.mp hmem
  have hold := (pending_step d .receive).subset hm'
  have hnone : d.made .receive = [] := rfl
  rw [hnone, List.append_nil] at hold
  obtain rfl : m' = m := eq_of_origin h.nodup hold hpending hk' hk
  have hplaces : m' ∈ d.waiting ++ rest ++ (d.step .receive).thread.live := by
    have hwaiting : (d.step .receive).waiting = d.waiting := d.waiting_receive
    have hchannel : (d.step .receive).channel = rest := Daemon.channel_receive hc
    rwa [Daemon.pending, hwaiting, hchannel] at hm'
  rcases List.mem_append.mp hplaces with hmoving | hlive
  -- What is live is not in the channel as well.
  · have hnodup := h.nodup
    rw [Daemon.pending, tracked_append, List.nodup_append] at hnodup
    have hchannel : m' ∈ d.waiting ++ d.channel := by
      rw [hc]
      exact (List.mem_append.mp hmoving).elim (List.mem_append_left _) fun hrest =>
        List.mem_append_right _ (List.mem_cons_of_mem _ hrest)
    exact hnodup.2.2 k (List.mem_filterMap.mpr ⟨m', hchannel, hk⟩) k
      (List.mem_filterMap.mpr ⟨m', hm, hk⟩) rfl
  · exact hgone hlive

/-- **A close request closes for good** exactly if its id is on the screen once at most, and does
not wait. -/
theorem Owned.closesForGood_iff (failure : ℕ → Option String) (clock : ℕ → ℕ) {d : Daemon}
    (h : Owned d) (e : DaemonEvent) : ClosesForGood failure clock d e ↔ OneOnScreen d e := by
  cases e with
  | receive =>
    refine forall₂_congr fun id hhead => ?_
    obtain ⟨rest, hc⟩ := List.head?_eq_some_iff.mp hhead
    rw [← d.thread.closeFor_iff id, ← thread_receive hc]
    constructor
    · intro hall m hm hid
      exact hall m hm hid [] trivial
    · intro hall m hm hid fs _ hlater
      obtain ⟨k, hk⟩ := Option.isSome_iff_exists.mp (h.live m hm)
      have hgone := (h.gone hc hk hm (hall m hm hid)).run failure clock fs
      exact hgone.notMem (List.mem_filterMap.mpr ⟨m, List.mem_append_right _ hlater, hk⟩)
  | _ => exact Iff.rfl

/-! ## Runs -/

/-- **When close requests close for good**: in the runs in which each one that is received has the
id of one notification on the screen at most, and of none that waits. -/
theorem closes_for_good_iff (failure : ℕ → Option String) (clock : ℕ → ℕ) {es : List DaemonEvent}
    (h : (daemon failure clock).Legal (.new failure clock) es) :
    (daemon failure clock).EachStep (ClosesForGood failure clock) (.new failure clock) es ↔
      (daemon failure clock).EachStep OneOnScreen (.new failure clock) es := by
  have howned : (daemon failure clock).Always Owned (.new failure clock) es :=
    EventMachine.Always.of_invariant (fun d e hd _ => hd.step e) (.new failure clock) h
  exact EventMachine.eachStep_congr howned h fun d e hd _ => hd.closesForGood_iff failure clock e

/-- A close request that is made, sent and received. -/
def requested (id : UInt32) : List DaemonEvent := [.closeNotification id, .send 0, .receive]

theorem closes_for_good_iff_crowd :
    (daemon (fun _ => none) fun _ => 0).EachStep (ClosesForGood (fun _ => none) fun _ => 0)
        (.new (fun _ => none) fun _ => 0) (crowd ++ requested 1) ↔
      (daemon (fun _ => none) fun _ => 0).EachStep OneOnScreen (.new (fun _ => none) fun _ => 0)
        (crowd ++ requested 1) :=
  closes_for_good_iff (fun _ => none) (fun _ => 0) (by decide)

/-- A notification that waits is not closed. -/
theorem not_closes_for_good :
    ¬ ∀ (failure : ℕ → Option String) (clock : ℕ → ℕ) (es : List DaemonEvent),
      (daemon failure clock).Legal (.new failure clock) es →
      (daemon failure clock).EachStep (ClosesForGood failure clock) (.new failure clock) es := by
  intro h
  have hall := h (fun _ => none) (fun _ => 0) (crowd ++ requested 6) (by decide)
  have hlast := hall (crowd ++ [.closeNotification 6, .send 0]) .receive
    ⟨[], rfl⟩ 6 rfl
  exact hlast ((say 0).notif 6 5) (by decide) rfl [] trivial (by decide)

end NxNotif

end Nullxes
