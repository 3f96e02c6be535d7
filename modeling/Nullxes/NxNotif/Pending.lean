import Mathlib.Data.List.Perm.Subperm
import Nullxes.NxNotif.Delivery

/-!
# Notifications on their way

A message is made by a call, waits for room in the channel, is in the channel, waits for a slot, or
is on screen. Whatever happens moves messages between these places, takes some away and makes no
copies; only a call makes a new one. So a notification that is in none of the places is gone, and
two that are in them come from different calls.

## Main definitions

* `Daemon.pending` — the messages in all places
* `Owned` — every notification comes from a call of its own
* `Gone` — the notification of a call is in none of the places

## Main results

* `pending_step` — an event moves messages, and makes those that it makes
* `Gone.run` — what is gone stays gone
-/

namespace Nullxes

namespace NxNotif

/-- What has been sent or is to be, and has not been closed or replaced. -/
def Daemon.pending (d : Daemon) : List Notif := d.waiting ++ d.channel ++ d.thread.live

/-- The message that a call makes. -/
def Daemon.made (d : Daemon) : DaemonEvent → List Notif
  | .notify call => [call.notif (d.takeId call.replacesId).1 d.calls]
  | .closeNotification id => [.closeFor id]
  | _ => []

namespace WaylandThreadState

variable {s : WaylandThreadState}

/-- A message that is received is live afterwards, or is not. -/
theorem live_receive_subperm (s : WaylandThreadState) (n : Notif) :
    (s.receive n).live.Subperm (n :: s.live) := by
  cases hclose : n.isClose with
  | true =>
    obtain ⟨cs, hcl, -⟩ := receive_close (s := s) hclose
    exact (hcl.live_sublist.trans (List.sublist_cons_self _ _)).subperm
  | false =>
    rw [receive_eq_enqueue hclose]
    cases hvis : s.isVisible n.id with
    | true =>
      obtain ⟨i, hi, -, hv, hq, -⟩ := enqueue_visible hvis
      have hset : (s.notifs.set i n ++ s.queue).Perm
          (n :: (s.notifs.eraseIdx i ++ s.queue)) :=
        (List.set_perm_cons_eraseIdx hi n).append_right _
      rw [live, hv, hq]
      refine hset.subperm.trans ((List.subperm_cons n).mpr ?_)
      exact ((List.eraseIdx_sublist _ _).append_right _).subperm
    | false =>
      rw [live_enqueue_new hvis]
      exact (List.perm_append_singleton _ _).subperm

end WaylandThreadState

theorem pending_call (d : Daemon) (n : Notif) :
    ({ d with waiting := d.waiting ++ [n] } : Daemon).pending.Perm (d.pending ++ [n]) := by
  rw [List.perm_iff_count]
  intro m
  simp only [Daemon.pending, List.count_append]
  omega

/-- Where the messages stay where they are, there are no new ones. -/
theorem pending_same {d d' : Daemon} (hw : d'.waiting = d.waiting) (hc : d'.channel = d.channel)
    (hl : d'.thread.live.Sublist d.thread.live) : d'.pending.Subperm d.pending := by
  rw [Daemon.pending, Daemon.pending, hw, hc]
  exact (hl.append_left _).subperm

theorem pending_send (d : Daemon) (i : ℕ) : (d.send i).pending.Subperm d.pending := by
  rw [Daemon.send]
  cases hi : d.waiting[i]? with
  | none => exact .refl _
  | some n =>
    obtain ⟨hlt, rfl⟩ := List.getElem?_eq_some_iff.mp hi
    have hmove : (d.waiting.eraseIdx i ++ (d.channel ++ [d.waiting[i]])).Perm
        (d.waiting ++ d.channel) := by
      have hperm := List.getElem_cons_eraseIdx_perm hlt
      rw [← List.append_assoc]
      refine (List.perm_append_singleton _ _).trans ?_
      exact hperm.append_right d.channel
    exact (hmove.append_right d.thread.live).subperm

theorem pending_receive (d : Daemon) : d.receive.pending.Subperm d.pending := by
  cases hc : d.channel with
  | nil =>
    rw [Daemon.receive_nil hc]
  | cons n rest =>
    have hmove : (d.waiting ++ rest ++ n :: d.thread.live).Perm
        (d.waiting ++ n :: rest ++ d.thread.live) := by
      rw [List.append_assoc, List.append_assoc]
      exact List.perm_middle.append_left _
    rw [Daemon.pending, Daemon.pending, d.waiting_receive, Daemon.channel_receive hc,
      Daemon.thread_receive hc, hc]
    refine ((List.subperm_append_left _).mpr (d.thread.live_receive_subperm n)).trans ?_
    exact hmove.subperm

/-- **An event moves messages**, takes some away, and makes those that it makes. -/
theorem pending_step (d : Daemon) (e : DaemonEvent) :
    (d.step e).pending.Subperm (d.pending ++ d.made e) := by
  have hmoves : ∀ {d' : Daemon}, d'.pending.Subperm d.pending →
      d'.pending.Subperm (d.pending ++ []) := by
    intro d' h
    rwa [List.append_nil]
  cases e with
  | notify call => exact (pending_call d _).subperm
  | closeNotification id => exact (pending_call d _).subperm
  | send i => exact hmoves (pending_send d i)
  | receive => exact hmoves (pending_receive d)
  | dispatch e =>
    obtain ⟨cs, hc, -⟩ := d.thread.dispatch_closes e
    exact hmoves (pending_same rfl rfl hc.live_sublist)
  | tick =>
    obtain ⟨cs, hc, -⟩ := d.thread.tick_closes
    exact hmoves (pending_same rfl rfl hc.live_sublist)
  | relay =>
    obtain ⟨_, _, heq⟩ := d.relay_eq
    show d.relay.pending.Subperm _
    rw [heq]
    exact hmoves (pending_same rfl rfl (.refl _))

/-! ## The calls that notifications come from -/

theorem tracked_subperm {l l' : List Notif} (h : l.Subperm l') :
    (tracked l).Subperm (tracked l') := by
  obtain ⟨m, hperm, hsub⟩ := h
  exact ⟨tracked m, hperm.filterMap _, hsub.filterMap _⟩

/-- A call of `notify` makes a notification, under the next number. -/
theorem tracked_made (d : Daemon) (e : DaemonEvent) :
    tracked (d.made e) = [] ∧ (d.step e).calls = d.calls ∨
      tracked (d.made e) = [d.calls] ∧ (d.step e).calls = d.calls + 1 := by
  cases e with
  | notify call => exact .inr ⟨rfl, rfl⟩
  | send i => exact .inl ⟨rfl, d.calls_send i⟩
  | receive => exact .inl ⟨rfl, d.calls_receive⟩
  | relay => exact .inl ⟨rfl, d.calls_relay⟩
  | _ => exact .inl ⟨rfl, rfl⟩

/-- Every notification comes from a call of its own. -/
structure Owned (d : Daemon) : Prop where
  sorted : Sorted d
  live : ∀ m ∈ d.thread.live, m.origin.isSome
  nodup : (tracked d.pending).Nodup
  made : ∀ k ∈ tracked d.pending, k < d.calls

namespace Owned

variable {d : Daemon}

theorem new (failure : ℕ → Option String) (clock : ℕ → ℕ) : Owned (.new failure clock) :=
  ⟨⟨nofun, nofun⟩, nofun, List.nodup_nil, nofun⟩

/-- What becomes live is no close request. -/
theorem live_step (h : Owned d) (e : DaemonEvent) {m : Notif} (hm : m ∈ (d.step e).thread.live) :
    m.origin.isSome := by
  by_cases he : e = .receive
  · subst he
    match hc : d.channel with
    | [] =>
      rw [thread_receive_nil hc] at hm
      exact h.live m hm
    | n :: rest =>
      have hlive := (h.sorted.step .receive).live m hm
      rw [thread_receive hc] at hm
      rcases List.mem_cons.mp ((d.thread.live_receive_subperm n).subset hm) with rfl | hm
      · by_contra hno
        have hnone : m.origin = none := by simpa using hno
        have hclose := h.sorted.messages m (by rw [hc]; simp) hnone
        rw [hlive] at hclose
        cases hclose
      · exact h.live m hm
  · exact h.live m ((NxNotif.live_step he).mem hm)

theorem step (h : Owned d) (e : DaemonEvent) : Owned (d.step e) := by
  have hstep := tracked_subperm (pending_step d e)
  rw [tracked_append] at hstep
  refine ⟨h.sorted.step e, fun m => h.live_step e, ?_, fun k hk => ?_⟩
  · obtain ⟨l, hperm, hsub⟩ := hstep
    refine hperm.nodup_iff.mp (List.Nodup.sublist hsub ?_)
    rcases tracked_made d e with ⟨hmade, -⟩ | ⟨hmade, -⟩ <;> rw [hmade]
    · rw [List.append_nil]
      exact h.nodup
    · refine List.nodup_append.mpr ⟨h.nodup, List.nodup_singleton _, fun a ha b hb hab => ?_⟩
      have hlt := h.made a ha
      rw [hab, List.mem_singleton.mp hb] at hlt
      exact Nat.lt_irrefl _ hlt
  · have hmem := List.mem_append.mp (hstep.subset hk)
    rcases tracked_made d e with ⟨hmade, hcalls⟩ | ⟨hmade, hcalls⟩ <;> rw [hmade] at hmem <;>
      rw [hcalls]
    · exact h.made k (hmem.resolve_right List.not_mem_nil)
    · rcases hmem with hmem | hmem
      · exact (h.made k hmem).trans (Nat.lt_succ_self _)
      · rw [List.mem_singleton.mp hmem]
        exact Nat.lt_succ_self _

end Owned

/-- The notification of a call is nowhere any more. -/
structure Gone (d : Daemon) (k : ℕ) : Prop where
  notMem : k ∉ tracked d.pending
  made : k < d.calls

namespace Gone

variable {d : Daemon} {k : ℕ}

theorem step (h : Gone d k) (e : DaemonEvent) : Gone (d.step e) k := by
  have hstep := tracked_subperm (pending_step d e)
  rw [tracked_append] at hstep
  rcases tracked_made d e with ⟨hmade, hcalls⟩ | ⟨hmade, hcalls⟩ <;> rw [hmade] at hstep
  · refine ⟨fun hmem => ?_, hcalls ▸ h.made⟩
    exact (List.mem_append.mp (hstep.subset hmem)).elim h.notMem List.not_mem_nil
  · refine ⟨fun hmem => ?_, hcalls ▸ h.made.trans (Nat.lt_succ_self _)⟩
    rcases List.mem_append.mp (hstep.subset hmem) with hmem | hmem
    · exact h.notMem hmem
    · exact absurd (List.mem_singleton.mp hmem) (Nat.ne_of_lt h.made)

/-- **What is gone stays gone.** -/
theorem run (failure : ℕ → Option String) (clock : ℕ → ℕ) (h : Gone d k) (es : List DaemonEvent) :
    Gone ((daemon failure clock).run d es) k := by
  induction es generalizing d with
  | nil => exact h
  | cons e es ih => exact ih (h.step e)

end Gone

end NxNotif

end Nullxes
