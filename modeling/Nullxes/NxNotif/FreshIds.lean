import Mathlib.Data.Nat.ModEq
import Nullxes.NxNotif.Pending

/-!
# New ids

A call that replaces nothing gets the next number of a counter that wraps past 0. Nothing keeps that
number from being in use: a client may have chosen it, as the id of a notification to replace, or
the counter may have been there before. So whether it is new is a question of which calls the live
notifications come from.

## Main definitions

* `calls`, `asked` — the calls of `notify` in a run, and how many of these ask for a new id
* `FreshId` — the next id is not 0, and no live notification has it
* `Reused` — the call got the id that comes next

## Main results

* `fresh_id_iff`
-/

namespace Nullxes

namespace NxNotif

/-- The call of `notify`, if the event is one. -/
def DaemonEvent.call : DaemonEvent → Option NotifyCall
  | .notify call => some call
  | _ => none

/-- The calls of `notify`, in order. -/
def calls (es : List DaemonEvent) : List NotifyCall := es.filterMap DaemonEvent.call

/-- How many of the calls ask for a new id. -/
def asked (cs : List NotifyCall) : ℕ := cs.countP fun c => c.replacesId = 0

/-- How many ids there are. -/
def idPeriod : ℕ := UInt32.size - 1

/-- The next id, when this many have been given. -/
def counter (n : ℕ) : UInt32 := UInt32.ofNat (n % idPeriod + 1)

/-- The id that a call gets after these calls. -/
def idAfter (cs : List NotifyCall) (c : NotifyCall) : UInt32 :=
  if c.replacesId ≠ 0 then c.replacesId else counter (asked cs)

/-- What a call that asks for a new id gets is not 0, and no live notification has it. -/
def FreshId (d : Daemon) : Prop :=
  (d.takeId 0).1 ≠ 0 ∧ ∀ m ∈ d.thread.live, m.id ≠ (d.takeId 0).1

/-- This one of the calls got the id that comes next: it chose that, or it got a new one so many new
ones ago that they have started again. -/
def Reused (cs : List NotifyCall) (k : ℕ) : Prop :=
  ∃ c ∈ cs[k]?, c.replacesId = counter (asked cs) ∨
    (c.replacesId = 0 ∧ idPeriod ∣ asked cs - asked (cs.take k))

/-! ## The counter -/

theorem idPeriod_eq : idPeriod = 4294967295 := rfl

theorem toNat_counter (n : ℕ) : (counter n).toNat = n % idPeriod + 1 := by
  have hlt : n % idPeriod < idPeriod := Nat.mod_lt _ (by decide)
  have hsize : n % idPeriod + 1 < 2 ^ 32 := by
    rw [idPeriod_eq] at hlt ⊢
    omega
  exact UInt32.toNat_ofNat'.trans (Nat.mod_eq_of_lt hsize)

theorem counter_ne_zero (n : ℕ) : counter n ≠ 0 := by
  intro h
  have hzero := congrArg UInt32.toNat h
  rw [toNat_counter] at hzero
  exact Nat.succ_ne_zero _ hzero

theorem counter_eq_iff (m n : ℕ) (h : m ≤ n) : counter m = counter n ↔ idPeriod ∣ n - m := by
  rw [← UInt32.toNat_inj, toNat_counter, toNat_counter, Nat.add_right_cancel_iff]
  exact Nat.modEq_iff_dvd' h

/-- The counter goes on from its last number to 1. -/
theorem counter_succ (n : ℕ) : max (counter n + 1) 1 = counter (n + 1) := by
  have hadd : (counter n + 1).toNat = (n % idPeriod + 1 + 1) % 4294967296 := by
    rw [UInt32.toNat_add, toNat_counter]
    rfl
  have hnext := toNat_counter (n + 1)
  rw [idPeriod_eq] at hadd hnext
  show (if counter n + 1 ≤ 1 then 1 else counter n + 1) = _
  rw [← UInt32.toNat_inj, hnext]
  split
  next hle =>
    have hle : (counter n + 1).toNat ≤ 1 := UInt32.le_iff_toNat_le.mp hle
    show 1 = _
    omega
  next hgt =>
    have hgt : ¬ (counter n + 1).toNat ≤ 1 := fun hle => hgt (UInt32.le_iff_toNat_le.mpr hle)
    omega

/-! ## Which call a notification comes from -/

theorem asked_concat (cs : List NotifyCall) (c : NotifyCall) :
    asked (cs ++ [c]) = asked cs + if c.replacesId = 0 then 1 else 0 := by
  simp [asked, List.countP_append, List.countP_cons]

/-- The daemon after these calls: it has counted those that asked for a new id, and every
notification has the id that its call got. -/
structure Numbered (d : Daemon) (cs : List NotifyCall) : Prop where
  calls : d.calls = cs.length
  nextId : d.nextId = counter (asked cs)
  id : ∀ m ∈ d.pending, ∀ k ∈ m.origin, ∃ c ∈ cs[k]?, m.id = idAfter (cs.take k) c

namespace Numbered

variable {d : Daemon} {cs : List NotifyCall}

theorem new (failure : ℕ → Option String) (clock : ℕ → ℕ) : Numbered (.new failure clock) [] :=
  ⟨rfl, rfl, fun _ hm => absurd hm List.not_mem_nil⟩

theorem takeId (h : Numbered d cs) (c : NotifyCall) :
    d.takeId c.replacesId = (idAfter cs c, counter (asked (cs ++ [c]))) := by
  rw [Daemon.takeId, idAfter, asked_concat, h.nextId]
  by_cases hc : c.replacesId = 0
  · rw [if_neg (by simpa using hc), if_neg (by simpa using hc), if_pos hc, counter_succ]
  · rw [if_pos hc, if_pos hc, if_neg hc]
    rfl

/-- Only `notify` counts. -/
theorem nextId_step (d : Daemon) {e : DaemonEvent} (he : e.call = none) :
    (d.step e).nextId = d.nextId ∧ tracked (d.made e) = [] := by
  cases e with
  | notify call => cases he
  | send i => exact ⟨d.nextId_send i, rfl⟩
  | receive => exact ⟨d.nextId_receive, rfl⟩
  | relay => exact ⟨d.nextId_relay, rfl⟩
  | _ => exact ⟨rfl, rfl⟩

/-- Later calls change nothing for the earlier ones. -/
theorem id_append (h : Numbered d cs) (cs' : List NotifyCall) {m : Notif} (hm : m ∈ d.pending)
    {k : ℕ} (hk : k ∈ m.origin) :
    ∃ c ∈ (cs ++ cs')[k]?, m.id = idAfter ((cs ++ cs').take k) c := by
  obtain ⟨c, hc, hid⟩ := h.id m hm k hk
  obtain ⟨hlt, -⟩ := List.getElem?_eq_some_iff.mp hc
  refine ⟨c, ?_, ?_⟩
  · rw [List.getElem?_append_left hlt]
    exact hc
  · rw [List.take_append_of_le_length (Nat.le_of_lt hlt)]
    exact hid

theorem quiet (h : Numbered d cs) {e : DaemonEvent} (he : e.call = none) :
    Numbered (d.step e) cs := by
  obtain ⟨hnext, hmade⟩ := nextId_step d he
  have hcalls : (d.step e).calls = d.calls := by
    rcases tracked_made d e with ⟨-, hcalls⟩ | ⟨hone, -⟩
    · exact hcalls
    · rw [hmade] at hone
      cases hone
  refine ⟨hcalls.trans h.calls, hnext.trans h.nextId, fun m hm k hk => ?_⟩
  rcases List.mem_append.mp ((pending_step d e).subset hm) with hm | hm
  · exact h.id m hm k hk
  · have hmem : k ∈ tracked (d.made e) := List.mem_filterMap.mpr ⟨m, hm, hk⟩
    rw [hmade] at hmem
    cases hmem

theorem notify (h : Numbered d cs) (c : NotifyCall) :
    Numbered (d.step (.notify c)) (cs ++ [c]) := by
  have htake := h.takeId c
  refine ⟨?_, ?_, fun m hm k hk => ?_⟩
  · show d.calls + 1 = _
    rw [h.calls, List.length_append, List.length_singleton]
  · show (d.takeId c.replacesId).2 = _
    rw [htake]
  · rcases List.mem_append.mp ((pending_step d (.notify c)).subset hm) with hm | hm
    · exact h.id_append [c] hm hk
    · rw [Daemon.made, List.mem_singleton] at hm
      subst hm
      have hk : k = d.calls := (Option.some.inj hk).symm
      rw [hk, h.calls]
      refine ⟨c, List.getElem?_concat_length, ?_⟩
      show (d.takeId c.replacesId).1 = _
      rw [htake, List.take_left]

theorem step (h : Numbered d cs) (e : DaemonEvent) :
    Numbered (d.step e) (cs ++ e.call.toList) := by
  cases hcall : e.call with
  | none =>
    rw [Option.toList_none, List.append_nil]
    exact h.quiet hcall
  | some c =>
    obtain rfl : e = .notify c := by
      cases e <;> cases hcall
      rfl
    exact h.notify c

theorem run (failure : ℕ → Option String) (clock : ℕ → ℕ) (h : Numbered d cs)
    (es : List DaemonEvent) :
    Numbered ((daemon failure clock).run d es) (cs ++ NxNotif.calls es) := by
  induction es generalizing d cs with
  | nil =>
    rw [NxNotif.calls, List.filterMap_nil, List.append_nil]
    exact h
  | cons e es ih =>
    have hcalls : cs ++ NxNotif.calls (e :: es) = cs ++ e.call.toList ++ NxNotif.calls es := by
      rw [List.append_assoc]
      cases hcall : e.call <;> simp [NxNotif.calls, hcall]
    rw [hcalls]
    exact ih (h.step e)

/-- The call that a notification comes from got the next id exactly if it is reused. -/
theorem id_eq_iff (h : Numbered d cs) {m : Notif} (hm : m ∈ d.pending) {k : ℕ}
    (hk : m.origin = some k) : m.id = (d.takeId 0).1 ↔ Reused cs k := by
  obtain ⟨c, hc, hid⟩ := h.id m hm k hk
  have hc : cs[k]? = some c := hc
  have htake : (d.takeId 0).1 = counter (asked cs) := h.nextId
  have hle : asked (cs.take k) ≤ asked cs := List.Sublist.countP_le (List.take_sublist k cs)
  rw [Reused, hc, hid, htake, idAfter]
  simp only [Option.mem_def, Option.some.injEq, exists_eq_left']
  by_cases hzero : c.replacesId = 0
  · have hne : ¬ (0 : UInt32) = counter (asked cs) := fun heq => counter_ne_zero _ heq.symm
    rw [if_neg (by simpa using hzero), hzero, counter_eq_iff _ _ hle]
    simp [hne]
  · rw [if_pos hzero]
    simp [hzero]

end Numbered

/-! ## Runs -/

/-- **When a new id is new**: after the runs in which no live notification comes from a call that
got the id that comes next. -/
theorem fresh_id_iff (failure : ℕ → Option String) (clock : ℕ → ℕ) {es : List DaemonEvent}
    (h : (daemon failure clock).Legal (.new failure clock) es) :
    FreshId ((daemon failure clock).run (.new failure clock) es) ↔
      ∀ m ∈ ((daemon failure clock).run (.new failure clock) es).thread.live, ∀ k ∈ m.origin,
        ¬ Reused (calls es) k := by
  set d := (daemon failure clock).run (.new failure clock) es
  have howned : Owned d :=
    (EventMachine.Always.of_invariant (fun d e hd _ => hd.step e) (.new failure clock) h).last
  have hnumbered : Numbered d (calls es) :=
    Numbered.run failure clock (.new failure clock) es
  have hzero : (d.takeId 0).1 ≠ 0 := by
    have htake : (d.takeId 0).1 = counter (asked (calls es)) := hnumbered.nextId
    rw [htake]
    exact counter_ne_zero _
  rw [FreshId, and_iff_right hzero]
  refine forall₂_congr fun m hm => ?_
  obtain ⟨k, hk⟩ := Option.isSome_iff_exists.mp (howned.live m hm)
  have hiff := hnumbered.id_eq_iff (List.mem_append_right _ hm) hk
  rw [ne_eq, hiff, hk]
  simp

theorem fresh_id_iff_crowd :
    FreshId ((daemon (fun _ => none) fun _ => 0).run (.new (fun _ => none) fun _ => 0) crowd) ↔
      ∀ m ∈ ((daemon (fun _ => none) fun _ => 0).run (.new (fun _ => none) fun _ => 0)
        crowd).thread.live, ∀ k ∈ m.origin, ¬ Reused (calls crowd) k :=
  fresh_id_iff (fun _ => none) (fun _ => 0) (by decide)

/-- A client that replaces what has never been takes the id that comes next. -/
theorem not_fresh_id :
    ¬ ∀ (failure : ℕ → Option String) (clock : ℕ → ℕ) (es : List DaemonEvent),
      (daemon failure clock).Legal (.new failure clock) es →
      FreshId ((daemon failure clock).run (.new failure clock) es) := by
  intro h
  have hfresh := h (fun _ => none) (fun _ => 0) (delivered (say 1)) (by decide)
  exact hfresh.2 ((say 1).notif 1 0) (by decide) rfl

end NxNotif

end Nullxes
