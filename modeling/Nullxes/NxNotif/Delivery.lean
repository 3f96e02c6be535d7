import Mathlib.Data.List.Perm.Basic
import Nullxes.NxNotif.Ids

/-!
# What becomes of a notification

Every notification that is accepted is in one place: in the channel, waiting, on screen or closed.
Three things break that. A notification that looks like a close request is taken for one, and one
that gets the id of a notification on screen (once ids start again) takes its place; and the relay
loses what is closed while it is more than the capacity of its channel behind.

## Main definitions

* `Delivered` — where an accepted notification is, and what was signalled for it
* `Careful` — the steps that lose nothing

## Main results

* `notifications_delivered` — nothing is lost in a run of such steps
-/

namespace Nullxes

namespace NxNotif

/-- The calls that these notifications come from. -/
def tracked (l : List Notif) : List ℕ := l.filterMap Notif.origin

@[simp] theorem tracked_append (l l' : List Notif) : tracked (l ++ l') = tracked l ++ tracked l' :=
  List.filterMap_append

theorem tracked_singleton (n : Notif) : tracked [n] = n.origin.toList := by
  cases h : n.origin <;> simp [tracked, h]

namespace Daemon

/-- The notifications that were closed. -/
def closed (d : Daemon) : List Notif := d.thread.txClosed.map Closing.notif

/-- The notifications that were signalled to be closed. -/
def signalled (d : Daemon) : List Notif := d.signals.map fun s => s.closing.notif

end Daemon

/-- **Nothing is lost.** What was accepted was taken for a notification and is in one place; what is
closed is signalled once when the relay is done, and nothing else is. -/
structure Delivered (d : Daemon) : Prop where
  handled : d.misread = []
  once : ∀ n ∈ d.accepted, (tracked d.channel).count n + (tracked d.thread.queue).count n +
    (tracked d.thread.notifs).count n + (tracked d.closed).count n = 1
  signalled : ∀ n ∈ d.accepted, n ∈ tracked d.closed → d.received = d.thread.txClosed.length →
    (tracked d.signalled).count n = 1
  unsignalled : ∀ n ∈ d.accepted, n ∉ tracked d.closed → (tracked d.signalled).count n = 0

/-- A notification that is received is not taken for a close request, and has the id of none on
screen; the relay is not too far behind. -/
def Careful (d : Daemon) : DaemonEvent → Prop
  | .receive => ∀ n ∈ d.channel.head?, n.origin.isSome →
    n.isClose = false ∧ d.thread.isVisible n.id = false
  | .relay => d.thread.txClosed.length ≤ d.received + closedCapacity
  | _ => True

/-- What `Delivered` goes by: every call is in one place. -/
structure Accounted (d : Daemon) : Prop where
  sorted : Sorted d
  handled : d.misread = []
  places : (tracked (d.channel ++ d.thread.live ++ d.closed)).Perm d.accepted
  nodup : (d.accepted ++ tracked d.waiting).Nodup
  made : ∀ n ∈ d.accepted ++ tracked d.waiting, n < d.calls
  received_le : d.received ≤ d.thread.txClosed.length
  signals : d.signals.map ClosedSignal.closing = d.thread.txClosed.take d.received

theorem Accounted.delivered {d : Daemon} (h : Accounted d) : Delivered d := by
  have hsignalled : d.signalled = (d.thread.txClosed.take d.received).map Closing.notif := by
    rw [← h.signals, List.map_map]
    rfl
  have hnodup : d.accepted.Nodup := (List.nodup_append.mp h.nodup).1
  have hone : ∀ n ∈ d.accepted, (tracked d.channel).count n + (tracked d.thread.queue).count n +
      (tracked d.thread.notifs).count n + (tracked d.closed).count n = 1 := by
    intro n hn
    have hcount := h.places.count_eq n
    rw [List.count_eq_one_of_mem hnodup hn, WaylandThreadState.live] at hcount
    simp only [tracked_append, List.count_append] at hcount
    omega
  refine ⟨h.handled, hone, fun n hn hclosed hdone => ?_, fun n hn hopen => ?_⟩
  · rw [hsignalled, hdone, List.take_length]
    have hpos : 0 < (tracked d.closed).count n := List.count_pos_iff.mpr hclosed
    have hle := hone n hn
    show (tracked d.closed).count n = 1
    omega
  · rw [List.count_eq_zero, hsignalled]
    intro hmem
    have hsub : (tracked ((d.thread.txClosed.take d.received).map Closing.notif)).Sublist
        (tracked d.closed) :=
      ((List.take_sublist _ _).map _).filterMap _
    exact hopen (hsub.mem hmem)

namespace Accounted

variable {d : Daemon}

theorem notify (h : Accounted d) (call : NotifyCall) : Accounted (d.step (.notify call)) := by
  have hwaiting : tracked (d.step (.notify call)).waiting = tracked d.waiting ++ [d.calls] := by
    show tracked (d.waiting ++ [_]) = _
    rw [tracked_append]
    rfl
  refine ⟨h.sorted.step _, h.handled, h.places, ?_, ?_, h.received_le, h.signals⟩
  · rw [hwaiting, ← List.append_assoc]
    refine List.nodup_append.mpr ⟨h.nodup, List.nodup_singleton _, fun a ha b hb hab => ?_⟩
    rw [List.mem_singleton] at hb
    have hlt := h.made a ha
    omega
  · intro n hn
    rw [hwaiting, ← List.append_assoc] at hn
    show n < d.calls + 1
    rcases List.mem_append.mp hn with hn | hn
    · exact (h.made n hn).trans (Nat.lt_succ_self _)
    · rw [List.mem_singleton.mp hn]
      exact Nat.lt_succ_self _

theorem closeNotification (h : Accounted d) (id : UInt32) :
    Accounted (d.step (.closeNotification id)) := by
  have hwaiting : tracked (d.step (.closeNotification id)).waiting = tracked d.waiting := by
    show tracked (d.waiting ++ [_]) = _
    rw [tracked_append]
    exact List.append_nil _
  exact ⟨h.sorted.step _, h.handled, h.places, by rw [hwaiting]; exact h.nodup,
    by rw [hwaiting]; exact h.made, h.received_le, h.signals⟩

theorem send (h : Accounted d) (i : ℕ) : Accounted (d.step (.send i)) := by
  have hsorted := h.sorted.step (.send i)
  have hstep : d.step (.send i) = d.send i := rfl
  rw [hstep, Daemon.send] at hsorted ⊢
  cases hi : d.waiting[i]? with
  | none => exact h
  | some n =>
    rw [hi] at hsorted
    -- What waited is accepted, and the other calls still wait.
    have hmoved : (d.accepted ++ n.origin.toList ++ tracked (d.waiting.eraseIdx i)).Perm
        (d.accepted ++ tracked d.waiting) := by
      obtain ⟨hlt, hget⟩ := List.getElem?_eq_some_iff.mp hi
      have hperm : (n :: d.waiting.eraseIdx i).Perm d.waiting :=
        hget ▸ List.getElem_cons_eraseIdx_perm hlt
      have htracked := hperm.filterMap Notif.origin
      rw [List.append_assoc, ← tracked_singleton, ← tracked_append]
      exact htracked.append_left _
    refine ⟨hsorted, h.handled, ?_, hmoved.nodup_iff.mpr h.nodup,
      fun m hm => h.made m (hmoved.mem_iff.mp hm), h.received_le, h.signals⟩
    show (tracked (d.channel ++ [n] ++ d.thread.live ++ d.closed)).Perm
      (d.accepted ++ n.origin.toList)
    rw [List.perm_iff_count]
    intro a
    have hcount := h.places.count_eq a
    simp only [tracked_append, tracked_singleton, List.count_append] at hcount ⊢
    omega

/-- The thread closes what it closes. -/
theorem of_closes (h : Accounted d) {t : WaylandThreadState} {cs : List Closing}
    (hc : d.thread.Closes t cs) (hs : Sorted { d with thread := t }) :
    Accounted { d with thread := t } := by
  refine ⟨hs, h.handled, ?_, h.nodup, h.made, ?_, ?_⟩
  · rw [List.append_assoc]
    refine List.Perm.trans ?_ (List.append_assoc _ _ _ ▸ h.places)
    exact (hc.perm_closed.append_left _).filterMap _
  · show d.received ≤ t.txClosed.length
    rw [hc.txClosed, List.length_append]
    exact h.received_le.trans (Nat.le_add_right _ _)
  · show _ = t.txClosed.take d.received
    rw [hc.txClosed, List.take_append_of_le_length h.received_le]
    exact h.signals

/-- A message that the thread takes for a close request. -/
theorem receive_close (h : Accounted d) {n : Notif} {rest : List Notif} (hc : d.channel = n :: rest)
    (hclose : n.isClose = true) (hnone : n.origin = none) : Accounted (d.step .receive) := by
  have hsorted := h.sorted.step .receive
  have hstep : d.step .receive = d.receive := rfl
  rw [hstep, Daemon.receive, hc] at hsorted ⊢
  have hplaces := h.places
  rw [hc, List.cons_append, List.cons_append, tracked, List.filterMap_cons_none hnone] at hplaces
  obtain ⟨cs, hcl, -⟩ := WaylandThreadState.receive_close (s := d.thread) hclose
  have hrest : Accounted { d with channel := rest } := by
    refine ⟨⟨fun m hm => h.sorted.messages m ?_, h.sorted.live⟩, h.handled, hplaces, h.nodup,
      h.made, h.received_le, h.signals⟩
    rw [hc]
    exact (List.mem_append.mp hm).elim (List.mem_append_left _) fun hm =>
      List.mem_append_right _ (List.mem_cons_of_mem _ hm)
  have hafter := hrest.of_closes hcl ⟨hsorted.messages, hsorted.live⟩
  simpa [hnone] using hafter

/-- A notification with an id that is not on the screen. -/
theorem receive_new (h : Accounted d) {n : Notif} {rest : List Notif} (hc : d.channel = n :: rest)
    (hclose : n.isClose = false) (hvis : d.thread.isVisible n.id = false) :
    Accounted (d.step .receive) := by
  have hsorted := h.sorted.step .receive
  have hstep : d.step .receive = d.receive := rfl
  rw [hstep, Daemon.receive, hc] at hsorted ⊢
  have hplaces := h.places
  rw [hc] at hplaces
  have heq := WaylandThreadState.receive_eq_enqueue (s := d.thread) hclose
  have hlive : (d.thread.receive n).live = d.thread.live ++ [n] :=
    heq ▸ WaylandThreadState.live_enqueue_new hvis
  have htx : (d.thread.receive n).txClosed = d.thread.txClosed :=
    heq ▸ (WaylandThreadState.enqueue_new hvis).2.2
  refine ⟨hsorted, ?_, ?_, h.nodup, h.made, ?_, ?_⟩
  · simpa [hclose] using h.handled
  · show (tracked (rest ++ (d.thread.receive n).live ++
      (d.thread.receive n).txClosed.map Closing.notif)).Perm d.accepted
    rw [hlive, htx, List.perm_iff_count]
    intro a
    have hcount := hplaces.count_eq a
    have hcons : n :: rest = [n] ++ rest := rfl
    rw [hcons] at hcount
    simp only [tracked_append, List.count_append, Daemon.closed] at hcount ⊢
    omega
  · show d.received ≤ (d.thread.receive n).txClosed.length
    rw [htx]
    exact h.received_le
  · show _ = (d.thread.receive n).txClosed.take d.received
    rw [htx]
    exact h.signals

theorem receive (h : Accounted d) (he : Careful d .receive) : Accounted (d.step .receive) := by
  cases hc : d.channel with
  | nil =>
    have hstep : d.step .receive = d := Daemon.receive_nil hc
    rw [hstep]
    exact h
  | cons n rest =>
    have hhead : n ∈ d.channel.head? := by rw [hc]; rfl
    -- Only a message of `close_for` is taken for a close request.
    cases hsome : n.origin.isSome with
    | true =>
      obtain ⟨hclose, hvis⟩ := he n hhead hsome
      exact h.receive_new hc hclose hvis
    | false =>
      have hnone : n.origin = none := by simpa using hsome
      have hmem : n ∈ d.waiting ++ d.channel := by rw [hc]; simp
      exact h.receive_close hc (h.sorted.messages n hmem hnone) hnone

theorem relay (h : Accounted d) (he : Careful d .relay) : Accounted (d.step .relay) := by
  have hsorted := h.sorted.step .relay
  have hstep : d.step .relay = d.relay := rfl
  rw [hstep] at hsorted ⊢
  rcases d.relay_cases with ⟨hlag, -⟩ | ⟨-, ⟨heq, -⟩ | ⟨c, hc, heq⟩⟩
  · exact absurd hlag (Nat.not_lt_of_le he)
  · rw [heq]
    exact h
  · rw [heq] at hsorted ⊢
    obtain ⟨hlt, hget⟩ := List.getElem?_eq_some_iff.mp hc
    refine ⟨hsorted, h.handled, h.places, h.nodup, h.made, hlt, ?_⟩
    rw [List.map_append, h.signals, List.take_add_one, hc]
    rfl

/-- A careful step loses no call. -/
theorem step (h : Accounted d) {e : DaemonEvent} (he : Careful d e) : Accounted (d.step e) := by
  cases e with
  | notify call => exact h.notify call
  | closeNotification id => exact h.closeNotification id
  | send i => exact h.send i
  | receive => exact h.receive he
  | dispatch e =>
    obtain ⟨cs, hc, -⟩ := d.thread.dispatch_closes e
    exact h.of_closes hc (h.sorted.step (.dispatch e))
  | tick =>
    obtain ⟨cs, hc, -⟩ := d.thread.tick_closes
    exact h.of_closes hc (h.sorted.step .tick)
  | relay => exact h.relay he

end Accounted

instance (d : Daemon) (e : DaemonEvent) : Decidable (Careful d e) := by
  unfold Careful
  split <;> infer_instance

/-- **Notifications are neither lost nor closed twice**, in a run in which none that is received is
taken for a close request or has the id of one on screen, and the relay is never too far behind. -/
theorem notifications_delivered (failure : ℕ → Option String) (clock : ℕ → ℕ)
    {es : List DaemonEvent} (h : (daemon failure clock).Legal (.new failure clock) es)
    (hes : (daemon failure clock).EachStep Careful (.new failure clock) es) :
    (daemon failure clock).Always Delivered (.new failure clock) es := by
  have hstart : Accounted (.new failure clock) :=
    ⟨⟨nofun, nofun⟩, rfl, .nil, List.nodup_nil, nofun, Nat.le_refl _, rfl⟩
  exact (EventMachine.Always.of_eachStep (fun d e hd _ he => hd.step he) hstart h hes).mono
    fun d hd => hd.delivered

/-- A notification that is shown until its time is over, and signalled. -/
def expired : List DaemonEvent := delivered (say 0) ++ [.tick, .relay]

theorem notifications_delivered_expired :
    (daemon (fun _ => none) fun n => n * 10000000000).Always Delivered
      (.new (fun _ => none) fun n => n * 10000000000) expired :=
  notifications_delivered (fun _ => none) (fun n => n * 10000000000) (by decide) (by decide)

/-- A call with nothing in it that is shown until it is closed. -/
def sayNothing : NotifyCall := ⟨"", 0, "", "", "", [], [], 0⟩

/-- A notification without text that is to stay is taken for a close request. -/
theorem not_notifications_delivered :
    ¬ ∀ (failure : ℕ → Option String) (clock : ℕ → ℕ) (es : List DaemonEvent),
      (daemon failure clock).Legal (.new failure clock) es →
      (daemon failure clock).Always Delivered (.new failure clock) es := by
  intro h
  have hlast := (h (fun _ => none) (fun _ => 0) (delivered sayNothing) (by decide)).last
  exact absurd hlast.handled (by decide)

end NxNotif

end Nullxes
