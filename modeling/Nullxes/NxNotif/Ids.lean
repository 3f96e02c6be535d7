import Mathlib.Data.List.Nodup
import Nullxes.NxNotif.Dbus
import Nullxes.NxNotif.Toasts

/-!
# The ids of live notifications

A message for an id is matched against the notifications on screen only. So a `Notify` that replaces
one which waits adds a second one with its id, and one that looks like a close request closes what
it should replace.

## Main definitions

* `UniqueIds`, `UpdatesInPlace` — what should hold of a state, and of a step
* `Resolves` — a replacement is for a notification on screen, and looks like none to close it

## Main results

* `unique_ids_iff` — ids are unique and replacements happen in place exactly in runs that resolve
-/

namespace Nullxes

namespace NxNotif

/-- No two live notifications have the same id. -/
def UniqueIds (d : Daemon) : Prop := (d.thread.live.map Notif.id).Nodup

/-- A `Notify` for a live notification takes its place. -/
def UpdatesInPlace (d : Daemon) : DaemonEvent → Prop
  | .receive => ∀ n ∈ d.channel.head?, n.origin.isSome → n.id ∈ d.thread.live.map Notif.id →
    (d.step .receive).thread.live = d.thread.live.map fun m => if m.id = n.id then n else m
  | _ => True

/-- A `Notify` for a live notification is for one on screen, and is not taken for a close. -/
def Resolves (d : Daemon) : DaemonEvent → Prop
  | .receive => ∀ n ∈ d.channel.head?, n.origin.isSome → n.id ∈ d.thread.live.map Notif.id →
    n.isClose = false ∧ n.id ∉ d.thread.queue.map Notif.id
  | _ => True

/-- The messages come from `notify` or look like closes, and no such message is a notification. -/
structure Sorted (d : Daemon) : Prop where
  messages : ∀ n ∈ d.waiting ++ d.channel, n.origin = none → n.isClose = true
  live : ∀ n ∈ d.thread.live, n.isClose = false

section Lists

variable {n : Notif} {l : List Notif}

/-- With unique ids, the notification with this id is the one at this position. -/
theorem set_eq_map (hl : (l.map Notif.id).Nodup) {i : ℕ} (hi : i < l.length)
    (hid : (l.get ⟨i, hi⟩).id = n.id) :
    l.set i n = l.map fun m => if m.id = n.id then n else m := by
  refine List.ext_getElem (by simp) fun j hj hj' => ?_
  rw [List.getElem_set, List.getElem_map]
  have hj : j < l.length := by simpa using hj
  by_cases hij : i = j
  · subst hij
    rw [if_pos rfl]
    exact (if_pos hid).symm
  · have hne : l[j].id ≠ n.id := by
      intro heq
      have hsame : l[i] = l[j] :=
        List.inj_on_of_nodup_map hl (List.getElem_mem hi) (List.getElem_mem hj)
          (hid.trans heq.symm)
      exact hij ((List.Nodup.of_map _ hl).getElem_inj_iff.mp hsame)
    rw [if_neg hij, if_neg hne]

theorem map_replace_of_notMem (h : n.id ∉ l.map Notif.id) :
    (l.map fun m => if m.id = n.id then n else m) = l := by
  refine (List.map_congr_left fun m hm => if_neg fun heq => h ?_).trans (List.map_id l)
  exact List.mem_map.mpr ⟨m, hm, heq⟩

theorem map_id_set {i : ℕ} (hi : i < l.length) (hid : (l.get ⟨i, hi⟩).id = n.id) :
    (l.set i n).map Notif.id = l.map Notif.id :=
  WaylandThreadState.map_set_same Notif.id (List.getElem?_eq_getElem hi) hid.symm

end Lists

namespace WaylandThreadState

variable {s : WaylandThreadState} {n : Notif}

theorem mem_live_enqueue {m : Notif} (hm : m ∈ (s.enqueue n).live) : m ∈ s.live ∨ m = n := by
  cases hvis : s.isVisible n.id with
  | true =>
    obtain ⟨i, hi, -, hv, hq, -⟩ := enqueue_visible hvis
    rw [live, hv, hq, List.mem_append] at hm
    rcases hm with hm | hm
    · rcases List.mem_or_eq_of_mem_set hm with hm | rfl
      · exact .inl (List.mem_append_left _ hm)
      · exact .inr rfl
    · exact .inl (List.mem_append_right _ hm)
  | false =>
    rw [live_enqueue_new hvis] at hm
    exact (List.mem_append.mp hm).imp_right List.mem_singleton.mp

theorem isVisible_iff_mem : s.isVisible n.id = true ↔ n.id ∈ s.notifs.map Notif.id := by
  rw [isVisible_iff, List.mem_map]

/-- A message that is a notification, for an id that is not waiting: it takes the place of the
visible one, or comes last. -/
theorem live_receive (hclose : n.isClose = false) (hq : n.id ∉ s.queue.map Notif.id) :
    (n.id ∈ s.live.map Notif.id ∧ (s.receive n).live.map Notif.id = s.live.map Notif.id) ∨
      (n.id ∉ s.live.map Notif.id ∧ (s.receive n).live = s.live ++ [n]) := by
  rw [receive_eq_enqueue hclose]
  cases hvis : s.isVisible n.id with
  | true =>
    left
    obtain ⟨i, hi, hid, hv, hqueue, -⟩ := enqueue_visible hvis
    refine ⟨?_, ?_⟩
    · rw [live, List.map_append]
      exact List.mem_append_left _ (isVisible_iff_mem.mp hvis)
    · rw [live, hv, hqueue, List.map_append, map_id_set hi hid, live, List.map_append]
  | false =>
    right
    refine ⟨fun hmem => ?_, live_enqueue_new hvis⟩
    rw [live, List.map_append, List.mem_append] at hmem
    rcases hmem with hmem | hmem
    · rw [← isVisible_iff_mem, hvis] at hmem
      cases hmem
    · exact hq hmem

/-- **A message for a live notification takes its place** exactly if that one is on screen, and
the message is none to close it. -/
theorem receive_inPlace_iff (hs : (s.live.map Notif.id).Nodup)
    (hlive : ∀ m ∈ s.live, m.isClose = false) (hmem : n.id ∈ s.live.map Notif.id) :
    ((s.receive n).live = s.live.map fun m => if m.id = n.id then n else m) ↔
      n.isClose = false ∧ n.id ∉ s.queue.map Notif.id := by
  have hsplit : (s.notifs.map Notif.id ++ s.queue.map Notif.id).Nodup := by
    rwa [← List.map_append]
  obtain ⟨hnotifs, -, hdisj⟩ := List.nodup_append.mp hsplit
  constructor
  · intro h
    have hclose : n.isClose = false := by
      by_contra hno
      have hclose : n.isClose = true := by simpa using hno
      obtain ⟨m, hm, hid⟩ := List.mem_map.mp hmem
      have hn : n ∈ (s.receive n).live := by
        rw [h]
        exact List.mem_map.mpr ⟨m, hm, if_pos hid⟩
      obtain ⟨cs, hcl, -⟩ := receive_close (s := s) hclose
      exact hno (hlive n (hcl.live_sublist.mem hn))
    refine ⟨hclose, fun hq => ?_⟩
    have hvis : s.isVisible n.id = false := by
      cases hvis : s.isVisible n.id with
      | false => rfl
      | true => exact absurd rfl (hdisj _ (isVisible_iff_mem.mp hvis) _ hq)
    rw [receive_eq_enqueue hclose, live_enqueue_new hvis] at h
    have hlen := congrArg List.length h
    simp at hlen
  · rintro ⟨hclose, hq⟩
    have hvis : s.isVisible n.id = true := by
      rw [live, List.map_append] at hmem
      exact isVisible_iff_mem.mpr ((List.mem_append.mp hmem).resolve_right hq)
    obtain ⟨i, hi, hid, hv, hqueue, -⟩ := enqueue_visible hvis
    rw [receive_eq_enqueue hclose, live, hv, hqueue, live, List.map_append,
      set_eq_map hnotifs hi hid, map_replace_of_notMem hq]

end WaylandThreadState

/-! ## One step -/

section Step

variable {d : Daemon} {n : Notif} {rest : List Notif}

theorem thread_receive (h : d.channel = n :: rest) :
    (d.step .receive).thread = d.thread.receive n := Daemon.thread_receive h

theorem thread_receive_nil (h : d.channel = []) : (d.step .receive).thread = d.thread :=
  congrArg Daemon.thread (Daemon.receive_nil h)

/-- Only receiving, dispatching and ticking reach the thread. -/
theorem thread_step {e : DaemonEvent} (he : e ≠ .receive) :
    (d.step e).thread = d.thread ∨ ∃ cs, d.thread.Closes (d.step e).thread cs := by
  cases e with
  | notify call => exact .inl rfl
  | closeNotification id => exact .inl rfl
  | send i => exact .inl (d.thread_send i)
  | receive => exact absurd rfl he
  | dispatch e =>
    obtain ⟨cs, h, -⟩ := d.thread.dispatch_closes e
    exact .inr ⟨cs, h⟩
  | tick =>
    obtain ⟨cs, h, -⟩ := d.thread.tick_closes
    exact .inr ⟨cs, h⟩
  | relay => exact .inl d.thread_relay

theorem live_step {e : DaemonEvent} (he : e ≠ .receive) :
    (d.step e).thread.live.Sublist d.thread.live := by
  rcases thread_step he with heq | ⟨cs, h⟩
  · rw [heq]
  · exact h.live_sublist

theorem messages_new {m : Notif} (hm : m ∈ d.waiting ++ [n] ++ d.channel) :
    m ∈ d.waiting ++ d.channel ∨ m = n := by
  rcases List.mem_append.mp hm with hm | hm
  · rcases List.mem_append.mp hm with hm | hm
    · exact .inl (List.mem_append_left _ hm)
    · exact .inr (List.mem_singleton.mp hm)
  · exact .inl (List.mem_append_right _ hm)

theorem messages_send {i : ℕ} {m : Notif} (hm : m ∈ (d.send i).waiting ++ (d.send i).channel) :
    m ∈ d.waiting ++ d.channel := by
  rw [Daemon.send] at hm
  split at hm
  · exact hm
  next n hn =>
    rcases List.mem_append.mp hm with hm | hm
    · exact List.mem_append_left _ (List.mem_of_mem_eraseIdx hm)
    · rcases List.mem_append.mp hm with hm | hm
      · exact List.mem_append_right _ hm
      · rw [List.mem_singleton.mp hm]
        exact List.mem_append_left _ (List.mem_of_getElem? hn)

theorem messages_receive {m : Notif} (hm : m ∈ d.receive.waiting ++ d.receive.channel) :
    m ∈ d.waiting ++ d.channel := by
  cases hc : d.channel with
  | nil =>
    rwa [Daemon.receive_nil hc, hc] at hm
  | cons n rest =>
    rw [d.waiting_receive, Daemon.channel_receive hc] at hm
    exact List.mem_append.mpr ((List.mem_append.mp hm).imp_right (List.mem_cons_of_mem _))

/-- What is not received goes from one place to the next. -/
theorem messages_step (e : DaemonEvent) {m : Notif}
    (hm : m ∈ (d.step e).waiting ++ (d.step e).channel) :
    m ∈ d.waiting ++ d.channel ∨ m.origin.isSome ∨ m.isClose = true := by
  cases e with
  | notify call =>
    refine (messages_new hm).imp_right ?_
    rintro rfl
    exact .inl rfl
  | closeNotification id =>
    refine (messages_new hm).imp_right ?_
    rintro rfl
    exact .inr rfl
  | send i => exact .inl (messages_send hm)
  | receive => exact .inl (messages_receive hm)
  | dispatch e => exact .inl hm
  | tick => exact .inl hm
  | relay =>
    left
    have hrelay : (d.step .relay) = d.relay := rfl
    obtain ⟨_, _, heq⟩ := d.relay_eq
    rw [hrelay, heq] at hm
    exact hm

theorem Sorted.step (h : Sorted d) (e : DaemonEvent) : Sorted (d.step e) := by
  refine ⟨fun m hm hnone => ?_, fun m hm => ?_⟩
  · rcases messages_step e hm with hm | hsome | hclose
    · exact h.messages m hm hnone
    · rw [hnone] at hsome
      cases hsome
    · exact hclose
  by_cases he : e = .receive
  · subst he
    match hc : d.channel with
    | [] =>
      rw [thread_receive_nil hc] at hm
      exact h.live m hm
    | n :: rest =>
      rw [thread_receive hc] at hm
      cases hclose : n.isClose with
      | true =>
        obtain ⟨cs, hcl, -⟩ := WaylandThreadState.receive_close (s := d.thread) hclose
        exact h.live m (hcl.live_sublist.mem hm)
      | false =>
        rw [WaylandThreadState.receive_eq_enqueue hclose] at hm
        rcases WaylandThreadState.mem_live_enqueue hm with hm | rfl
        · exact h.live m hm
        · exact hclose
  · exact h.live m ((live_step he).mem hm)

/-- Ids stay unique in a step that resolves. -/
theorem UniqueIds.step (h : UniqueIds d) (hs : Sorted d) {e : DaemonEvent} (he : Resolves d e) :
    UniqueIds (d.step e) := by
  by_cases hr : e = .receive
  · subst hr
    match hc : d.channel with
    | [] =>
      unfold UniqueIds
      rwa [thread_receive_nil hc]
    | n :: rest =>
      unfold UniqueIds
      rw [thread_receive hc]
      cases hclose : n.isClose with
      | true =>
        obtain ⟨cs, hcl, -⟩ := WaylandThreadState.receive_close (s := d.thread) hclose
        exact h.sublist (hcl.live_sublist.map _)
      | false =>
        have hsome : n.origin.isSome := by
          by_contra hno
          have hnone : n.origin = none := by simpa using hno
          have hmem : n ∈ d.waiting ++ d.channel := by rw [hc]; simp
          rw [hs.messages n hmem hnone] at hclose
          cases hclose
        have hq : n.id ∉ d.thread.queue.map Notif.id := by
          intro hmem
          have hlive : n.id ∈ d.thread.live.map Notif.id := by
            rw [WaylandThreadState.live, List.map_append]
            exact List.mem_append_right _ hmem
          exact (he n (by rw [hc]; rfl) hsome hlive).2 hmem
        rcases WaylandThreadState.live_receive hclose hq with ⟨-, heq⟩ | ⟨hnew, heq⟩
        · rw [heq]
          exact h
        · rw [heq, List.map_append]
          exact List.nodup_append.mpr ⟨h, List.nodup_singleton _, fun a ha b hb hab => by
            rw [List.map_singleton, List.mem_singleton] at hb
            exact hnew (hb ▸ hab ▸ ha)⟩
  · exact h.sublist ((live_step hr).map _)

/-- **A step updates in place exactly if it resolves.** -/
theorem updatesInPlace_iff (h : UniqueIds d) (hs : Sorted d) (e : DaemonEvent) :
    UpdatesInPlace d e ↔ Resolves d e := by
  cases e with
  | receive =>
    refine forall₂_congr fun n hn => forall₂_congr fun hsome hlive => ?_
    obtain ⟨rest, hc⟩ : ∃ rest, d.channel = n :: rest := List.head?_eq_some_iff.mp hn
    rw [thread_receive hc]
    exact WaylandThreadState.receive_inPlace_iff h hs.live hlive
  | _ => exact Iff.rfl

end Step

/-! ## Runs -/

/-- **When ids are unique and replacements happen in place**: in the runs in which every `Notify`
for a live notification is for one on screen, and is not taken for a close. -/
theorem unique_ids_iff (failure : ℕ → Option String) (clock : ℕ → ℕ) {es : List DaemonEvent}
    (h : (daemon failure clock).Legal (.new failure clock) es) :
    (daemon failure clock).Always UniqueIds (.new failure clock) es ∧
        (daemon failure clock).EachStep UpdatesInPlace (.new failure clock) es ↔
      (daemon failure clock).EachStep Resolves (.new failure clock) es := by
  have hstart : UniqueIds (.new failure clock) ∧ Sorted (.new failure clock) :=
    ⟨List.nodup_nil, ⟨nofun, nofun⟩⟩
  have hsorted : (daemon failure clock).Always Sorted (.new failure clock) es :=
    .of_invariant (fun d e hd _ => hd.step e) hstart.2 h
  have hcongr : (daemon failure clock).Always UniqueIds (.new failure clock) es →
      ((daemon failure clock).EachStep UpdatesInPlace (.new failure clock) es ↔
        (daemon failure clock).EachStep Resolves (.new failure clock) es) := fun hunique =>
    EventMachine.eachStep_congr (I := fun d => UniqueIds d ∧ Sorted d)
      (fun pre hp => ⟨hunique pre hp, hsorted pre hp⟩) h
      fun d e hd _ => updatesInPlace_iff hd.1 hd.2 e
  constructor
  · rintro ⟨hunique, hplace⟩
    exact (hcongr hunique).mp hplace
  · intro hes
    have hunique : (daemon failure clock).Always UniqueIds (.new failure clock) es :=
      (EventMachine.Always.of_eachStep (I := fun d => UniqueIds d ∧ Sorted d)
        (fun d e hd _ he => ⟨hd.1.step hd.2 he, hd.2.step e⟩) hstart h hes).mono fun d hd => hd.1
    exact ⟨hunique, (hcongr hunique).mpr hes⟩

/-- A call that is made, sent and received. -/
def delivered (call : NotifyCall) : List DaemonEvent := [.notify call, .send 0, .receive]

/-- A call with nothing but a summary, and an id to replace. -/
def say (replacesId : UInt32) : NotifyCall := ⟨"", replacesId, "", "a", "", [], [], -1⟩

/-- As many notifications as there are slots, and one more. -/
def crowd : List DaemonEvent := (List.replicate 6 (delivered (say 0))).flatten

theorem unique_ids_iff_crowd :
    (daemon (fun _ => none) fun _ => 0).Always UniqueIds (.new (fun _ => none) fun _ => 0)
          (crowd ++ delivered (say 5)) ∧
        (daemon (fun _ => none) fun _ => 0).EachStep UpdatesInPlace
          (.new (fun _ => none) fun _ => 0) (crowd ++ delivered (say 5)) ↔
      (daemon (fun _ => none) fun _ => 0).EachStep Resolves (.new (fun _ => none) fun _ => 0)
        (crowd ++ delivered (say 5)) :=
  unique_ids_iff (fun _ => none) (fun _ => 0) (by decide)

/-- A replacement for a notification that waits is added to it. -/
theorem not_unique_ids :
    ¬ ∀ (failure : ℕ → Option String) (clock : ℕ → ℕ) (es : List DaemonEvent),
      (daemon failure clock).Legal (.new failure clock) es →
      (daemon failure clock).Always UniqueIds (.new failure clock) es ∧
        (daemon failure clock).EachStep UpdatesInPlace (.new failure clock) es := by
  intro h
  have hlast := (h (fun _ => none) (fun _ => 0) (crowd ++ delivered (say 6)) (by decide)).1.last
  unfold UniqueIds at hlast
  exact absurd hlast (by decide)

end NxNotif

end Nullxes
