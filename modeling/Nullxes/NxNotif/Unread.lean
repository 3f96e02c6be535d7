import Nullxes.NxNotif.Dbus
import Nullxes.NxNotif.Stack

/-!
# What the compositor says to the notification daemon

An event of the compositor has two ways to go: from the socket to the event queue, and from the
queue to the `Dispatch` implementations. `dispatch_pending` is the second one. The first is taken by
`blocking_dispatch`, by `roundtrip` and by a read that was prepared, and `wayland_thread` calls none
of them once its globals are bound. So a toast is never configured, and is never drawn; that its
time is over is signalled all the same.

`daemon`, `waylandParts` and `waylandThread` dispatch whatever there is to dispatch. The daemon with
its connection is one of each, in which nothing is dispatched that a handler looks at; what holds of
all their runs holds of its own.

## Representation

* `registry_queue_init` reads the socket before there is any other object than the registry, so what
  it can leave in the queue are events that no `Dispatch` implementation looks at.
* A round of `wayland_thread` has three parts: it receives until the channel is empty, dispatches
  what the queue holds, and sleeps until the tick. The rest of the daemon acts at any time.

## Main definitions

* `Connected`, `connected` — the daemon with its connection
* `WaylandThreadState.Blank` — nothing was drawn

## Main results

* `connectedDaemon`, `connectedThread` — its runs are runs of `daemon` and of `waylandParts`
* `rounds_of_connected` — and the thread goes through rounds of `waylandThread`
* `nothing_drawn` — no toast is ever drawn, and what the compositor says stays in the socket
-/

namespace Nullxes

namespace NxNotif

/-- Where a round of `wayland_thread` is. -/
inductive RoundPhase
  /-- In the loop over `try_recv`. -/
  | draining
  /-- Asleep, before `tick_timeouts`. -/
  | sleeping
  deriving DecidableEq, Repr

/-- The daemon with its connection to the compositor. -/
structure Connected where
  daemon : Daemon
  phase : RoundPhase
  /-- The event queue: what was read and not dispatched. -/
  queue : List ServerEvent
  /-- What the compositor wrote and nobody has read. -/
  socket : List ServerEvent

/-- What happens on both sides of the connection. -/
inductive ConnectedEvent
  /-- The compositor writes an event. -/
  | write (e : ServerEvent)
  | notify (call : NotifyCall)
  | closeNotification (id : UInt32)
  | send (i : ℕ)
  | relay
  /-- `try_recv` gives a message. -/
  | receive
  /-- `dispatch_pending`, when `try_recv` gives none. -/
  | dispatchPending
  /-- `tick_timeouts`, after the sleep. -/
  | tick
  deriving DecidableEq, Repr

namespace Connected

variable (c : Connected)

/-- An event of the daemon that is not about its connection. -/
def act (e : DaemonEvent) : Connected := { c with daemon := c.daemon.step e }

/-- `dispatch_pending`: everything in the queue is dispatched, and nothing is read. -/
def dispatchPending : Connected :=
  { c with
    daemon := c.queue.foldl (fun d e => d.step (.dispatch e)) c.daemon
    phase := .sleeping
    queue := [] }

def step : ConnectedEvent → Connected
  | .write e => { c with socket := c.socket ++ [e] }
  | .notify call => c.act (.notify call)
  | .closeNotification id => c.act (.closeNotification id)
  | .send i => c.act (.send i)
  | .relay => c.act .relay
  | .receive => c.act .receive
  | .dispatchPending => c.dispatchPending
  | .tick => { c.act .tick with phase := .draining }

/-- The thread goes through its round; the others wait for the channel only. -/
def Enabled : ConnectedEvent → Prop
  | .send i => i < c.daemon.waiting.length ∧ c.daemon.channel.length < wlCapacity
  | .receive => c.phase = .draining ∧ c.daemon.channel ≠ []
  | .dispatchPending => c.phase = .draining ∧ c.daemon.channel = []
  | .tick => c.phase = .sleeping
  | .write _ | .notify _ | .closeNotification _ | .relay => True

instance (e : ConnectedEvent) : Decidable (c.Enabled e) :=
  match e with
  | .send i =>
    inferInstanceAs (Decidable (i < c.daemon.waiting.length ∧ c.daemon.channel.length < wlCapacity))
  | .receive => inferInstanceAs (Decidable (c.phase = .draining ∧ c.daemon.channel ≠ []))
  | .dispatchPending => inferInstanceAs (Decidable (c.phase = .draining ∧ c.daemon.channel = []))
  | .tick => inferInstanceAs (Decidable (c.phase = .sleeping))
  | .write _ | .notify _ | .closeNotification _ | .relay => .isTrue trivial

end Connected

/-- **The daemon with its connection.** What `registry_queue_init` left in the queue is nothing that
is looked at. -/
def connected (failure : ℕ → Option String) (clock : ℕ → ℕ) :
    EventMachine Connected ConnectedEvent where
  Init c := c.daemon = .new failure clock ∧ c.phase = .draining ∧ ∀ e ∈ c.queue, e = .other
  Enabled := Connected.Enabled
  step := Connected.step

instance (failure : ℕ → Option String) (clock : ℕ → ℕ) (c : Connected) (e : ConnectedEvent) :
    Decidable ((connected failure clock).Enabled c e) :=
  inferInstanceAs (Decidable (c.Enabled e))

/-- What the compositor says in a run. -/
def ConnectedEvent.said : ConnectedEvent → List ServerEvent
  | .write e => [e]
  | _ => []

/-! ## Nothing is drawn -/

theorem forall_mem_modify {α : Type} {P : α → Prop} {f : α → α} (hf : ∀ a, P a → P (f a))
    {l : List α} (h : ∀ a ∈ l, P a) (i : ℕ) : ∀ a ∈ l.modify i f, P a := by
  induction l generalizing i with
  | nil => simp
  | cons b l ih =>
    obtain ⟨hb, hl⟩ := List.forall_mem_cons.mp h
    cases i with
    | zero => exact List.forall_mem_cons.mpr ⟨hf b hb, hl⟩
    | succ i => exact List.forall_mem_cons.mpr ⟨hb, ih hl i⟩

/-- The toast has not been configured, and has no buffer. -/
def VisibleToast.Blank (t : VisibleToast) : Prop := t.configured = false ∧ t.buffer = none

namespace WaylandThreadState

/-- Nothing was drawn, no configure acknowledged, and nothing closed by the compositor. -/
structure Blank (s : WaylandThreadState) : Prop where
  visible : ∀ t ∈ s.visible, t.Blank
  sent : ∀ r ∈ s.sent, r.isPlain = false
  txClosed : ∀ c ∈ s.txClosed, c.cause ≠ .compositor

namespace Blank

variable {s : WaylandThreadState}

theorem pumpOne (h : s.Blank) (n : Notif) : (s.pumpOne n).Blank where
  visible := List.forall_mem_append.mpr
    ⟨h.visible, List.forall_mem_singleton.mpr ⟨rfl, rfl⟩⟩
  sent := List.forall_mem_append.mpr ⟨h.sent, by simp [Request.isPlain]⟩
  txClosed := h.txClosed

theorem pumpFrom (h : s.Blank) (q : List Notif) : (s.pumpFrom q).Blank := by
  induction q generalizing s with
  | nil => exact ⟨h.visible, h.sent, h.txClosed⟩
  | cons n rest ih =>
    rw [WaylandThreadState.pumpFrom]
    split
    · exact ih (h.pumpOne n)
    · exact ⟨h.visible, h.sent, h.txClosed⟩

/-- A toast that is replaced loses a buffer that it did not have. -/
theorem enqueue (h : s.Blank) (n : Notif) : (s.enqueue n).Blank := by
  rw [WaylandThreadState.enqueue]
  split
  · refine ⟨?_, h.sent, h.txClosed⟩
    exact forall_mem_modify (fun t ht => ⟨ht.1, rfl⟩) h.visible _
  · have hqueue : { s with queue := s.queue ++ [n] }.Blank := ⟨h.visible, h.sent, h.txClosed⟩
    exact hqueue.pumpFrom _

theorem sendClosed (h : s.Blank) (n : Notif) {cause : Cause} (hc : cause ≠ .compositor) :
    (s.sendClosed n cause).Blank where
  visible := h.visible
  sent := h.sent
  txClosed := List.forall_mem_append.mpr ⟨h.txClosed, List.forall_mem_singleton.mpr hc⟩

theorem close (h : s.Blank) (idx : ℕ) {cause : Cause} (hc : cause ≠ .compositor) :
    (s.close idx cause).Blank := by
  rw [WaylandThreadState.close]
  split
  · exact h
  next t _ =>
    have herase : { s with visible := s.visible.eraseIdx idx }.Blank :=
      ⟨fun t ht => h.visible t (List.mem_of_mem_eraseIdx ht), h.sent, h.txClosed⟩
    exact herase.sendClosed t.notif hc

theorem receive (h : s.Blank) (n : Notif) : (s.receive n).Blank := by
  rw [WaylandThreadState.receive]
  split
  · split
    · exact h
    · refine h.close _ ?_
      split <;> decide
  · exact h.enqueue n

/-- A toast whose time is over is closed as if it had been seen. -/
theorem tickTimeouts (h : s.Blank) : s.tickTimeouts.Blank := by
  have hclosed : ∀ (l : List VisibleToast) (s : WaylandThreadState), s.Blank →
      (l.foldl (fun s t => s.sendClosed t.notif .timeout) s).Blank := by
    intro l
    induction l with
    | nil => exact fun _ h => h
    | cons t l ih => exact fun s h => ih _ (h.sendClosed t.notif (by decide))
  refine hclosed _ _ ⟨fun t ht => ?_, h.sent, h.txClosed⟩
  exact h.visible t (List.mem_of_mem_filter ht)

end Blank

end WaylandThreadState

/-! ## Runs -/

/-- Nothing was drawn, the queue holds nothing that matters, and no signal is about a toast that the
compositor closed. -/
structure Connected.Unread (c : Connected) : Prop where
  blank : c.daemon.thread.Blank
  queue : ∀ e ∈ c.queue, e = .other
  signals : ∀ g ∈ c.daemon.signals, g.closing.cause ≠ .compositor

namespace Connected.Unread

variable {c : Connected}

theorem relay (h : c.Unread) : (c.step .relay).Unread := by
  have hthread : c.daemon.relay.thread = c.daemon.thread := c.daemon.thread_relay
  refine ⟨hthread ▸ h.blank, h.queue, ?_⟩
  show ∀ g ∈ c.daemon.relay.signals, g.closing.cause ≠ .compositor
  rcases c.daemon.relay_cases with ⟨-, heq⟩ | ⟨-, ⟨heq, -⟩ | ⟨closing, hclosing, heq⟩⟩ <;> rw [heq]
  · exact h.signals
  · exact h.signals
  · refine List.forall_mem_append.mpr ⟨h.signals, List.forall_mem_singleton.mpr ?_⟩
    exact h.blank.txClosed closing (List.mem_of_getElem? hclosing)

theorem receive (h : c.Unread) : (c.step .receive).Unread := by
  have hsignals : c.daemon.receive.signals = c.daemon.signals := c.daemon.signals_receive
  refine ⟨?_, h.queue, hsignals ▸ h.signals⟩
  show c.daemon.receive.thread.Blank
  cases hchannel : c.daemon.channel with
  | nil => exact (Daemon.receive_nil hchannel).symm ▸ h.blank
  | cons n rest => exact (Daemon.thread_receive hchannel).symm ▸ h.blank.receive n

/-- What is dispatched is looked at by nobody. -/
theorem dispatchPending_eq (h : c.Unread) :
    c.dispatchPending = { c with phase := .sleeping, queue := [] } := by
  have hfold : c.queue.foldl (fun d e => d.step (.dispatch e)) c.daemon = c.daemon := by
    have hq := h.queue
    generalize c.queue = q at hq
    induction q with
    | nil => rfl
    | cons e q ih =>
      obtain ⟨rfl, hrest⟩ := List.forall_mem_cons.mp hq
      exact ih hrest
  rw [Connected.dispatchPending, hfold]

theorem dispatchPending (h : c.Unread) : (c.step .dispatchPending).Unread := by
  show c.dispatchPending.Unread
  rw [h.dispatchPending_eq]
  exact ⟨h.blank, List.forall_mem_nil _, h.signals⟩

/-- **One step.** -/
theorem step (h : c.Unread) (e : ConnectedEvent) : (c.step e).Unread := by
  cases e with
  | write e => exact ⟨h.blank, h.queue, h.signals⟩
  | notify call => exact ⟨h.blank, h.queue, h.signals⟩
  | closeNotification id => exact ⟨h.blank, h.queue, h.signals⟩
  | send i =>
    have hthread : (c.step (.send i)).daemon.thread = c.daemon.thread := c.daemon.thread_send i
    have hsignals : (c.step (.send i)).daemon.signals = c.daemon.signals :=
      c.daemon.signals_send i
    exact ⟨hthread ▸ h.blank, h.queue, hsignals ▸ h.signals⟩
  | relay => exact h.relay
  | receive => exact h.receive
  | dispatchPending => exact h.dispatchPending
  | tick => exact ⟨h.blank.tickTimeouts, h.queue, h.signals⟩

end Connected.Unread

theorem Connected.Unread.init {failure : ℕ → Option String} {clock : ℕ → ℕ} {c : Connected}
    (hc : (connected failure clock).Init c) : c.Unread := by
  obtain ⟨hd, -, hq⟩ := hc
  refine ⟨?_, hq, ?_⟩ <;> rw [hd]
  · exact ⟨List.forall_mem_nil _, List.forall_mem_nil _, List.forall_mem_nil _⟩
  · exact List.forall_mem_nil _

theorem Connected.Unread.always {failure : ℕ → Option String} {clock : ℕ → ℕ} {c : Connected}
    (hc : (connected failure clock).Init c) {es : List ConnectedEvent}
    (hl : (connected failure clock).Legal c es) :
    (connected failure clock).Always Connected.Unread c es :=
  .of_invariant (fun _ e h _ => h.step e) (.init hc) hl

/-! ## The daemon and its thread -/

/-- What an event is for the daemon. What the connection does is nothing there. -/
def ConnectedEvent.daemonEvent : ConnectedEvent → DaemonEvent
  | .write _ | .dispatchPending => .dispatch .other
  | .notify call => .notify call
  | .closeNotification id => .closeNotification id
  | .send i => .send i
  | .relay => .relay
  | .receive => .receive
  | .tick => .tick

/-- **A daemon with its connection is a daemon** to which nothing is dispatched that it looks at. -/
def connectedDaemon (failure : ℕ → Option String) (clock : ℕ → ℕ) :
    EventMachine.Simulation (connected failure clock) (daemon failure clock) where
  abs := Connected.daemon
  act _ e := e.daemonEvent
  Inv := Connected.Unread
  inv_init _ := .init
  inv_step _ e h _ := h.step e
  init _ h := h.1
  enabled c e _ he := by
    cases e with
    | send i => exact he
    | _ => trivial
  step c e h _ := by
    cases e with
    | dispatchPending =>
      show c.dispatchPending.daemon = c.daemon
      rw [h.dispatchPending_eq]
    | _ => rfl

/-- What an event of the daemon is for its thread. -/
def Daemon.part (d : Daemon) : DaemonEvent → ThreadStep
  | .receive =>
    match d.channel with
    | [] => .dispatch .other
    | n :: _ => .receive n
  | .dispatch e => .dispatch e
  | .tick => .tick
  | .notify _ | .closeNotification _ | .send _ | .relay => .dispatch .other

/-- The thread of a daemon goes through parts of its rounds. -/
def daemonThread (failure : ℕ → Option String) (clock : ℕ → ℕ) :
    EventMachine.Simulation (daemon failure clock) (waylandParts failure clock) where
  abs := Daemon.thread
  act := Daemon.part
  Inv _ := True
  inv_init _ _ := trivial
  inv_step _ _ _ _ := trivial
  init d hd := congrArg Daemon.thread hd
  enabled _ _ _ _ := trivial
  step d e _ _ := by
    cases e with
    | send i => exact d.thread_send i
    | relay => exact d.thread_relay
    | receive =>
      show d.receive.thread = d.thread.act (d.part .receive)
      cases hchannel : d.channel with
      | nil =>
        rw [Daemon.receive_nil hchannel, Daemon.part, hchannel]
        rfl
      | cons n rest =>
        rw [Daemon.thread_receive hchannel, Daemon.part, hchannel]
        rfl
    | _ => rfl

/-- The thread of a daemon with its connection does. -/
def connectedThread (failure : ℕ → Option String) (clock : ℕ → ℕ) :
    EventMachine.Simulation (connected failure clock) (waylandParts failure clock) :=
  (connectedDaemon failure clock).trans (daemonThread failure clock)

/-- **The thread goes through rounds** in which nothing is dispatched, and is in one more. -/
theorem rounds_of_connected (failure : ℕ → Option String) (clock : ℕ → ℕ) {c : Connected}
    (hc : (connected failure clock).Init c) {es : List ConnectedEvent}
    (hl : (connected failure clock).Legal c es) :
    ∃ (rs : List Round) (messages : List Notif), rs.length = es.count .tick ∧
      (∀ r ∈ rs, r.events = []) ∧ ((connected failure clock).run c es).daemon.thread =
        ((waylandThread failure clock).run (.new failure clock) rs).drain messages := by
  induction es using List.reverseRecOn with
  | nil => exact ⟨[], [], rfl, List.forall_mem_nil _, congrArg Daemon.thread hc.1⟩
  | append_singleton es e ih =>
    obtain ⟨hes, he, -⟩ := (connected failure clock).legal_append.mp hl
    obtain ⟨rs, messages, hlen, hevents, hthread⟩ := ih hes
    have hunread := (Connected.Unread.always hc hes).last
    have hpart := (connectedThread failure clock).step _ e ⟨hunread, trivial⟩ he
    rw [EventMachine.run_append]
    generalize (connected failure clock).run c es = c' at hthread hpart he
    generalize hs : (waylandThread failure clock).run (.new failure clock) rs = s at hthread
    cases e with
    | tick =>
      have hround :
          (waylandThread failure clock).run (.new failure clock) (rs ++ [⟨messages, []⟩]) =
            s.iterate messages [] := by
        rw [EventMachine.run_append, hs]
        rfl
      refine ⟨rs ++ [⟨messages, []⟩], [], by simp [hlen], ?_, ?_⟩
      · exact List.forall_mem_append.mpr ⟨hevents, List.forall_mem_singleton.mpr rfl⟩
      · rw [hround]
        exact hpart.trans (congrArg WaylandThreadState.tickTimeouts hthread)
    | receive =>
      obtain ⟨n, rest, hchannel⟩ := List.exists_cons_of_ne_nil he.2
      refine ⟨rs, messages ++ [n], by simp [hlen], hevents, ?_⟩
      rw [hs, WaylandThreadState.drain, List.foldl_append]
      exact (Daemon.thread_receive hchannel).trans (congrArg (·.receive n) hthread)
    | _ => exact ⟨rs, messages, by simp [hlen], hevents, hs ▸ hpart.trans hthread⟩

theorem socket_step (c : Connected) (e : ConnectedEvent) :
    (c.step e).socket = c.socket ++ e.said := by
  cases e <;> simp [Connected.step, Connected.act, Connected.dispatchPending, ConnectedEvent.said]

/-- What the compositor wrote is where it was written. -/
theorem socket_run (failure : ℕ → Option String) (clock : ℕ → ℕ) (c : Connected)
    (es : List ConnectedEvent) : ((connected failure clock).run c es).socket =
      c.socket ++ es.flatMap ConnectedEvent.said := by
  induction es generalizing c with
  | nil => exact (List.append_nil _).symm
  | cons e es ih =>
    have hstep : ((connected failure clock).step c e).socket = c.socket ++ e.said :=
      socket_step c e
    rw [EventMachine.run_cons, ih, hstep, List.append_assoc]
    rfl

/-- **No toast is ever drawn.** However the daemon is called, and whatever the compositor says:
every toast is without a buffer and never configured, every request is one of those that set a toast
up, no `NotificationClosed` is about a toast that the compositor closed, and everything the
compositor has said lies unread. -/
theorem nothing_drawn (failure : ℕ → Option String) (clock : ℕ → ℕ) {c : Connected}
    (hc : (connected failure clock).Init c) {es : List ConnectedEvent}
    (hl : (connected failure clock).Legal c es) :
    let c' := (connected failure clock).run c es
    (∀ t ∈ c'.daemon.thread.visible, t.configured = false ∧ t.buffer = none) ∧
      (∀ r ∈ c'.daemon.thread.sent, r.isPlain = false) ∧
      (∀ g ∈ c'.daemon.signals, g.closing.cause ≠ .compositor) ∧
      c'.socket = c.socket ++ es.flatMap ConnectedEvent.said := by
  have hunread := (Connected.Unread.always hc hl).last
  exact ⟨hunread.blank.visible, hunread.blank.sent, hunread.signals,
    socket_run failure clock c es⟩

/-- The daemon as it starts, with the globals in its queue. -/
def listening : Connected := ⟨.new (fun _ => none) fun _ => 0, .draining, [.other, .other], []⟩

theorem init_listening : (connected (fun _ => none) fun _ => 0).Init listening :=
  ⟨rfl, rfl, by simp [listening]⟩

/-- A notification arrives, and the compositor configures its surface. -/
def announced : List ConnectedEvent :=
  [.notify ⟨"app", 0, "", "done", "", [], [], -1⟩, .send 0, .receive, .dispatchPending,
    .write (.configure 4 1), .tick, .dispatchPending, .tick]

/-- **The configure is not answered**, though the toast has its slot. -/
theorem nothing_drawn_announced :
    let c := (connected (fun _ => none) fun _ => 0).run listening announced
    c.daemon.thread.visible.length = 1 ∧
      (∀ t ∈ c.daemon.thread.visible, t.configured = false ∧ t.buffer = none) ∧
      c.socket = [.configure 4 1] := by
  have hlegal : (connected (fun _ => none) fun _ => 0).Legal listening announced := by decide
  have hdrawn := nothing_drawn _ _ init_listening hlegal
  exact ⟨by decide, hdrawn.1, hdrawn.2.2.2⟩

end NxNotif

end Nullxes
