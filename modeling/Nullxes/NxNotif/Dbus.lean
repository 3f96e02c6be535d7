import Nullxes.Library.EventMachine
import Nullxes.NxNotif.Surface

/-!
# The notification daemon

`nx-notif/src/dbus.rs` with the Wayland thread behind it. A call of `notify` takes its id at once
and then waits for room in the channel to the thread; calls that wait are served in any order.
`close_notification` sends over the same channel. The relay reads what the thread sends over
`tx_closed` and signals it on the bus.

## Representation

* `Daemon` is the two channels with what is on both sides of them. The broadcast channel keeps the
  last `closedCapacity` values: a receiver that is further behind is moved up to the oldest that is
  kept (`Lagged`), which the relay passes over.
* The history is not part of it: `notify` only logs how `append` went.
* The bus takes every signal. The thread and its end of the channel stay as long as the daemon.
* `accepted`, `misread` and `calls` are what happened: the calls of `notify` whose message was sent,
  those whose message was taken for one of `close_for`, and how many there were.
-/

namespace Nullxes

namespace NxNotif

/-- The capacity of `tx_to_wl`. -/
def wlCapacity : ℕ := 64

/-- The capacity of `tx_closed`. -/
def closedCapacity : ℕ := 64

/-- A value of `hints`, as far as `notify` looks at it. -/
inductive HintValue
  | byte (b : UInt8)
  | other
  deriving DecidableEq, Repr

/-- The arguments of `notify`. -/
structure NotifyCall where
  appName : String
  replacesId : UInt32
  appIcon : String
  summary : String
  body : String
  actions : List String
  hints : List (String × HintValue)
  expireTimeout : Int32
  deriving DecidableEq, Repr

namespace NotifyCall

/-- The urgency hint, normal when there is none that can be read. -/
def urgency (c : NotifyCall) : Urgency :=
  match c.hints.lookup "urgency" with
  | some (.byte 0) => .low
  | some (.byte 1) => .normal
  | some (.byte 2) => .critical
  | _ => .normal

/-- The timeout of the notification. -/
def timeoutMs (c : NotifyCall) : UInt32 :=
  if c.expireTimeout < 0 then 5000 else c.expireTimeout.toUInt32

/-- The notification that a call makes under an id. -/
def notif (c : NotifyCall) (id : UInt32) (origin : ℕ) : Notif :=
  ⟨id, c.appName, c.appIcon, c.summary, c.body, c.actions, c.urgency, c.timeoutMs, some origin⟩

end NotifyCall

/-- A `NotificationClosed` on the bus. -/
structure ClosedSignal where
  closing : Closing
  reason : UInt32
  deriving DecidableEq, Repr

/-- `ServerInner` with its calls, its channels and the thread. -/
structure Daemon where
  nextId : UInt32
  /-- The messages of the calls that wait for room in the channel. -/
  waiting : List Notif
  channel : List Notif
  thread : WaylandThreadState
  /-- How much of `txClosed` the relay is past. -/
  received : ℕ
  signals : List ClosedSignal
  calls : ℕ
  accepted : List ℕ
  misread : List ℕ

/-- What happens in the daemon. -/
inductive DaemonEvent
  /-- `notify`, until its message waits for the channel. -/
  | notify (call : NotifyCall)
  /-- `close_notification`, likewise. -/
  | closeNotification (id : UInt32)
  /-- There is room for the message of one of the calls. -/
  | send (i : ℕ)
  /-- A message that the thread receives. -/
  | receive
  | dispatch (e : ServerEvent)
  | tick
  /-- A round of the relay. -/
  | relay
  deriving DecidableEq, Repr

namespace Daemon

/-- `Server::new`, with the thread. -/
def new (failure : ℕ → Option String) (clock : ℕ → ℕ) : Daemon where
  nextId := 1
  waiting := []
  channel := []
  thread := .new failure clock
  received := 0
  signals := []
  calls := 0
  accepted := []
  misread := []

variable (d : Daemon)

/-- The id that a call gets, and the next one. -/
def takeId (replacesId : UInt32) : UInt32 × UInt32 :=
  if replacesId ≠ 0 then (replacesId, d.nextId) else (d.nextId, max (d.nextId + 1) 1)

/-- `notify`, up to its `send`. -/
def notify (call : NotifyCall) : Daemon :=
  let (id, nextId) := d.takeId call.replacesId
  { d with
    nextId := nextId, waiting := d.waiting ++ [call.notif id d.calls], calls := d.calls + 1 }

/-- `close_notification`, up to its `send`. -/
def closeNotification (id : UInt32) : Daemon :=
  { d with waiting := d.waiting ++ [.closeFor id] }

/-- `tx_to_wl.send` of a call that waits. -/
def send (i : ℕ) : Daemon :=
  match d.waiting[i]? with
  | none => d
  | some n =>
    { d with
      waiting := d.waiting.eraseIdx i
      channel := d.channel ++ [n]
      accepted := d.accepted ++ n.origin.toList }

/-- The thread receives a message, if there is one. -/
def receive : Daemon :=
  match d.channel with
  | [] => d
  | n :: rest =>
    { d with
      channel := rest
      thread := d.thread.receive n
      misread := d.misread ++ if n.isClose then n.origin.toList else [] }

/-- `signal_closed`. -/
def signalClosed (c : Closing) (reason : UInt32) : Daemon :=
  { d with signals := d.signals ++ [⟨c, reason⟩] }

/-- A round of the loop of the relay, if there is anything to receive. -/
def relay : Daemon :=
  let sent := d.thread.txClosed
  if d.received + closedCapacity < sent.length then
    -- `Lagged`: what is no longer kept is skipped.
    { d with received := sent.length - closedCapacity }
  else
    match sent[d.received]? with
    | none => d
    | some c => { d with received := d.received + 1 }.signalClosed c 1

/-- The relay only reads: it is moved up, or passes one thing on, or waits. -/
theorem relay_cases :
    (d.received + closedCapacity < d.thread.txClosed.length ∧
        d.relay = { d with received := d.thread.txClosed.length - closedCapacity }) ∨
      (d.thread.txClosed.length ≤ d.received + closedCapacity ∧
        (d.relay = d ∧ d.thread.txClosed.length ≤ d.received ∨
          ∃ c, d.thread.txClosed[d.received]? = some c ∧
            d.relay = { d with
              received := d.received + 1, signals := d.signals ++ [⟨c, 1⟩] })) := by
  unfold relay
  by_cases h : d.received + closedCapacity < d.thread.txClosed.length
  · exact .inl ⟨h, if_pos h⟩
  · refine .inr ⟨Nat.le_of_not_lt h, ?_⟩
    rw [if_neg h]
    cases hc : d.thread.txClosed[d.received]? with
    | none => exact .inl ⟨rfl, List.getElem?_eq_none_iff.mp hc⟩
    | some c => exact .inr ⟨c, rfl, rfl⟩

/-- The relay changes nothing else. -/
theorem relay_eq : ∃ received signals,
    d.relay = { d with received := received, signals := signals } := by
  rcases d.relay_cases with ⟨-, heq⟩ | ⟨-, ⟨heq, -⟩ | ⟨c, -, heq⟩⟩ <;> exact ⟨_, _, heq⟩

/-! ### What sending, receiving and the relay leave as it is -/

theorem thread_send (i : ℕ) : (d.send i).thread = d.thread := by
  unfold send
  split <;> rfl

theorem nextId_send (i : ℕ) : (d.send i).nextId = d.nextId := by
  unfold send
  split <;> rfl

theorem calls_send (i : ℕ) : (d.send i).calls = d.calls := by
  unfold send
  split <;> rfl

theorem signals_send (i : ℕ) : (d.send i).signals = d.signals := by
  unfold send
  split <;> rfl

theorem waiting_receive : d.receive.waiting = d.waiting := by
  unfold receive
  split <;> rfl

theorem nextId_receive : d.receive.nextId = d.nextId := by
  unfold receive
  split <;> rfl

theorem calls_receive : d.receive.calls = d.calls := by
  unfold receive
  split <;> rfl

theorem signals_receive : d.receive.signals = d.signals := by
  unfold receive
  split <;> rfl

theorem thread_relay : d.relay.thread = d.thread := by
  obtain ⟨_, _, heq⟩ := d.relay_eq
  rw [heq]

theorem nextId_relay : d.relay.nextId = d.nextId := by
  obtain ⟨_, _, heq⟩ := d.relay_eq
  rw [heq]

theorem calls_relay : d.relay.calls = d.calls := by
  obtain ⟨_, _, heq⟩ := d.relay_eq
  rw [heq]

variable {d} in
theorem receive_nil (h : d.channel = []) : d.receive = d := by rw [receive, h]

variable {d} in
theorem channel_receive {n : Notif} {rest : List Notif} (h : d.channel = n :: rest) :
    d.receive.channel = rest := by rw [receive, h]

variable {d} in
theorem thread_receive {n : Notif} {rest : List Notif} (h : d.channel = n :: rest) :
    d.receive.thread = d.thread.receive n := by rw [receive, h]

/-- What an event does. -/
def step (e : DaemonEvent) : Daemon :=
  match e with
  | .notify call => d.notify call
  | .closeNotification id => d.closeNotification id
  | .send i => d.send i
  | .receive => d.receive
  | .dispatch e => { d with thread := d.thread.dispatch e }
  | .tick => { d with thread := d.thread.tickTimeouts }
  | .relay => d.relay

end Daemon

/-- The daemon: a message can be sent while there is room for it. -/
def daemon (failure : ℕ → Option String) (clock : ℕ → ℕ) : EventMachine Daemon DaemonEvent where
  Init d := d = .new failure clock
  Enabled d e := match e with
    | .send i => i < d.waiting.length ∧ d.channel.length < wlCapacity
    | _ => True
  step := Daemon.step

instance (failure : ℕ → Option String) (clock : ℕ → ℕ) (d : Daemon) (e : DaemonEvent) :
    Decidable ((daemon failure clock).Enabled d e) := by
  cases e <;> simp only [daemon] <;> infer_instance

end NxNotif

end Nullxes
