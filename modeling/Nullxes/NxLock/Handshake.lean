import Nullxes.Frame.Effects
import Nullxes.Frame.Simulation
import Nullxes.NxLock.Process

/-!
# The lock handshake

FRAME and the lock client, joined by the two channels of the client's connection. The client's
requests reach FRAME's handlers in the order they were flushed, and what a handler sends reaches the
client in the order it was sent; in between, FRAME goes on reacting to everything else.

The two programs wait for each other. The client makes its lock surfaces when it is told that the
session is locked, and it hears of outputs only through `wl_output`s it has bound. FRAME stores the
`SessionLocker` of the lock it accepts and never calls `SessionLocker::lock` on it, so the client is
never told; the client, for its part, binds no `wl_output`; and FRAME gives the keyboard to no lock
surface. Both parties then wait for ever, with the session locked.

## Main results

* `frame_waits` — what FRAME does as long as the client does its part (`nxLock_waits`)
* `never_agrees` — no state with a lock is one in which the two programs agree
-/

namespace Nullxes

namespace NxLock

open Wlcommon
open Nullxes.Frame (World NullxesState WlSurface OutputId ClientId SurfaceData)

/-- What the composition leaves open: the client's identity, the seat's keymap, what smithay makes
of a committed buffer, whose session it is, and how the client's allocations go. -/
structure Setting where
  client : ClientId
  keymap : Option Keymap
  committed : WlSurface → DrawnBuffer (Option Picture) → SurfaceData
  username : String
  failure : ℕ → Option String

/-- FRAME and what its end of the client's connection knows. -/
structure Server where
  world : World
  /-- The `wl_output`s the client has bound, each with its output. -/
  outputs : List (Proxy × OutputId)
  /-- The `ext_session_lock_surface_v1`s the client has made, each with its surface. -/
  lockSurfaces : List (Proxy × WlSurface)

/-- What FRAME does that the client did not ask for. -/
inductive Turn
  /-- The event loop reacts to an event; `keycode` and `mods` are the key's, if it is one. -/
  | event (e : Frame.Event) (keycode : UInt32) (mods : ModifierMasks)
  /-- A buffer is released. -/
  | release (wlBuf : ℕ)

/-- The client an event comes from, if FRAME is told. `unlock` does not say who asks for it. -/
def origin : Frame.Event → Option ClientId
  | .createSurface client _ | .lock client => some client
  | .commit x _ | .destroySurface x | .newToplevel x | .newLayerSurface x _ _
  | .newLockSurface x _ => some x.client
  | .toplevelDestroyed t | .moveRequest t _ => some t.wlSurface.client
  | .layerDestroyed l => some l.wlSurface.client
  | _ => none

/-- An event smithay delivers if it can; a request against the protocol does nothing. -/
def offer (w : World) (e : Frame.Event) : World := if w.state.Possible e then w.step e else w

namespace Server

variable (c : Setting) (f : Server)

/-- The surface behind a proxy of the client. -/
def surface (p : Proxy) : Option WlSurface :=
  f.world.state.compositorState.alive.find? fun x =>
    x.client = c.client ∧ x.protocolId = UInt32.ofNat p

/-- `wl_output.mode` of a bound output. -/
def modeOf (b : Proxy × OutputId) : List ServerEvent :=
  (((f.world.state.output b.2).bind Frame.Output.currentMode).map fun size =>
    ServerEvent.mode b.1 (Int32.ofInt size.1) (Int32.ofInt size.2)).toList

/-- What the client hears of something that left the compositor. -/
def heard (keycode : UInt32) (mods : ModifierMasks) : Frame.Effect → List ServerEvent
  | .locked locker => if locker.client = c.client then [.locked] else []
  | .finished locker => if locker.client = c.client then [.finished] else []
  | .lockConfigure surf size =>
    ((f.lockSurfaces.find? fun b => b.2 = surf.wlSurface).map fun b =>
      ServerEvent.configure b.1 (UInt32.ofNat f.world.state.serial)
        (UInt32.ofNat size.1.toNat) (UInt32.ofNat size.2.toNat)).toList
  | .keyboardEnter x => if x.client = c.client then [.other, .modifiers mods] else []
  | .key x _ pressed =>
    if x.client = c.client then [.key keycode pressed, .modifiers mods] else []
  | _ => []

/-- One turn of the event loop, and what the client hears of it: what the turn sent, and the new
mode of the primary output if it was resized. -/
def turn (e : Frame.Event) (keycode : UInt32) (mods : ModifierMasks) :
    Server × List ServerEvent :=
  let f' := { f with world := offer f.world e }
  let sent := f'.world.state.effects.drop f.world.state.effects.length
  let modes := match e with
    | .resized _ =>
      f'.outputs.filter fun b : Proxy × OutputId => some b.2 = f'.world.state.primaryOutput
    | _ => []
  (f', sent.flatMap (f'.heard c keycode mods) ++ modes.flatMap f'.modeOf)

/-- A turn in which no key is pressed. -/
def handle (e : Frame.Event) : Server × List ServerEvent := f.turn c e 0 ⟨0, 0, 0, 0⟩

/-- What FRAME and smithay do with a request of the client. -/
def receive : Request → Server × List ServerEvent
  | .bind (.wlOutput name) proxy =>
    let f' := { f with outputs := f.outputs ++ [(proxy, name)] }
    (f', f'.modeOf (proxy, name))
  | .bind .wlSeat _ => (f, [.capabilities f.world.state.seat.keyboard.isSome])
  | .bind _ _ => (f, [])
  | .lock _ => f.handle c (.lock c.client)
  | .createSurface p => f.handle c (.createSurface c.client (UInt32.ofNat p))
  | .getLockSurface _ lockSurface surface output =>
    match f.surface c surface, f.outputs.lookup output with
    | some x, some id =>
      handle c { f with lockSurfaces := f.lockSurfaces ++ [(lockSurface, x)] }
        (.newLockSurface x id)
    | _, _ => (f, [])
  | .ackConfigure _ _ => (f, [])
  | .attachAndCommit surface buffer =>
    match f.surface c surface with
    | some x => f.handle c (.commit x (c.committed x buffer))
    | none => (f, [])
  | .shm _ => (f, [])
  | .getKeyboard => (f, [.keymap true c.keymap])
  | .unlockAndDestroy _ => f.handle c .unlock
  | .hangUp =>
    let gone := f.world.state.compositorState.alive.filter fun x => x.client = c.client
    ({ f with world := gone.foldl (fun w x => offer w (.destroySurface x)) f.world }, [])

/-- FRAME can do this now, and not because the client asked for it. -/
def Enabled : Turn → Prop
  | .event e _ _ => f.world.state.Possible e ∧ origin e ≠ some c.client
  | .release _ => True

instance (t : Turn) : Decidable (f.Enabled c t) :=
  match t with
  | .event e _ _ =>
    inferInstanceAs (Decidable (f.world.state.Possible e ∧ origin e ≠ some c.client))
  | .release _ => inferInstanceAs (Decidable True)

def act : Turn → Server × List ServerEvent
  | .event e keycode mods => f.turn c e keycode mods
  | .release wlBuf => (f, [.release wlBuf])

end Server

variable (c : Setting)

/-- FRAME as the lock client sees it. -/
def frameServer : Party Server Request ServerEvent Turn where
  Init f := Frame.frame.Init f.world ∧ f.outputs = [] ∧ f.lockSurfaces = []
  Ready _ := True
  receive f r := f.receive c r
  Enabled f t := f.Enabled c t
  act f t := f.act c t

instance : DecidablePred (frameServer c).Ready := fun _ => inferInstanceAs (Decidable True)

instance (f : Server) (t : Turn) : Decidable ((frameServer c).Enabled f t) :=
  inferInstanceAs (Decidable (f.Enabled c t))

abbrev HandshakeState := Duplex.State Server Process Request ServerEvent

/-- FRAME and the lock client. -/
def handshake : EventMachine HandshakeState (Duplex.Event Turn Act) :=
  Duplex.machine (frameServer c) (nxLock c.username c.failure)

instance (s : HandshakeState) (e : Duplex.Event Turn Act) :
    Decidable ((handshake c).Enabled s e) :=
  inferInstanceAs (Decidable ((Duplex.machine (frameServer c)
    (nxLock c.username c.failure)).Enabled s e))

/-- No message is under way, and none is waiting to be flushed. -/
def Settled (s : HandshakeState) : Prop :=
  s.Quiet ∧ ∀ l phase, s.far = .running l phase → l.sent = []

/-- FRAME and the running client agree that the session is locked: the client was told so, it has
one lock surface on every output, and one of them has the keyboard. -/
structure Agreement (s : HandshakeState) (l : LockState) : Prop where
  told : l.locked = true
  surfaces : ∀ o ∈ s.near.world.state.outputs,
    (l.outputs.filter fun out =>
      out.lockSurface.isSome ∧ (out.output, o.id) ∈ s.near.outputs).length = 1
  focus : ∃ out ∈ l.outputs, out.lockSurface.isSome ∧ ∃ p x, out.surface = some p ∧
    s.near.surface c p = some x ∧ s.near.world.state.keyboardFocus = some x

/-- A lock client is running and agrees with FRAME. -/
def Agrees (s : HandshakeState) : Prop := ∃ l phase, s.far = .running l phase ∧ Agreement c s l

/-! ## FRAME's side -/

theorem reachable_offer {w : World} (h : Frame.frame.Reachable w) (e : Frame.Event) :
    Frame.frame.Reachable (offer w e) := by
  rw [offer]
  split
  next he => exact h.step he
  next => exact h

theorem unconfirmed_offer (w : World) (e : Frame.Event) :
    w.state.Unconfirmed (offer w e).state := by
  rw [offer]
  split
  · exact NullxesState.sends_react e
  · exact .refl w.state

namespace Server

variable {c : Setting} {f : Server}

/-- The client has no output, and FRAME got where it is by its own event loop. -/
structure Waits (f : Server) : Prop where
  reachable : Frame.frame.Reachable f.world
  outputs : f.outputs = []

/-- Only the confirmation of a lock tells the client of one. -/
theorem not_awaited_of_mem_heard {keycode : UInt32} {mods : ModifierMasks} {eff : Frame.Effect}
    (heff : ¬ eff.Confirms) {ev : ServerEvent} (hev : ev ∈ f.heard c keycode mods eff) :
    ¬ ev.Awaited := by
  have hif : ∀ {P : Prop} [Decidable P] {es : List ServerEvent}, (∀ x ∈ es, ¬ x.Awaited) →
      ev ∈ (if P then es else []) → ¬ ev.Awaited := by
    intro P _ es hes hmem
    split at hmem
    · exact hes ev hmem
    · cases hmem
  cases eff with
  | locked locker => exact absurd ⟨locker, rfl⟩ heff
  | finished locker => exact hif (by simp [ServerEvent.Awaited]) hev
  | lockConfigure surf size =>
    obtain ⟨b, -, rfl⟩ := Option.mem_map.mp (Option.mem_toList.mp hev)
    exact id
  | keyboardEnter x => exact hif (by simp [ServerEvent.Awaited]) hev
  | key x keysym pressed => exact hif (by simp [ServerEvent.Awaited]) hev
  | _ => cases hev

theorem waits_turn (h : f.Waits) (e : Frame.Event) (keycode : UInt32) (mods : ModifierMasks) :
    (f.turn c e keycode mods).1.Waits ∧ ∀ ev ∈ (f.turn c e keycode mods).2, ¬ ev.Awaited := by
  refine ⟨⟨reachable_offer h.reachable e, h.outputs⟩, fun ev hev => ?_⟩
  obtain ⟨sent, heq, hsent⟩ := unconfirmed_offer f.world e
  rcases List.mem_append.mp hev with hev | hev
  · obtain ⟨eff, heff, hev⟩ := List.mem_flatMap.mp hev
    rw [heq, List.drop_left] at heff
    exact not_awaited_of_mem_heard (hsent eff heff) hev
  · obtain ⟨b, hb, -⟩ := List.mem_flatMap.mp hev
    split at hb
    · have hmem := (List.mem_filter.mp hb).1
      rw [h.outputs] at hmem
      cases hmem
    · cases hb

theorem waits_handle (h : f.Waits) (e : Frame.Event) :
    (f.handle c e).1.Waits ∧ ∀ ev ∈ (f.handle c e).2, ¬ ev.Awaited := waits_turn h e _ _

theorem reachable_foldl_offer {w : World} (h : Frame.frame.Reachable w) (xs : List WlSurface) :
    Frame.frame.Reachable (xs.foldl (fun w x => offer w (.destroySurface x)) w) := by
  induction xs generalizing w with
  | nil => exact h
  | cons x xs ih => exact ih (reachable_offer h _)

theorem waits_receive (h : f.Waits) {r : Request} (hr : ¬ r.BindsOutput) :
    (f.receive c r).1.Waits ∧ ∀ ev ∈ (f.receive c r).2, ¬ ev.Awaited := by
  cases r with
  | bind g proxy =>
    cases g with
    | wlOutput name => exact absurd trivial hr
    | wlSeat => exact ⟨h, by simp [receive, ServerEvent.Awaited]⟩
    | _ => exact ⟨h, by simp [receive]⟩
  | lock lock => exact waits_handle h _
  | createSurface p => exact waits_handle h _
  | getLockSurface lock lockSurface surface output =>
    simp only [receive]
    split
    next x id _ _ =>
      have hmade : Waits { f with lockSurfaces := f.lockSurfaces ++ [(lockSurface, x)] } :=
        ⟨h.reachable, h.outputs⟩
      exact waits_handle hmade _
    next => exact ⟨h, by simp⟩
  | ackConfigure lockSurface serial => exact ⟨h, by simp [receive]⟩
  | attachAndCommit surface buffer =>
    simp only [receive]
    split
    · exact waits_handle h _
    · exact ⟨h, by simp⟩
  | shm r => exact ⟨h, by simp [receive]⟩
  | getKeyboard => exact ⟨h, by simp [receive, ServerEvent.Awaited]⟩
  | unlockAndDestroy lock => exact waits_handle h _
  | hangUp => exact ⟨⟨reachable_foldl_offer h.reachable _, h.outputs⟩, by simp [receive]⟩

end Server

/-- **FRAME's side of the handshake.** As long as the client binds no output it is told neither of a
lock nor of an output. -/
theorem frame_waits :
    (frameServer c).Contract Server.Waits (fun r => ¬ r.BindsOutput) fun ev => ¬ ev.Awaited where
  init := by
    rintro f ⟨hinit, houtputs, -⟩
    exact ⟨.init hinit, houtputs⟩
  receive f r hf _ hr := Server.waits_receive hf hr
  act f t hf _ := by
    cases t with
    | event e keycode mods => exact Server.waits_turn hf e keycode mods
    | release wlBuf => exact ⟨hf, by simp [frameServer, Server.act, ServerEvent.Awaited]⟩

/-! ## The composition -/

variable {c} {s : HandshakeState}

theorem waits_of_reachable (h : (handshake c).Reachable s) : s.near.Waits ∧ s.far.Waits := by
  have hholds := Duplex.assume_guarantee (frame_waits c) (nxLock_waits c.username c.failure) h
  exact ⟨hholds.near, hholds.far⟩

/-- While FRAME holds a lock nothing has the keyboard, whoever asked for the lock. -/
theorem keyboardFocus_of_lock (h : (handshake c).Reachable s)
    (hlock : s.near.world.state.lock.isSome) : s.near.world.state.keyboardFocus = none :=
  (World.wf_of_reachable (waits_of_reachable h).1.reachable).desk.locked_focus hlock

/-- **The two programs never agree.** In no reachable state in which FRAME holds a lock, settled or
not, has the client been told of it: it has no lock surface, and nothing has the keyboard. -/
theorem never_agrees (h : (handshake c).Reachable s) (hlock : s.near.world.state.lock.isSome) :
    ¬ Agrees c s ∧ s.near.world.state.keyboardFocus = none ∧
      ∀ l phase, s.far = .running l phase → l.locked = false ∧ l.outputs = [] := by
  have hidle : ∀ l phase, s.far = .running l phase → l.Idle := by
    intro l phase hfar
    have hwaits := (waits_of_reachable h).2
    rwa [hfar] at hwaits
  refine ⟨?_, keyboardFocus_of_lock h hlock, fun l phase hfar => ?_⟩
  · rintro ⟨l, phase, hfar, hagree⟩
    have htold := hagree.told
    rw [(hidle l phase hfar).locked] at htold
    cases htold
  · exact ⟨(hidle l phase hfar).locked, (hidle l phase hfar).outputs⟩

/-! ## A run -/

/-- A client whose allocations go well, on a seat whose keymap it cannot load. -/
def someClient : Setting := ⟨7, none, fun _ _ => SurfaceData.initial, "user", fun _ => none⟩

/-- FRAME and a lock client that is yet to be started. -/
def beforeLock : HandshakeState := ⟨⟨World.desktop, [], []⟩, .absent, [], []⟩

/-- The client starts and asks for the lock, FRAME answers what it was asked, and the client asks
for the keyboard. -/
def lockedOut : List (Duplex.Event Turn Act) :=
  [.farAct .start, .farAct .enter, .nearReceive, .nearReceive, .nearReceive, .nearReceive,
    .nearReceive, .farReceive, .farAct .poll, .farAct .enter, .nearReceive, .farReceive,
    .farAct .poll, .farAct .enter]

/-- The state it leads to. -/
def afterLock : HandshakeState := (handshake someClient).run beforeLock lockedOut

theorem reachable_afterLock : (handshake someClient).Reachable afterLock := by
  have hinit : (handshake someClient).Init beforeLock :=
    ⟨⟨Frame.init_desktop, rfl, rfl⟩, rfl, rfl, rfl⟩
  exact (EventMachine.Reachable.init hinit).run (by decide +kernel)

theorem never_agrees_afterLock :
    ¬ Agrees someClient afterLock ∧ afterLock.near.world.state.keyboardFocus = none ∧
      ∀ l phase, afterLock.far = .running l phase → l.locked = false ∧ l.outputs = [] :=
  never_agrees reachable_afterLock (by decide +kernel)

/-- The client has asked for the lock and FRAME holds it, nothing is under way, and the two programs
do not agree. -/
theorem afterLock_settled_not_agrees :
    (handshake someClient).Reachable afterLock ∧ Settled afterLock ∧
      afterLock.near.world.state.lock.isSome ∧ ¬ Agrees someClient afterLock := by
  refine ⟨reachable_afterLock, ⟨⟨rfl, rfl⟩, ?_⟩, by decide +kernel, ?_⟩
  · intro l phase hfar
    cases hfar
    rfl
  · rintro ⟨l, phase, hfar, hagree⟩
    cases hfar
    exact absurd hagree.told (by decide)

end NxLock

end Nullxes
