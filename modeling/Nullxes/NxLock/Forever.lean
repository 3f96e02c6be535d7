import Nullxes.NxLock.Handshake
import Nullxes.NxLock.Unlock

/-!
# Who can end a lock

What the defects of the lock client and of FRAME come to together. `poll_auth` leaves
`unlock_and_destroy` in the buffer of the connection and the loop ends before anything is flushed
again, so the request reaches no socket, whatever PAM answers. FRAME ends a lock when it is asked to
and on no other occasion: not when the client is gone, and not when another client asks for a lock,
who is turned away as long as there is one. But it does not look who asks it to. A client that was
turned away has its `ext_session_lock_v1` all the same, and smithay calls `unlock` for the
`unlock_and_destroy` of that one too. So the client that holds the lock is the one that can never
end it, and the others can.

Here the client may also be stopped at any moment, by a signal or by the connection error that
`blocking_dispatch` hands to `?`.

## Main definitions

* `mortal` — the lock client, which may be stopped
* `LockedIn` — FRAME's lock is the client's, and nothing has the keyboard
* `asksUnlock` — another client asks for the end of a lock

## Main results

* `nxLock_keeps_unlock` — the client hands no request to unlock to the socket
* `locked_for_good_iff` — a session that `nx-lock` has locked stays locked as long as no other
  client asks for the end of the lock
-/

namespace Nullxes

namespace NxLock

open Wlcommon
open Nullxes.Frame (World NullxesState WlSurface ClientId)

/-! ## The client's side -/

/-- Whether there is a process. -/
def Process.isRunning : Process → Bool
  | .running _ _ => true
  | _ => false

/-- What a lock client that may be stopped does. -/
inductive Doing
  | act (a : Act)
  /-- The process is gone, with whatever code, and with what it had not flushed. -/
  | stop (code : ℤ)

/-- The lock client, which may be stopped as long as it runs. -/
def mortal (username : String) (failure : ℕ → Option String) :
    Party Process ServerEvent Request Doing where
  Init p := p = .absent
  Ready p := p.isReady
  receive p ev := (p.receive ev, [])
  Enabled p
    | .act a => p.canAct a
    | .stop _ => p.isRunning
  act p
    | .act a => p.act username failure a
    | .stop code => (.exited code, [.hangUp])

instance (username : String) (failure : ℕ → Option String) :
    DecidablePred (mortal username failure).Ready :=
  fun p => inferInstanceAs (Decidable (p.isReady = true))

instance (username : String) (failure : ℕ → Option String) (p : Process) (d : Doing) :
    Decidable ((mortal username failure).Enabled p d) :=
  match d with
  | .act a => inferInstanceAs (Decidable (p.canAct a = true))
  | .stop _ => inferInstanceAs (Decidable (p.isRunning = true))

/-- Being stopped keeps any contract that asks nothing of a process that is gone. -/
theorem contract_mortal {username : String} {failure : ℕ → Option String} {J : Process → Prop}
    {Q : ServerEvent → Prop} {P : Request → Prop} (h : (nxLock username failure).Contract J Q P)
    (hexit : ∀ code, J (.exited code)) (hbye : P .hangUp) :
    (mortal username failure).Contract J Q P where
  init := h.init
  receive := h.receive
  act p d hp hd := by
    cases d with
    | act a => exact h.act p a hp hd
    | stop code =>
      refine ⟨hexit code, fun r hr => ?_⟩
      rwa [List.mem_singleton.mp hr]

theorem isUnlock_act {username : String} {failure : ℕ → Option String} {p : Process} {a : Act}
    {log : List Entry} (hp : Watched.Sound ⟨p, log⟩) (ha : p.canAct a) {r : Request}
    (hr : r ∈ (p.act username failure a).2) : r.isUnlock = false := by
  cases p with
  | absent =>
    cases a with
    | start => cases hr
    | _ => cases ha
  | exited code => cases ha
  | running s phase =>
    have hs : Sound s phase log := hp
    cases a with
    | start => cases phase <;> cases hr
    | enter =>
      cases phase with
      | test =>
        -- The loop goes on, so no Ok was taken and no request to unlock is in the buffer.
        have hq : s.shouldQuit = false := by simpa [Process.canAct] using ha
        by_contra hu
        have hquit := (hs.unlock r (hs.sent r hr) (by simpa using hu)).2
        rw [hq] at hquit
        cases hquit
      | _ => cases ha
    | poll => cases phase <;> cases hr
    | leave =>
      cases phase with
      | test =>
        rw [List.mem_singleton.mp hr]
        rfl
      | _ => cases ha
    | takeRequest => cases phase <;> cases hr
    | answer result => cases phase <;> cases hr

/-- **No request to unlock is handed to the socket.** Whatever the client is told and whatever PAM
answers. -/
theorem nxLock_keeps_unlock (username : String) (failure : ℕ → Option String) :
    (nxLock username failure).Contract (fun p => ∃ log, Watched.Sound ⟨p, log⟩) (fun _ => True)
      fun r => r.isUnlock = false where
  init := by
    rintro _ rfl
    exact ⟨[], rfl⟩
  receive p ev := by
    rintro ⟨log, hp⟩ hready -
    have he : (watched username failure).Enabled ⟨p, log⟩ (.receive ev) := hready
    exact ⟨⟨_, hp.step he⟩, by simp [nxLock]⟩
  act p a := by
    rintro ⟨log, hp⟩ ha
    have he : (watched username failure).Enabled ⟨p, log⟩ (.act a) := ha
    exact ⟨⟨_, hp.step he⟩, fun r hr => isUnlock_act hp ha hr⟩

/-! ## FRAME's side -/

/-- The session is locked, and the lock is the client's. -/
def HeldBy (client : ClientId) (w : World) : Prop :=
  w.state.lock.map (fun l => l.locker.client) = some client

namespace HeldBy

variable {client : ClientId} {w : World}

theorem isSome (h : HeldBy client w) : w.state.lock.isSome := by
  cases hlock : w.state.lock with
  | none =>
    rw [HeldBy, hlock] at h
    cases h
  | some l => rfl

/-- Only `unlock` ends a lock: nothing else takes it from the client. -/
theorem step (h : HeldBy client w) (hw : w.Wf) {e : Frame.Event} (he : e ≠ .unlock) :
    HeldBy client (w.step e) := by
  obtain ⟨l, hlock, hclient⟩ := Option.map_eq_some_iff.mp h
  have hd : w.desk.lock = some l := hlock
  have hlock' : (w.step e).state.lock = (w.desk.apply (w.deskAct e)).lock :=
    congrArg Frame.Desk.lock (World.desk_step hw)
  rw [HeldBy, hlock', Frame.Desk.lock_apply, hd]
  split
  · exact congrArg some hclient
  · exact congrArg some hclient
  next hact => exact absurd (NullxesState.deskAct_eq_unlock.mp hact) he
  · exact congrArg some hclient

theorem offer (h : HeldBy client w) (hw : w.Wf) {e : Frame.Event} (he : e ≠ .unlock) :
    HeldBy client (offer w e) := by
  rw [NxLock.offer]
  split
  · exact h.step hw he
  · exact h

/-- `unlock` ends it, whoever holds it. -/
theorem not_offer_unlock (hw : w.Wf) : ¬ HeldBy client (NxLock.offer w .unlock) := by
  have hoffer : NxLock.offer w .unlock = w.step .unlock := if_pos trivial
  have hlock : (w.step .unlock).state.lock = (w.desk.apply .unlock).lock :=
    congrArg Frame.Desk.lock (World.desk_step (e := .unlock) hw)
  rw [HeldBy, hoffer, hlock, Frame.Desk.lock_apply]
  simp

/-- The holder's surfaces may all go. -/
theorem foldl_offer (h : HeldBy client w) (hw : Frame.frame.Reachable w) (xs : List WlSurface) :
    HeldBy client (xs.foldl (fun w x => NxLock.offer w (.destroySurface x)) w) := by
  induction xs generalizing w with
  | nil => exact h
  | cons x xs ih =>
    exact ih (h.offer (World.wf_of_reachable hw) (by simp)) (reachable_offer hw (.destroySurface x))

end HeldBy

/-- A client that is not the one of the channel asks for the end of a lock. -/
def Turn.unlocks : Turn → Bool
  | .event .unlock _ _ => true
  | _ => false

namespace Server

variable {c : Setting} {f : Server}

/-- **A turn of FRAME ends the lock** exactly if a client asks for it, whoever it is. -/
theorem heldBy_act_iff (h : HeldBy c.client f.world) (hw : Frame.frame.Reachable f.world)
    (t : Turn) : HeldBy c.client (f.act c t).1.world ↔ t.unlocks = false := by
  cases t with
  | event e keycode mods =>
    cases hunlock : Turn.unlocks (.event e keycode mods) with
    | false =>
      refine iff_of_true (h.offer (World.wf_of_reachable hw) ?_) rfl
      rintro rfl
      cases hunlock
    | true =>
      cases e with
      | unlock => exact iff_of_false (HeldBy.not_offer_unlock (World.wf_of_reachable hw)) (by simp)
      | _ => cases hunlock
  | release wlBuf => exact iff_of_true h rfl

theorem heldBy_receive (h : HeldBy c.client f.world) (hw : Frame.frame.Reachable f.world)
    {r : Request} (hr : r.isUnlock = false) : HeldBy c.client (f.receive c r).1.world := by
  have hwf := World.wf_of_reachable hw
  cases r with
  | bind g proxy => cases g <;> exact h
  | lock lock => exact h.offer hwf (by simp)
  | createSurface p => exact h.offer hwf (by simp)
  | getLockSurface lock lockSurface surface output =>
    simp only [receive]
    split
    · exact h.offer hwf (by simp)
    · exact h
  | attachAndCommit surface buffer =>
    simp only [receive]
    split
    · exact h.offer hwf (by simp)
    · exact h
  | unlockAndDestroy lock => cases hr
  | hangUp => exact h.foldl_offer hw _
  | _ => exact h

end Server

/-! ## The composition -/

/-- FRAME and a lock client that may be stopped. -/
def siege (c : Setting) : EventMachine HandshakeState (Duplex.Event Turn Doing) :=
  Duplex.machine (frameServer c) (mortal c.username c.failure)

instance (c : Setting) (s : HandshakeState) (e : Duplex.Event Turn Doing) :
    Decidable ((siege c).Enabled s e) :=
  inferInstanceAs (Decidable ((Duplex.machine (frameServer c)
    (mortal c.username c.failure)).Enabled s e))

variable {c : Setting} {s : HandshakeState}

/-- The lock is the client's, and nothing has the keyboard. -/
structure LockedIn (c : Setting) (s : HandshakeState) : Prop where
  held : HeldBy c.client s.near.world
  focus : s.near.world.state.keyboardFocus = none

/-- A client other than `nx-lock` asks for the end of a lock. -/
def asksUnlock : Duplex.Event Turn Doing → Bool
  | .nearAct t => t.unlocks
  | _ => false

theorem frame_reachable_of_siege (h : (siege c).Reachable s) :
    Frame.frame.Reachable s.near.world := by
  have hmortal := contract_mortal (nxLock_waits c.username c.failure) (fun _ => trivial) id
  exact (Duplex.assume_guarantee (frame_waits c) hmortal h).near.reachable

theorem isUnlock_of_siege (h : (siege c).Reachable s) : ∀ r ∈ s.toNear, r.isUnlock = false := by
  have hframe : (frameServer c).Contract (fun _ => True) (fun r => r.isUnlock = false)
      fun _ => True :=
    ⟨fun _ _ => trivial, fun _ _ _ _ _ => ⟨trivial, fun _ _ => trivial⟩,
      fun _ _ _ _ => ⟨trivial, fun _ _ => trivial⟩⟩
  have hmortal := contract_mortal (nxLock_keeps_unlock c.username c.failure)
    (fun _ => ⟨[], trivial⟩) rfl
  exact (Duplex.assume_guarantee hframe hmortal h).toNear

theorem lockedIn_iff (h : (siege c).Reachable s) :
    LockedIn c s ↔ HeldBy c.client s.near.world := by
  refine ⟨LockedIn.held, fun hheld => ⟨hheld, ?_⟩⟩
  exact (World.wf_of_reachable (frame_reachable_of_siege h)).desk.locked_focus hheld.isSome

/-- **A step leaves the lock with the client** unless another one asks for its end. -/
theorem heldBy_step_iff (h : (siege c).Reachable s) (hheld : HeldBy c.client s.near.world)
    (e : Duplex.Event Turn Doing) :
    HeldBy c.client ((siege c).step s e).near.world ↔ asksUnlock e = false := by
  have hw := frame_reachable_of_siege h
  have hto := isUnlock_of_siege h
  obtain ⟨near, far, toNear, toFar⟩ := s
  cases e with
  | nearAct t => exact Server.heldBy_act_iff hheld hw t
  | farAct d => exact iff_of_true hheld rfl
  | nearReceive =>
    refine iff_of_true ?_ rfl
    cases toNear with
    | nil => exact hheld
    | cons r rest => exact Server.heldBy_receive hheld hw (hto r List.mem_cons_self)
  | farReceive =>
    refine iff_of_true ?_ rfl
    cases toFar with
    | nil => exact hheld
    | cons ev rest => exact hheld

/-- **Who can end the lock of `nx-lock`.** From any state in which FRAME's lock is the client's, in
every order of what the two programs, the user and the other clients do, whatever PAM answers and
whether or not the client is stopped: no request of the client to unlock is ever under way, and the
lock stays the client's, with nothing having the keyboard, if and only if no other client asks for
the end of it. -/
theorem locked_for_good_iff (h : (siege c).Reachable s) (hheld : HeldBy c.client s.near.world)
    {es : List (Duplex.Event Turn Doing)} (hl : (siege c).Legal s es) :
    (siege c).Always (fun s => ∀ r ∈ s.toNear, r.isUnlock = false) s es ∧
      ((siege c).Always (LockedIn c) s es ↔ ∀ e ∈ es, asksUnlock e = false) := by
  have hreach : (siege c).Always (siege c).Reachable s es :=
    .of_invariant (fun s e hs he => hs.step he) h hl
  refine ⟨hreach.mono fun s hs => isUnlock_of_siege hs, ?_⟩
  have hiff : (siege c).Always (LockedIn c) s es ↔
      (siege c).Always (fun s => HeldBy c.client s.near.world) s es :=
    forall₂_congr fun pre hpre => lockedIn_iff (hreach pre hpre)
  rw [hiff, ← EventMachine.eachStep_event_iff]
  exact EventMachine.always_iff_eachStep (fun s e hs he => hs.step he)
    (fun s e hs hP _ => heldBy_step_iff hs hP e) h hheld hl

/-- The client starts and asks for the lock, and FRAME takes what it was asked. -/
def besieged : List (Duplex.Event Turn Doing) :=
  [.farAct (.act .start), .farAct (.act .enter), .nearReceive, .nearReceive, .nearReceive,
    .nearReceive, .nearReceive]

/-- The client is stopped, FRAME takes note of it, and another client asks for a lock and is turned
away. -/
def abandoned : List (Duplex.Event Turn Doing) :=
  [.farAct (.stop 1), .nearReceive, .nearAct (.event (.lock 8) 0 ⟨0, 0, 0, 0⟩)]

theorem init_beforeLock : (siege someClient).Init beforeLock :=
  ⟨⟨Frame.init_desktop, rfl, rfl⟩, rfl, rfl, rfl⟩

theorem locked_for_good_iff_abandoned :
    (siege someClient).Always (LockedIn someClient) ((siege someClient).run beforeLock besieged)
      abandoned := by
  have hheld : HeldBy someClient.client
      ((siege someClient).run beforeLock besieged).near.world := by
    unfold HeldBy
    decide +kernel
  have hlegal : (siege someClient).Legal ((siege someClient).run beforeLock besieged) abandoned := by
    decide +kernel
  have hlasts := locked_for_good_iff
    ((EventMachine.Reachable.init init_beforeLock).run (by decide +kernel)) hheld hlegal
  exact hlasts.2.mpr (by simp [abandoned, asksUnlock, Turn.unlocks])

/-- The client that was turned away ends the lock all the same. -/
example : ((siege someClient).run beforeLock (besieged ++ abandoned ++
    [.nearAct (.event .unlock 0 ⟨0, 0, 0, 0⟩)])).near.world.state.lock = none := rfl

end NxLock

end Nullxes
