import Nullxes.Library.EventLoop
import Nullxes.NxSettings.Redraws
import Nullxes.Slate.State

/-!
# What the shell prints, and when it is seen

The PTY thread changes the grid and sends a notification on `dirty_tx`; the main loop looks for
notifications after `blocking_dispatch`, and redraws the window if there are any. But
`blocking_dispatch` returns only for an event of the compositor, so a notification wakes nobody.

## Representation

Frames are not compared by their pixels: a frame shows what had been printed when it was drawn, and
a frame that was drawn without a session shows nothing. The thread holds the lock of the grid while
it prints; what it prints while a frame is drawn falls before the frame or after it.

## Main definitions

* `Terminal`, `terminal` — the window, its shell and the frames that were committed
* `Terminal.Current` — the last frame shows everything that was printed
* `Terminal.Fresh` — or else there is, or will be, a notification
* `Supplied` — a redraw for something new finds a buffer

## Main results

* `output_waits` — no output is lost as long as buffers are there, and none is shown before the
  compositor has something to say
-/

namespace Nullxes

namespace Slate

open Wlcommon

/-! ## What is seen of a window -/

/-- A frame. -/
def WlRequest.isFrame : WlRequest → Bool
  | .attachAndCommit _ => true
  | _ => false

/-- What matters here of a state. -/
structure Face where
  /-- There is a session. -/
  session : Bool
  dirtyRx : Option ℕ
  configured : Bool
  surface : Bool
  /-- How many frames were committed. -/
  committed : ℕ

namespace SlateState

variable (s : SlateState)

/-- How many frames were committed. -/
def committed : ℕ := s.sent.countP WlRequest.isFrame

def face : Face := ⟨s.term.isSome, s.dirtyRx, s.configured, s.surface, s.committed⟩

/-- There is a pool that can be drawn into, or memory to make one. -/
def canDraw : Bool :=
  match s.buffer with
  | some pool => pool.canDraw s.shm
  | none =>
    (s.shm.failure s.shm.attempted).isNone && (s.shm.failure (s.shm.attempted + 1)).isNone

/-- A session is started when there is none yet and the PTY can be made. -/
def starts : Bool := !s.term.isSome && (s.tty.failure s.tty.attempted).isNone

theorem face_request (r : WlRequest) :
    (s.request r).face = { s.face with committed := s.committed + r.isFrame.toNat } := by
  cases r <;> simp [face, committed, request, WlRequest.isFrame]

theorem face_setShm (shm : Shm) : (s.setShm shm).face = s.face := by
  have hcount : (shm.sent.map WlRequest.shm).countP WlRequest.isFrame = 0 := by
    rw [List.countP_eq_zero]
    intro r hr
    obtain ⟨_, -, rfl⟩ := List.mem_map.mp hr
    exact Bool.false_ne_true
  simp [face, committed, setShm, hcount]

theorem face_ensureTerm : s.ensureTerm.face =
    if s.starts then { s.face with session := true, dirtyRx := some 0 } else s.face := by
  rw [ensureTerm, starts]
  cases hterm : s.term.isSome with
  | true => simp
  | false =>
    cases hfail : s.tty.failure s.tty.attempted <;> simp [face, committed, hterm]

theorem canDraw_ensureTerm : s.ensureTerm.canDraw = s.canDraw := by
  rw [ensureTerm]
  split
  · rfl
  · dsimp only
    split <;> rfl

theorem face_setPool (shm : Shm) (buffer : Option (ShmDoubleBuffer (Option Picture))) :
    ({ s.setShm shm with buffer := buffer } : SlateState).face = s.face :=
  s.face_setShm shm

variable {s} in
/-- A frame is committed if there is a buffer for it. -/
theorem face_drawInto {t : SlateState} (ht : t.face = s.face) (hs : s.surface = true)
    (pool : ShmDoubleBuffer (Option Picture)) : (t.drawInto pool).face =
      { s.face with committed := s.committed + (pool.canDraw t.shm).toNat } := by
  have hsurface : t.surface = true := (congrArg Face.surface ht).trans hs
  have hcommitted : t.committed = s.committed := congrArg Face.committed ht
  cases hdraw : pool.canDraw t.shm with
  | true =>
    obtain ⟨pool', drawn, shm', old, stride, w, height, hok, -⟩ :=
      ShmDoubleBuffer.draw_of_canDraw hdraw t.paint
    have hface := t.face_setPool shm' (some pool')
    rw [drawInto, hok]
    refine (congrArg face (if_pos hsurface)).trans ?_
    rw [face_request, hface, ht, ← hcommitted]
    exact congrArg (fun n => { s.face with committed := n + 1 }) (congrArg Face.committed hface)
  | false =>
    obtain ⟨e, shm', herr⟩ := ShmDoubleBuffer.draw_of_not_canDraw hdraw t.paint
    rw [drawInto, herr]
    exact (t.face_setShm shm').trans ht

/-- A redraw commits a frame if there is a buffer for it. -/
theorem face_redrawPool (hs : s.surface = true) : s.redrawPool.face =
    { s.face with committed := s.committed + s.canDraw.toNat } := by
  rw [redrawPool, pool, canDraw]
  cases hbuf : s.buffer with
  | some pool => exact face_drawInto (s.face_setPool s.shm (some pool)) hs pool
  | none =>
    dsimp only
    rcases ShmDoubleBuffer.new_cases (γ := Option Picture) s.shm s.width s.height with
      ⟨hfree, pool, shm', hnew, hdraw⟩ | ⟨hfree, e, shm', hnew⟩ <;> rw [hnew, hfree]
    · refine (face_drawInto (s.face_setPool shm' (some pool)) hs pool).trans ?_
      exact congrArg (fun b : Bool => { s.face with committed := s.committed + b.toNat }) hdraw
    · exact s.face_setShm shm'

/-- What is seen after a redraw. -/
def redrawn : Face :=
  ⟨s.term.isSome || s.starts, if s.starts then some 0 else s.dirtyRx, true, true,
    s.committed + s.canDraw.toNat⟩

/-- **A redraw** starts a session if it can, and commits a frame if there is a buffer for it. -/
theorem face_redraw (hc : s.configured = true) (hs : s.surface = true) :
    s.redraw.face = s.redrawn := by
  have hface := s.face_ensureTerm
  have hsurface : s.ensureTerm.surface = true := by
    refine (congrArg Face.surface hface).trans ?_
    split <;> exact hs
  have hcommitted : s.ensureTerm.committed = s.committed := by
    refine (congrArg Face.committed hface).trans ?_
    split <;> rfl
  rw [redraw, hc]
  refine (s.ensureTerm.face_redrawPool hsurface).trans ?_
  rw [hcommitted, canDraw_ensureTerm, hface, redrawn]
  split
  next h => simp [face, h, hc, hs]
  next h => simp [face, Bool.eq_false_iff.mpr h, hc, hs]

theorem face_dispatchToplevel (width height : Int32) :
    (s.dispatchToplevel width height).face = s.face := by
  have hterm (t : SlateState) (w h : UInt32) : (t.resizeTerm w h).face = t.face := by
    simp [resizeTerm, face, committed]
  have hbuffer (t : SlateState) (w h : UInt32) : (t.resizeBuffer w h).face = t.face := by
    rw [resizeBuffer]
    split
    · rfl
    · exact t.face_setShm _
  rw [dispatchToplevel]
  generalize (if 0 < width then width.toUInt32 else defaultW) = w
  generalize (if 0 < height then height.toUInt32 else defaultH) = h
  split
  · exact (hterm _ w h).trans (hbuffer _ w h)
  · rfl

theorem face_dispatchKey (key : UInt32) (pressed : Bool) :
    (s.dispatchKey key pressed).face = s.face := by
  rw [dispatchKey]
  split
  · cases s.keymap.processKey key <;> simp [handleAction, handleText, face, committed]
  · rfl

theorem face_dispatch_configure (hs : s.surface = true) (serial : UInt32) :
    (s.dispatch (.configure serial)).face = s.redrawn := by
  have hface := face_redraw { s.request (.ackConfigure serial) with configured := true } rfl hs
  have hcommitted : (s.request (.ackConfigure serial)).committed = s.committed :=
    congrArg Face.committed (s.face_request (.ackConfigure serial))
  refine hface.trans ?_
  exact congrArg (fun n => { s.redrawn with committed := n + s.canDraw.toNat }) hcommitted

/-- Only a configure is answered with a redraw. -/
theorem face_dispatch {e : ServerEvent} (he : ∀ serial, e ≠ .configure serial) :
    (s.dispatch e).face = s.face := by
  cases e with
  | configure serial => exact absurd rfl (he serial)
  | ping serial => exact s.face_request (.pong serial)
  | toplevelConfigure width height => exact s.face_dispatchToplevel width height
  | capabilities keyboard =>
    rw [dispatch, dispatchCapabilities]
    split
    · exact s.face_request .getKeyboard
    · rfl
  | keymap xkbV1 loaded =>
    rw [dispatch]
    split <;> rfl
  | key key pressed => exact s.face_dispatchKey key pressed
  | close | modifiers mods | release wlBuf | other => rfl

end SlateState

/-! ## The window and its shell -/

/-- The window, its shell, and what can be seen. -/
structure Terminal where
  slate : SlateState
  /-- Everything that the shell has printed. -/
  output : List UInt8
  /-- What was printed last is still to be notified. -/
  pending : Bool
  /-- What had been printed by the time of each frame, if there was a session. -/
  frames : List (Option (List UInt8))

/-- What the event loop of the PTY does. -/
inductive ShellEvent
  /-- It brings what the shell has printed to the grid. -/
  | print (bytes : List UInt8)
  /-- `Wakeup`, for what was printed. -/
  | wakeup
  /-- Another event that `send_event` passes on. -/
  | notice
  /-- It takes a message from its channel. -/
  | work

/-- What it prints. -/
def ShellEvent.bytes : ShellEvent → List UInt8
  | .print bytes => bytes
  | _ => []

namespace Terminal

variable (t : Terminal)

/-- What a frame shows. -/
def shown (slate : SlateState) : Option (List UInt8) :=
  if slate.term.isSome then some t.output else none

/-- The window has changed, and shows a frame for every one that was committed on the way. -/
def become (slate : SlateState) : Terminal :=
  { t with
    slate := slate
    frames := t.frames ++
      List.replicate (slate.committed - t.slate.committed) (t.shown slate) }

/-- What the event loop of the PTY can do. -/
def CanSide : ShellEvent → Prop
  | .print bytes => t.slate.term.isSome = true ∧ bytes ≠ []
  | .wakeup => t.pending = true
  | .notice => t.slate.term.isSome = true
  | .work => True

instance (e : ShellEvent) : Decidable (t.CanSide e) :=
  match e with
  | .print bytes => inferInstanceAs (Decidable (t.slate.term.isSome = true ∧ bytes ≠ []))
  | .wakeup => inferInstanceAs (Decidable (t.pending = true))
  | .notice => inferInstanceAs (Decidable (t.slate.term.isSome = true))
  | .work => .isTrue trivial

/-- What it does. -/
def side : ShellEvent → Terminal
  | .print bytes => { t with output := t.output ++ bytes, pending := true }
  | .wakeup => { t with slate := t.slate.sendEvent, pending := false }
  | .notice => { t with slate := t.slate.sendEvent }
  | .work => { t with slate := t.slate.work }

/-- The notifications that wait. -/
def waiting : ℕ := t.slate.dirtyRx.getD 0

/-- The last frame shows everything that was printed. -/
def Current : Prop := t.frames.getLast? = some (some t.output)

/-- Once there is a session, what the last frame does not show is notified, or will be. -/
def Fresh : Prop :=
  t.slate.term.isSome = true → t.Current ∨ 0 < t.waiting ∨ t.pending = true

/-- The background of it: sessions are started by redraws, and print. -/
structure Begun : Prop where
  surface : t.slate.surface = true
  configured : t.slate.term.isSome = true → t.slate.configured = true
  dirtyRx : t.slate.dirtyRx.isSome = t.slate.term.isSome
  silent : t.slate.term.isSome = false → t.pending = false ∧ ¬ t.Current

end Terminal

/-- **The terminal**: `run` sleeps in `blocking_dispatch`, and looks at `dirty_rx` after it. -/
def terminal : EventLoop Terminal ServerEvent ShellEvent where
  Start t := ∃ failure ptyFailure,
    t = ⟨(SlateState.new failure ptyFailure).initSurface, [], false, []⟩
  handle t e := t.become (t.slate.dispatch e)
  poll t := t.become t.slate.drain
  ends t := t.slate.shouldClose
  CanSide := Terminal.CanSide
  side := Terminal.side

instance (t : Terminal) (e : ShellEvent) : Decidable (terminal.CanSide t e) :=
  inferInstanceAs (Decidable (t.CanSide e))

/-- The state of the terminal, with the events of the compositor that it was not told yet. -/
abbrev TerminalState := EventLoop.State Terminal ServerEvent

/-- A step of the terminal. -/
abbrev TerminalEvent := EventLoop.Event ServerEvent ShellEvent

/-- A redraw for something new finds a buffer: the one that starts the session, and the one for a
notification of what the last frame does not show. While a `Wakeup` is still to be sent, a
notification may find none: there will be another. -/
def Supplied (s : TerminalState) : TerminalEvent → Prop
  | .handle => ∀ serial, s.arrived.head? = some (.configure serial) →
    s.main.slate.starts = true → s.main.slate.canDraw = true
  | .poll => 0 < s.main.waiting →
    s.main.slate.canDraw = true ∨ s.main.Current ∨ s.main.pending = true
  | _ => True

/-- What the shell prints in a run. -/
def printed (es : List TerminalEvent) : List UInt8 :=
  (EventLoop.sides es).flatMap ShellEvent.bytes

namespace Terminal

variable {t : Terminal} {slate : SlateState}

/-- What is seen after one frame more or none. -/
theorem current_become {b : Bool} (hc : slate.committed = t.slate.committed + b.toNat) :
    (t.become slate).Current ↔ if b then slate.term.isSome = true else t.Current := by
  cases b with
  | false => simp [become, Current, hc]
  | true => cases hsession : slate.term.isSome <;> simp [become, Current, shown, hc, hsession]

/-- With a session, a frame shows everything. -/
theorem fresh_become {b : Bool} (hc : slate.committed = t.slate.committed + b.toNat) :
    (t.become slate).Fresh ↔ (slate.term.isSome = true →
      b = true ∨ t.Current ∨ 0 < slate.dirtyRx.getD 0 ∨ t.pending = true) := by
  have hiff : (t.become slate).Fresh ↔ (slate.term.isSome = true →
      (t.become slate).Current ∨ 0 < slate.dirtyRx.getD 0 ∨ t.pending = true) := Iff.rfl
  rw [hiff, current_become hc]
  refine imp_congr_right fun hsession => ?_
  cases b <;> simp [hsession]

/-- Sessions do not end, and a window without one prints nothing. -/
theorem Begun.become {b : Bool} (h : t.Begun) (hs : slate.surface = true)
    (hc : slate.committed = t.slate.committed + b.toNat)
    (hsession : slate.term.isSome = false → t.slate.term.isSome = false)
    (hconf : slate.term.isSome = true → slate.configured = true)
    (hrx : slate.dirtyRx.isSome = slate.term.isSome) : (t.become slate).Begun where
  surface := hs
  configured := hconf
  dirtyRx := hrx
  silent hnone := by
    obtain ⟨hpending, hcurrent⟩ := h.silent (hsession hnone)
    refine ⟨hpending, fun hcur => ?_⟩
    have hcur := (current_become hc).mp hcur
    cases b with
    | false => exact hcurrent hcur
    | true => exact absurd (hnone.symm.trans hcur) Bool.false_ne_true

/-- What leaves the face of the window alone changes nothing. -/
theorem Begun.still (h : t.Begun) (hface : slate.face = t.slate.face) :
    (t.become slate).Begun := by
  have hsession : slate.term.isSome = t.slate.term.isSome := congrArg Face.session hface
  have hconf : slate.configured = t.slate.configured := congrArg Face.configured hface
  have hrx : slate.dirtyRx = t.slate.dirtyRx := congrArg Face.dirtyRx hface
  refine h.become (b := false) ((congrArg Face.surface hface).trans h.surface)
    (congrArg Face.committed hface) (fun hnone => hsession ▸ hnone) (fun hsome => ?_) ?_
  · rw [hconf]
    exact h.configured (hsession ▸ hsome)
  · rw [hrx, hsession]
    exact h.dirtyRx

theorem fresh_still (hface : slate.face = t.slate.face) : (t.become slate).Fresh ↔ t.Fresh := by
  have hsession : slate.term.isSome = t.slate.term.isSome := congrArg Face.session hface
  have hrx : slate.dirtyRx = t.slate.dirtyRx := congrArg Face.dirtyRx hface
  rw [fresh_become (b := false) (congrArg Face.committed hface), hsession, hrx]
  simp [Fresh, waiting]

theorem Begun.redrawn (h : t.Begun) (hface : slate.face = t.slate.redrawn) :
    (t.become slate).Begun := by
  have hsession : slate.term.isSome = (t.slate.term.isSome || t.slate.starts) :=
    congrArg Face.session hface
  have hrx : slate.dirtyRx = if t.slate.starts then some 0 else t.slate.dirtyRx :=
    congrArg Face.dirtyRx hface
  refine h.become (congrArg Face.surface hface) (congrArg Face.committed hface)
    (fun hnone => ?_) (fun _ => congrArg Face.configured hface) ?_
  · rw [hsession] at hnone
    exact (Bool.or_eq_false_iff.mp hnone).1
  · rw [hsession, hrx]
    cases hstarts : t.slate.starts with
    | true => simp
    | false => simp [h.dirtyRx]

/-- **A redraw loses nothing** if it starts no session, or finds a buffer for its first frame. -/
theorem fresh_redrawn (h : t.Begun) (hf : t.Fresh) (hface : slate.face = t.slate.redrawn) :
    (t.become slate).Fresh ↔ (t.slate.starts = true → t.slate.canDraw = true) := by
  have hsession : slate.term.isSome = (t.slate.term.isSome || t.slate.starts) :=
    congrArg Face.session hface
  have hrx : slate.dirtyRx = if t.slate.starts then some 0 else t.slate.dirtyRx :=
    congrArg Face.dirtyRx hface
  rw [fresh_become (congrArg Face.committed hface), hsession, hrx]
  cases hstarts : t.slate.starts with
  | true =>
    have hnone : t.slate.term.isSome = false := by
      rw [SlateState.starts, Bool.and_eq_true] at hstarts
      simpa using hstarts.1
    obtain ⟨hpending, hcurrent⟩ := h.silent hnone
    simp [hpending, hcurrent]
  | false =>
    simp only [Bool.or_false, Bool.false_eq_true, false_implies, iff_true, if_false]
    exact fun hsome => .inr (hf hsome)

/-! ### Steps -/

theorem Begun.handle (h : t.Begun) (e : ServerEvent) : (terminal.handle t e).Begun := by
  by_cases he : ∃ serial, e = .configure serial
  · obtain ⟨serial, rfl⟩ := he
    exact h.redrawn (t.slate.face_dispatch_configure h.surface serial)
  · exact h.still (t.slate.face_dispatch fun serial heq => he ⟨serial, heq⟩)

theorem fresh_handle (h : t.Begun) (hf : t.Fresh) (e : ServerEvent) :
    (terminal.handle t e).Fresh ↔
      ((∃ serial, e = .configure serial) → t.slate.starts = true → t.slate.canDraw = true) := by
  by_cases he : ∃ serial, e = .configure serial
  · rw [forall_prop_of_true he]
    obtain ⟨serial, rfl⟩ := he
    exact fresh_redrawn h hf (t.slate.face_dispatch_configure h.surface serial)
  · rw [forall_prop_of_false he, iff_true]
    have hface := t.slate.face_dispatch fun serial heq => he ⟨serial, heq⟩
    exact (fresh_still hface).mpr hf

/-- `drain` redraws the window of a session for its notifications. -/
theorem face_drain (h : t.Begun) (hw : 0 < t.waiting) :
    t.slate.term.isSome = true ∧ t.slate.drain.face =
      ⟨true, some 0, true, true, t.slate.committed + t.slate.canDraw.toNat⟩ := by
  rw [waiting] at hw
  cases hrx : t.slate.dirtyRx with
  | none => simp [hrx] at hw
  | some n =>
    have hsome : t.slate.term.isSome = true := by
      rw [← h.dirtyRx, hrx]
      rfl
    refine ⟨hsome, ?_⟩
    cases n with
    | zero => simp [hrx] at hw
    | succ n =>
      have hface := SlateState.face_redraw { t.slate with dirtyRx := some 0 } (h.configured hsome)
        h.surface
      have hstarts : ({ t.slate with dirtyRx := some 0 } : SlateState).starts = false := by
        simp [SlateState.starts, hsome]
      rw [SlateState.redrawn, hstarts] at hface
      simp only [hsome] at hface
      rw [SlateState.drain, hrx]
      exact hface

theorem drain_of_not_waiting (hw : ¬ 0 < t.waiting) : t.slate.drain = t.slate := by
  rw [waiting] at hw
  rw [SlateState.drain]
  cases hrx : t.slate.dirtyRx with
  | none => rfl
  | some n =>
    cases n with
    | zero => rfl
    | succ n => exact absurd (by simp [hrx]) hw

theorem Begun.poll (h : t.Begun) : (terminal.poll t).Begun := by
  by_cases hw : 0 < t.waiting
  · obtain ⟨hsome, hface⟩ := face_drain h hw
    have hsession : t.slate.drain.term.isSome = true := congrArg Face.session hface
    refine h.become (congrArg Face.surface hface) (congrArg Face.committed hface)
      (fun hnone => ?_) (fun _ => congrArg Face.configured hface) ?_
    · rw [hsession] at hnone
      cases hnone
    · rw [hsession, show t.slate.drain.dirtyRx = some 0 from congrArg Face.dirtyRx hface]
      rfl
  · exact h.still (congrArg SlateState.face (drain_of_not_waiting hw))

/-- After a poll no notification waits: what was printed is seen, or still to be notified. -/
theorem fresh_poll (h : t.Begun) (hf : t.Fresh) : (terminal.poll t).Fresh ↔
    (0 < t.waiting → t.slate.canDraw = true ∨ t.Current ∨ t.pending = true) := by
  by_cases hw : 0 < t.waiting
  · obtain ⟨hsome, hface⟩ := face_drain h hw
    have hsession : t.slate.drain.term.isSome = true := congrArg Face.session hface
    have hrx : t.slate.drain.dirtyRx = some 0 := congrArg Face.dirtyRx hface
    have hiff := fresh_become (t := t) (congrArg Face.committed hface)
    rw [hsession, hrx] at hiff
    refine hiff.trans ?_
    simp [hw]
  · have hface := congrArg SlateState.face (drain_of_not_waiting hw)
    exact iff_of_true ((fresh_still hface).mpr hf) fun hw' => absurd hw' hw

theorem waiting_poll (h : t.Begun) : (terminal.poll t).waiting = 0 := by
  by_cases hw : 0 < t.waiting
  · have hrx : t.slate.drain.dirtyRx = some 0 := congrArg Face.dirtyRx (face_drain h hw).2
    show t.slate.drain.dirtyRx.getD 0 = 0
    rw [hrx]
    rfl
  · show t.slate.drain.dirtyRx.getD 0 = 0
    rw [drain_of_not_waiting hw]
    exact Nat.eq_zero_of_not_pos hw

theorem Begun.side (h : t.Begun) {e : ShellEvent} (he : t.CanSide e) : (t.side e).Begun := by
  obtain ⟨hsurface, hconf, hrx, hsilent⟩ := h
  cases e with
  | print bytes =>
    refine ⟨hsurface, hconf, hrx, fun hnone => ?_⟩
    exact absurd (hnone.symm.trans he.1) Bool.false_ne_true
  | wakeup =>
    refine ⟨hsurface, hconf, ?_, fun hnone => ⟨rfl, (hsilent hnone).2⟩⟩
    simpa [Terminal.side, SlateState.sendEvent] using hrx
  | notice =>
    refine ⟨hsurface, hconf, ?_, hsilent⟩
    simpa [Terminal.side, SlateState.sendEvent] using hrx
  | work =>
    have hterm : t.slate.work.term.isSome = t.slate.term.isSome := by simp [SlateState.work]
    refine ⟨hsurface, fun hsome => hconf (hterm ▸ hsome), hrx.trans hterm.symm, fun hnone => ?_⟩
    exact hsilent (hterm ▸ hnone)

/-- The PTY thread notifies after it has printed. -/
theorem Fresh.side (h : t.Begun) (hf : t.Fresh) {e : ShellEvent} (he : t.CanSide e) :
    (t.side e).Fresh := by
  have hnotified (hsome : t.slate.term.isSome = true) :
      0 < (t.slate.sendEvent.dirtyRx).getD 0 := by
    have hrx := h.dirtyRx.trans hsome
    cases hd : t.slate.dirtyRx with
    | none => simp [hd] at hrx
    | some n => simp [SlateState.sendEvent, hd]
  cases e with
  | print bytes => exact fun _ => .inr (.inr rfl)
  | wakeup => exact fun hsome => .inr (.inl (hnotified hsome))
  | notice => exact fun hsome => .inr (.inl (hnotified hsome))
  | work =>
    have hterm : t.slate.work.term.isSome = t.slate.term.isSome := by simp [SlateState.work]
    exact fun hsome => hf (hterm ▸ hsome)

/-- What other threads do is not seen. -/
theorem foldl_side (ds : List ShellEvent) : (ds.foldl Terminal.side t).frames = t.frames ∧
    (ds.foldl Terminal.side t).output = t.output ++ ds.flatMap ShellEvent.bytes := by
  induction ds generalizing t with
  | nil => simp
  | cons d ds ih =>
    obtain ⟨hframes, houtput⟩ := ih (t := t.side d)
    rw [List.foldl_cons, hframes, houtput]
    cases d <;> simp [Terminal.side, ShellEvent.bytes]

end Terminal

theorem keeps_begun : terminal.Keeps Terminal.Begun where
  handle _ e h := h.handle e
  poll _ h := h.poll
  side _ _ h he := h.side he

theorem begun_start {t : Terminal} (h : terminal.Start t) : t.Begun ∧ t.Fresh := by
  obtain ⟨failure, ptyFailure, rfl⟩ := h
  refine ⟨⟨rfl, nofun, rfl, fun _ => ⟨rfl, ?_⟩⟩, nofun⟩
  intro hcur
  cases hcur

variable {s : TerminalState} {e : TerminalEvent}

/-- **One step.** -/
theorem fresh_step (h : s.main.Begun) (hf : s.main.Fresh) (he : terminal.machine.Enabled s e) :
    (terminal.machine.step s e).main.Fresh ↔ Supplied s e := by
  cases e with
  | arrive e => exact iff_of_true hf trivial
  | handle =>
    obtain ⟨main, arrived, awake⟩ := s
    cases arrived with
    | nil => cases he.1
    | cons e rest =>
      refine (Terminal.fresh_handle h hf e).trans ?_
      constructor
      · intro hsupplied serial hhead
        exact hsupplied ⟨serial, Option.some.inj hhead⟩
      · rintro hsupplied ⟨serial, rfl⟩
        exact hsupplied serial rfl
  | poll => exact Terminal.fresh_poll h hf
  | side d => exact iff_of_true (hf.side h he) trivial

/-- **Output waits for the compositor, and is not lost meanwhile.** In any run, whatever the shell
prints and the compositor says:

* what the last frame does not show is notified or about to be, in every state, if and only if every
  redraw for something new finds a buffer, unless a `Wakeup` is still to be sent;
* so if they all do, after a poll with no `Wakeup` to be sent the last frame shows everything that
  was printed;
* but while the main loop sleeps and the compositor says nothing, no frame is committed, and what is
  on the screen is out of date from the first byte that is printed. -/
theorem output_waits (hs : terminal.machine.Init s) {es : List TerminalEvent}
    (hl : terminal.machine.Legal s es) :
    (terminal.machine.Always (fun s => s.main.Fresh) s es ↔
        terminal.machine.EachStep Supplied s es) ∧
      (terminal.machine.EachStep Supplied s es → ∀ pre, pre ++ [.poll] <+: es →
        let t := (terminal.machine.run s (pre ++ [.poll])).main
        t.slate.term.isSome = true → t.pending = false → t.Current) ∧
      ∀ fs, (terminal.machine.run s es).Asleep →
        terminal.machine.Legal (terminal.machine.run s es) fs → (∀ e ∈ fs, e.Quiet) →
        let t := (terminal.machine.run s es).main
        let t' := (terminal.machine.run s (es ++ fs)).main
        t'.frames = t.frames ∧ t'.output = t.output ++ printed fs ∧
          (t.Current → (t'.Current ↔ printed fs = [])) := by
  obtain ⟨hbegun, hfresh⟩ := begun_start hs.1
  have hiff := EventMachine.always_iff_eachStep (M := terminal.machine)
    (P := fun s => s.main.Fresh) (I := fun s => s.main.Begun) (C := Supplied)
    (fun s e h he => keeps_begun.step h he) (fun s e h hf he => fresh_step h hf he) hbegun hfresh hl
  refine ⟨hiff, ?_, ?_⟩
  · intro hsupplied pre hpre t hsome hpending
    have hpoll : t = terminal.poll (terminal.machine.run s pre).main := by
      show (terminal.machine.run s (pre ++ [.poll])).main = _
      rw [EventMachine.run_append]
      rfl
    have hreach : terminal.machine.Reachable (terminal.machine.run s pre) :=
      ⟨s, pre, hs, hl.of_prefix ((List.prefix_append pre [.poll]).trans hpre), rfl⟩
    have hmain := EventLoop.reachable_main keeps_begun (fun _ h => (begun_start h).1) hreach
    have hwaiting : t.waiting = 0 := hpoll ▸ Terminal.waiting_poll hmain
    rcases hiff.mpr hsupplied _ hpre hsome with hcur | hw | hp
    · exact hcur
    · exact absurd hwaiting (Nat.ne_of_gt hw)
    · exact absurd (hpending.symm.trans hp) Bool.false_ne_true
  · intro fs hasleep hlf hq t t'
    have hrun : t' = (EventLoop.sides fs).foldl Terminal.side t := by
      have heq := EventLoop.asleep_run hasleep hlf hq
      rw [← EventMachine.run_append] at heq
      exact congrArg EventLoop.State.main heq
    obtain ⟨hframes, houtput⟩ := Terminal.foldl_side (t := t) (EventLoop.sides fs)
    rw [← hrun] at hframes houtput
    refine ⟨hframes, houtput, fun hcur => ?_⟩
    rw [Terminal.Current] at hcur ⊢
    rw [hframes, hcur, houtput]
    simp [printed]

/-- A terminal, before anything has happened. -/
def launched : TerminalState :=
  ⟨⟨(SlateState.new (fun _ => none) fun _ => none).initSurface, [], false, []⟩, [], false⟩

/-- It is shown, and starts its shell. -/
def mapped : List TerminalEvent := [.arrive (.configure 1), .handle, .poll]

/-- The shell prints a prompt. -/
def prompt : List TerminalEvent := [.side (.print [0x24, 0x20]), .side .wakeup]

/-- The compositor asks whether it is still there. -/
def pinged : List TerminalEvent := [.arrive (.ping 2), .handle, .poll]

/-- **The prompt of the shell is not shown**, until the compositor sends a ping. -/
theorem output_waits_prompt :
    ¬ (terminal.machine.run launched (mapped ++ prompt)).main.Current ∧
      (terminal.machine.run launched (mapped ++ prompt ++ pinged)).main.Current := by
  have hstart : terminal.machine.Init launched := ⟨⟨_, _, rfl⟩, rfl, rfl⟩
  have hquiet : ∀ e ∈ prompt, e.Quiet := by simp [prompt, EventLoop.Event.Quiet]
  have hlegal : terminal.machine.Legal launched mapped := by decide
  have hwaits := (output_waits hstart hlegal).2.2 prompt ⟨rfl, rfl⟩ (by decide) hquiet
  refine ⟨fun hcur => ?_, rfl⟩
  have hnone := (hwaits.2.2 rfl).mp hcur
  cases hnone

end Slate

end Nullxes
