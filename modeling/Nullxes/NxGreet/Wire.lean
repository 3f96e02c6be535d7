import Nullxes.NxGreet.Sizes
import Nullxes.Wlcommon.Conformance

/-!
# The connection of the greeter

The greeter as a client with one window. A proposed size is taken over, a side at a time, for the
pool that is made on the first redraw; a pool that is there stays as it is.

## Main results

* `NxGreet.wireClient` — every reaction makes the moves that are due
-/

namespace Nullxes

namespace NxGreet

open Wlcommon

/-- A request, as it passes on the connection. -/
def WlRequest.asked : WlRequest → Wire.Request
  | .surface => .surface
  | .ackConfigure serial => .ackConfigure serial
  | .pong serial => .pong serial
  | .getKeyboard => .getKeyboard
  | .attachAndCommit drawn => .commit drawn.wlBuf drawn.w drawn.h
  | .shm r => .shm r

/-- An event, as it passes on the connection. -/
def ServerEvent.told : ServerEvent → Wire.Event
  | .ping serial => .ping serial
  | .configure serial => .configure serial
  | .capabilities keyboard => .capabilities keyboard
  | .release wlBuf => .release wlBuf
  | _ => .other

/-- The sides that are proposed are no longer than that, if any is. -/
def ServerEvent.Modest : ServerEvent → Prop
  | .toplevelConfigure w h => w.toInt ≤ 23170 ∧ h.toInt ≤ 23170
  | _ => True

instance (e : ServerEvent) : Decidable e.Modest :=
  match e with
  | .toplevelConfigure w h => inferInstanceAs (Decidable (w.toInt ≤ 23170 ∧ h.toInt ≤ 23170))
  | .ping _ | .configure _ | .close | .capabilities _ | .keymap .. | .modifiers _ | .key ..
  | .release _ | .other => .isTrue trivial

theorem affordable_size (failure : ℕ → Option String) (link : Link) :
    Wire.Affordable (GreetState.new failure link).width (GreetState.new failure link).height := by
  have hw : (GreetState.new failure link).width = 1920 := rfl
  have hh : (GreetState.new failure link).height = 1080 := rfl
  rw [hw, hh]
  constructor <;> decide

namespace GreetState

variable (s : GreetState)

/-- What the greeter has in common with other clients. -/
def window : Wire.Window (Option Picture) :=
  ⟨s.shm, s.surface, s.configured, s.width, s.height, s.buffer,
    s.sent.map WlRequest.asked⟩

theorem window_request (r : WlRequest) : (s.request r).window = s.window.request r.asked := by
  simp [window, request, Wire.Window.request]

theorem window_setShm (shm : Shm) : (s.setShm shm).window = s.window.setShm shm := by
  simp [window, setShm, Wire.Window.setShm, WlRequest.asked, Function.comp_def]

theorem window_pool : s.window.pool = s.pool := by
  rw [pool, Wire.Window.pool]
  cases hbuf : s.buffer with
  | some pool => simp [window, hbuf]
  | none =>
    rcases hnew : ShmDoubleBuffer.new (γ := Option Picture) s.shm s.width s.height with
      ⟨_ | _, shm⟩ <;> simp [window, hbuf, hnew]

/-- `redraw` from `pool.draw` on. -/
def drawInto (pool : ShmDoubleBuffer (Option Picture)) : GreetState :=
  let (drawn, shm) := pool.draw s.shm s.paint
  let s := s.setShm shm
  match drawn with
  | .error _ => s
  | .ok (pool, drawn) =>
    let s := { s with buffer := some pool }
    if s.surface then s.request (.attachAndCommit drawn) else s

theorem window_drawInto (pool : ShmDoubleBuffer (Option Picture)) :
    (s.drawInto pool).window = s.window.drawInto s.paint pool := by
  have hshm : s.window.shm = s.shm := rfl
  rw [drawInto, Wire.Window.drawInto, hshm]
  rcases pool.draw s.shm s.paint with ⟨_ | ⟨pool', drawn⟩, shm⟩
  · exact s.window_setShm shm
  · have hwindow : { s.setShm shm with buffer := some pool' }.window =
        { s.window.setShm shm with buffer := some pool' } := by
      rw [← window_setShm]
      rfl
    dsimp only
    split
    next hs =>
      rw [window_request, hwindow]
      exact (if_pos hs).symm
    next hs => exact hwindow.trans (if_neg hs).symm

/-- The `redraw` of the greeter is that of the common part. -/
theorem window_redraw : s.redraw.window = s.window.redraw s.paint := by
  have hc : s.window.configured = s.configured := rfl
  rw [redraw, Wire.Window.redraw, window_pool, hc]
  split
  · rfl
  rcases s.pool with ⟨_ | pool, shm⟩
  · show { s.setShm shm with buffer := none }.window = { s.window.setShm shm with buffer := none }
    rw [← window_setShm]
    rfl
  · have hdraw := window_drawInto { s.setShm shm with buffer := some pool } pool
    refine hdraw.trans ?_
    show Wire.Window.drawInto { (s.setShm shm).window with buffer := some pool } s.paint pool = _
    rw [window_setShm]

/-- A redraw is a move. -/
theorem repaints_redraw : s.window.Repaints s.redraw.window := by
  rw [window_redraw]
  exact .redraw s.window _

/-- The window is on the canvas. -/
theorem window_eq_of_canvas {s t : GreetState} (h : t.canvas = s.canvas) : t.window = s.window := by
  have hsent : t.sent = s.sent := congrArg Canvas.sent h
  rw [window, window, hsent]
  exact congrArg (fun c : Canvas => Wire.Window.mk c.shm c.surface c.configured c.width c.height
    c.buffer (s.sent.map WlRequest.asked)) h

/-- What keys do redraws the window at most. -/
theorem Repaints.window {s t : GreetState} (h : s.Repaints t) : s.window.Repaints t.window := by
  cases h with
  | quiet t h =>
    rw [window_eq_of_canvas h]
    exact .refl _
  | redrawn t h =>
    rw [← window_eq_of_canvas h]
    exact t.repaints_redraw

theorem size_dispatchToplevel (w h : Int32) :
    (s.dispatchToplevel w h).width = (if 0 < w then w.toUInt32 else s.width) ∧
      (s.dispatchToplevel w h).height = if 0 < h then h.toUInt32 else s.height := by
  rw [dispatchToplevel]
  split <;> split <;> exact ⟨rfl, rfl⟩

/-- What the greeter makes of a proposed size. -/
theorem repaints_dispatchToplevel (hs : Wire.Affordable s.window.width s.window.height)
    {w h : Int32} (hw : w.toInt ≤ 23170) (hh : h.toInt ≤ 23170) :
    s.window.Repaints (s.dispatchToplevel w h).window := by
  have hsize : Wire.Affordable (s.dispatchToplevel w h).width (s.dispatchToplevel w h).height := by
    rw [(s.size_dispatchToplevel w h).1, (s.size_dispatchToplevel w h).2]
    exact hs.sides hw hh
  have heq : (s.dispatchToplevel w h).window =
      { s.window with
        width := (s.dispatchToplevel w h).width, height := (s.dispatchToplevel w h).height } := by
    rw [dispatchToplevel]
    split <;> split <;> rfl
  rw [heq]
  exact .propose s.window hsize

/-- **What the greeter does of an event is due.** -/
theorem answers_dispatch (hs : Wire.Affordable s.window.width s.window.height) (e : ServerEvent)
    (he : e.Modest) : ∃ ms, Wire.Answers e.told ms ∧ (s.dispatch e).window = s.window.moves ms := by
  cases e with
  | ping serial =>
    refine ⟨[.pong serial], .pong serial, ?_⟩
    exact s.window_request (.pong serial)
  | configure serial =>
    have hack : { s.request (.ackConfigure serial) with configured := true }.window =
        s.window.move (.ack serial) := by
      simp [window, request, Wire.Window.move, Wire.Window.request, WlRequest.asked]
    refine Wire.Window.Repaints.answers_configure ?_
    rw [← hack]
    exact repaints_redraw _
  | toplevelConfigure w h => exact (s.repaints_dispatchToplevel hs he.1 he.2).answers _
  | close => exact (Wire.Window.Repaints.refl _).answers _
  | capabilities keyboard =>
    rw [dispatch, dispatchCapabilities]
    split
    next hkb =>
      obtain ⟨rfl, -⟩ := Bool.and_eq_true_iff.mp hkb
      exact ⟨[.askKeyboard], .keyboard, s.window_request .getKeyboard⟩
    next => exact (Wire.Window.Repaints.refl _).answers _
  | keymap xkbV1 loaded =>
    rw [dispatch]
    split <;> exact (Wire.Window.Repaints.refl _).answers _
  | modifiers mods => exact (Wire.Window.Repaints.refl _).answers _
  | key key pressed => exact (s.dispatchKey_repaints key pressed).window.answers _
  | release wlBuf => exact ⟨[.release wlBuf], .release wlBuf, rfl⟩
  | other => exact (Wire.Window.Repaints.refl _).answers _

end GreetState

/-- **The greeter as a client with one window.** -/
def wireClient : Wire.Client GreetState ServerEvent (Option Picture) where
  window := GreetState.window
  react := GreetState.dispatch
  told := ServerEvent.told
  Modest := ServerEvent.Modest
  Start s := ∃ failure link, s = (GreetState.new failure link).initSurface
  begun := by
    rintro _ ⟨failure, link, rfl⟩
    exact ⟨rfl, rfl, rfl, rfl, affordable_size failure link⟩
  answers s e hs he := s.answers_dispatch hs e he

end NxGreet

end Nullxes
