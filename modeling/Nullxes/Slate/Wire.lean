import Nullxes.Slate.State
import Nullxes.Wlcommon.Conformance

/-!
# The connection of the terminal

The terminal as a client with one window. It draws the window for the compositor's events and for
the shell's output, and resizes its pool with the window.

## Main results

* `Slate.wireClient` — every reaction makes the moves that are due
-/

namespace Nullxes

namespace Slate

open Wlcommon

/-- A request, as it passes on the connection. -/
def WlRequest.asked : WlRequest → Wire.Request
  | .surface => .surface
  | .ackConfigure serial => .ackConfigure serial
  | .pong serial => .pong serial
  | .getKeyboard => .getKeyboard
  | .attachAndCommit drawn => .commit drawn.wlBuf drawn.w drawn.h
  | .shm r => .shm r

/-- An event, as it passes on the connection. -/
def ServerEvent.told : ServerEvent → Wire.Event
  | .ping serial => .ping serial
  | .configure serial => .configure serial
  | .capabilities keyboard => .capabilities keyboard
  | .release wlBuf => .release wlBuf
  | _ => .other

/-- What happens elsewhere does not pass on the connection. -/
def Event.told : Event → Wire.Event
  | .dispatch e => e.told
  | _ => .other

/-- The sides that are proposed are no longer than that, if any is. -/
def Event.Modest : Event → Prop
  | .dispatch (.toplevelConfigure w h) => w.toInt ≤ 23170 ∧ h.toInt ≤ 23170
  | _ => True

instance (e : Event) : Decidable e.Modest := by
  rcases e with e | _ | _ | _
  · cases e <;> unfold Event.Modest <;> infer_instance
  all_goals exact inferInstanceAs (Decidable True)

theorem affordable_size : Wire.Affordable defaultW defaultH := by constructor <;> decide

namespace SlateState

variable (s : SlateState)

/-- What the terminal has in common with other clients. -/
def window : Wire.Window (Option Picture) :=
  ⟨s.shm, s.surface, s.configured, s.width, s.height, s.buffer, s.sent.map WlRequest.asked⟩

theorem window_request (r : WlRequest) : (s.request r).window = s.window.request r.asked := by
  simp [window, request, Wire.Window.request]

theorem window_setShm (shm : Shm) : (s.setShm shm).window = s.window.setShm shm := by
  simp [window, setShm, Wire.Window.setShm, WlRequest.asked, Function.comp_def]

theorem window_ensureTerm : s.ensureTerm.window = s.window := by
  rw [ensureTerm]
  split
  · rfl
  · dsimp only
    split <;> rfl

theorem window_pool : s.window.pool = s.pool := by
  rw [pool, Wire.Window.pool]
  cases hbuf : s.buffer with
  | some pool => simp [window, hbuf]
  | none =>
    rcases hnew : ShmDoubleBuffer.new (γ := Option Picture) s.shm s.width s.height with
      ⟨_ | _, shm⟩ <;> simp [window, hbuf, hnew]

theorem window_drawInto (pool : ShmDoubleBuffer (Option Picture)) :
    (s.drawInto pool).window = s.window.drawInto s.paint pool := by
  have hshm : s.window.shm = s.shm := rfl
  rw [drawInto, Wire.Window.drawInto, hshm]
  rcases pool.draw s.shm s.paint with ⟨_ | ⟨pool', drawn⟩, shm⟩
  · exact s.window_setShm shm
  · have hwindow : { s.setShm shm with buffer := some pool' }.window =
        { s.window.setShm shm with buffer := some pool' } := by
      rw [← window_setShm]
      rfl
    dsimp only
    split
    next hs =>
      rw [window_request, hwindow]
      exact (if_pos hs).symm
    next hs => exact hwindow.trans (if_neg hs).symm

/-- The `redraw` of the terminal is that of the common part, with a session started before. -/
theorem window_redraw : s.redraw.window = s.window.redraw s.ensureTerm.paint := by
  have hc : s.window.configured = s.configured := rfl
  rw [redraw, Wire.Window.redraw, hc]
  split
  · rfl
  rw [← s.window_ensureTerm, window_pool, redrawPool]
  generalize s.ensureTerm = t
  rcases t.pool with ⟨_ | pool, shm⟩
  · show { t.setShm shm with buffer := none }.window = { t.window.setShm shm with buffer := none }
    rw [← window_setShm]
    rfl
  · have hdraw := window_drawInto { t.setShm shm with buffer := some pool } pool
    refine hdraw.trans ?_
    show Wire.Window.drawInto { (t.setShm shm).window with buffer := some pool } t.paint pool = _
    rw [window_setShm]

/-- A redraw is a move. -/
theorem repaints_redraw : s.window.Repaints s.redraw.window := by
  rw [window_redraw]
  exact .redraw s.window _

theorem window_resizeBuffer : (s.resizeBuffer s.width s.height).window = s.window.resize := by
  have hbuf : s.window.buffer = s.buffer := rfl
  rw [resizeBuffer, Wire.Window.resize, hbuf]
  cases s.buffer with
  | none => rfl
  | some pool =>
    have hset := s.window_setShm (pool.resize s.shm s.width s.height).2.2
    exact congrArg (fun w : Wire.Window (Option Picture) =>
      { w with buffer := some (pool.resize s.shm s.width s.height).2.1 }) hset

/-- A proposed size is taken over, and the pool resized. -/
theorem repaints_dispatchToplevel {width height : Int32} (hw : width.toInt ≤ 23170)
    (hh : height.toInt ≤ 23170) :
    s.window.Repaints (s.dispatchToplevel width height).window := by
  have hsize := affordable_size.sides hw hh
  rw [dispatchToplevel]
  generalize (if 0 < width then width.toUInt32 else defaultW) = w at hsize ⊢
  generalize (if 0 < height then height.toUInt32 else defaultH) = h at hsize ⊢
  split
  · have hresize := window_resizeBuffer { s with width := w, height := h }
    refine (Wire.Window.Repaints.propose s.window hsize).trans ?_
    have heq : (({ s with width := w, height := h }.resizeBuffer w h).resizeTerm w h).window =
        Wire.Window.resize { s.window with width := w, height := h } := hresize
    rw [heq]
    exact .resize _
  · exact .refl _

theorem window_dispatchKey (key : UInt32) (pressed : Bool) :
    (s.dispatchKey key pressed).window = s.window := by
  rw [dispatchKey]
  split
  · cases s.keymap.processKey key <;> rfl
  · rfl

/-- **What the terminal does of an event of the compositor is due.** -/
theorem answers_dispatch (e : ServerEvent) (he : (Event.dispatch e).Modest) :
    ∃ ms, Wire.Answers e.told ms ∧ (s.dispatch e).window = s.window.moves ms := by
  cases e with
  | ping serial =>
    exact ⟨[.pong serial], .pong serial, s.window_request (.pong serial)⟩
  | configure serial =>
    have hack : { s.request (.ackConfigure serial) with configured := true }.window =
        s.window.move (.ack serial) := by
      simp [window, request, Wire.Window.move, Wire.Window.request, WlRequest.asked]
    refine Wire.Window.Repaints.answers_configure ?_
    rw [← hack]
    exact repaints_redraw _
  | toplevelConfigure w h => exact (s.repaints_dispatchToplevel he.1 he.2).answers _
  | close => exact (Wire.Window.Repaints.refl _).answers _
  | capabilities keyboard =>
    rw [dispatch, dispatchCapabilities]
    split
    next hkb =>
      obtain ⟨rfl, -⟩ := Bool.and_eq_true_iff.mp hkb
      exact ⟨[.askKeyboard], .keyboard, s.window_request .getKeyboard⟩
    next => exact (Wire.Window.Repaints.refl _).answers _
  | keymap xkbV1 loaded =>
    rw [dispatch]
    split <;> exact (Wire.Window.Repaints.refl _).answers _
  | modifiers mods => exact (Wire.Window.Repaints.refl _).answers _
  | key key pressed =>
    refine Wire.Window.Repaints.answers ?_ _
    show s.window.Repaints (s.dispatchKey key pressed).window
    rw [window_dispatchKey]
    exact .refl _
  | release wlBuf => exact ⟨[.release wlBuf], .release wlBuf, rfl⟩
  | other => exact (Wire.Window.Repaints.refl _).answers _

/-- **What the terminal does is due**, also what it does for the shell. -/
theorem answers_react (e : Event) (he : e.Modest) :
    ∃ ms, Wire.Answers e.told ms ∧ (s.react e).window = s.window.moves ms := by
  cases e with
  | dispatch e => exact s.answers_dispatch e he
  | drain =>
    refine Wire.Window.Repaints.answers ?_ _
    show s.window.Repaints s.drain.window
    rw [drain]
    split
    · exact repaints_redraw _
    · exact .refl _
  | sendEvent => exact (Wire.Window.Repaints.refl _).answers _
  | work => exact (Wire.Window.Repaints.refl _).answers _

end SlateState

/-- **The terminal as a client with one window.** -/
def wireClient : Wire.Client SlateState Event (Option Picture) where
  window := SlateState.window
  react := SlateState.react
  told := Event.told
  Modest := Event.Modest
  Start s := ∃ failure ptyFailure, s = (SlateState.new failure ptyFailure).initSurface
  begun := by
    rintro _ ⟨failure, ptyFailure, rfl⟩
    exact ⟨rfl, rfl, rfl, rfl, affordable_size⟩
  answers s e _ he := s.answers_react e he

instance (e : Event) : Decidable (wireClient.Modest e) := inferInstanceAs (Decidable e.Modest)

end Slate

end Nullxes
