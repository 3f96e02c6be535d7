import Nullxes.Launcher.State
import Nullxes.Wlcommon.Conformance

/-!
# The connection of the launcher

The launcher as a client with one window. Its size is fixed: `configure` of a layer surface proposes
one, at which the launcher does not look.

## Main results

* `Launcher.wireClient` — every reaction makes the moves that are due
-/

namespace Nullxes

namespace Launcher

open Wlcommon

/-- A request, as it passes on the connection. -/
def WlRequest.asked : WlRequest → Wire.Request
  | .surface => .surface
  | .ackConfigure serial => .ackConfigure serial
  | .getKeyboard => .getKeyboard
  | .attachAndCommit drawn => .commit drawn.wlBuf drawn.w drawn.h
  | .shm r => .shm r

/-- An event, as it passes on the connection. -/
def ServerEvent.told : ServerEvent → Wire.Event
  | .configure serial => .configure serial
  | .capabilities keyboard => .capabilities keyboard
  | .release wlBuf => .release wlBuf
  | _ => .other

theorem affordable_size : Wire.Affordable width height := by constructor <;> decide

namespace LauncherState

variable (s : LauncherState)

/-- What the launcher has in common with other clients. -/
def window : Wire.Window (Option Picture) :=
  ⟨s.shm, s.surface, s.configured, width, height, s.buffer,
    s.sent.map WlRequest.asked⟩

theorem window_request (r : WlRequest) : (s.request r).window = s.window.request r.asked := by
  simp [window, request, Wire.Window.request]

theorem window_setShm (shm : Shm) : (s.setShm shm).window = s.window.setShm shm := by
  simp [window, setShm, Wire.Window.setShm, WlRequest.asked, Function.comp_def]

theorem window_pool : s.window.pool = s.pool := by
  rw [pool, Wire.Window.pool]
  cases hbuf : s.buffer with
  | some pool => simp [window, hbuf]
  | none =>
    rcases hnew : ShmDoubleBuffer.new (γ := Option Picture) s.shm width height with ⟨_ | _, shm⟩ <;>
      simp [window, hbuf, hnew]

/-- `redraw` from `pool.draw` on. -/
def drawInto (pool : ShmDoubleBuffer (Option Picture)) : LauncherState :=
  let (drawn, shm) := pool.draw s.shm s.picture
  let s := s.setShm shm
  match drawn with
  | .error _ => s
  | .ok (pool, drawn) =>
    let s := { s with buffer := some pool }
    if s.surface then s.request (.attachAndCommit drawn) else s

theorem window_drawInto (pool : ShmDoubleBuffer (Option Picture)) :
    (s.drawInto pool).window = s.window.drawInto s.picture pool := by
  have hshm : s.window.shm = s.shm := rfl
  rw [drawInto, Wire.Window.drawInto, hshm]
  rcases pool.draw s.shm s.picture with ⟨_ | ⟨pool', drawn⟩, shm⟩
  · exact s.window_setShm shm
  · have hwindow : { s.setShm shm with buffer := some pool' }.window =
        { s.window.setShm shm with buffer := some pool' } := by
      rw [← window_setShm]
      rfl
    dsimp only
    split
    next hs =>
      rw [window_request, hwindow]
      exact (if_pos hs).symm
    next hs => exact hwindow.trans (if_neg hs).symm

/-- The `redraw` of the launcher is that of the window. -/
theorem window_redraw : s.redraw.window = s.window.redraw s.picture := by
  have hc : s.window.configured = s.configured := rfl
  rw [redraw, Wire.Window.redraw, window_pool, hc]
  split
  · rfl
  rcases s.pool with ⟨_ | pool, shm⟩
  · show { s.setShm shm with buffer := none }.window = { s.window.setShm shm with buffer := none }
    rw [← window_setShm]
    rfl
  · have hdraw := window_drawInto { s.setShm shm with buffer := some pool } pool
    refine hdraw.trans ?_
    show Wire.Window.drawInto { (s.setShm shm).window with buffer := some pool } s.picture pool = _
    rw [window_setShm]

/-- A redraw is a move. -/
theorem repaints_redraw : s.window.Repaints s.redraw.window := by
  rw [window_redraw]
  exact .redraw s.window _

/-- What keys do redraws the window at most. -/
theorem repaints_handleAction (action : Action) :
    s.window.Repaints (s.handleAction action).window := by
  cases action with
  | enter =>
    have hsame : s.launchSelected.window = s.window := by
      rw [launchSelected]
      split
      · rfl
      · split <;> rfl
    have hclose : (s.handleAction .enter).window = s.launchSelected.window := rfl
    rw [hclose, hsame]
    exact .refl _
  | backspace => exact repaints_redraw _
  | up =>
    rw [handleAction]
    split
    · exact repaints_redraw _
    · exact .refl _
  | down =>
    rw [handleAction]
    split
    · exact repaints_redraw _
    · exact .refl _
  | _ => exact .refl _

theorem repaints_dispatchKey (key : UInt32) (pressed : Bool) :
    s.window.Repaints (s.dispatchKey key pressed).window := by
  rw [dispatchKey]
  split
  · cases s.keymap.processKey key with
    | action a => exact s.repaints_handleAction a
    | text t => exact repaints_redraw _
    | none => exact .refl _
  · exact .refl _

/-- **What the launcher does of an event is due.** -/
theorem answers_dispatch (e : ServerEvent) :
    ∃ ms, Wire.Answers e.told ms ∧ (s.dispatch e).window = s.window.moves ms := by
  cases e with
  | configure serial =>
    have hack : { s.request (.ackConfigure serial) with configured := true }.window =
        s.window.move (.ack serial) := by
      simp [window, request, Wire.Window.move, Wire.Window.request, WlRequest.asked]
    refine Wire.Window.Repaints.answers_configure ?_
    rw [← hack]
    exact repaints_redraw _
  | closed => exact (Wire.Window.Repaints.refl _).answers _
  | capabilities keyboard =>
    rw [dispatch, dispatchCapabilities]
    split
    next h =>
      obtain ⟨rfl, -⟩ := Bool.and_eq_true_iff.mp h
      refine ⟨[.askKeyboard], .keyboard, ?_⟩
      simp [window, request, Wire.Window.moves, Wire.Window.move, Wire.Window.request,
        WlRequest.asked]
    next => exact (Wire.Window.Repaints.refl _).answers _
  | keymap xkbV1 loaded =>
    rw [dispatch]
    split <;> exact (Wire.Window.Repaints.refl _).answers _
  | modifiers mods => exact (Wire.Window.Repaints.refl _).answers _
  | key key pressed => exact (s.repaints_dispatchKey key pressed).answers _
  | release wlBuf => exact ⟨[.release wlBuf], .release wlBuf, rfl⟩
  | other => exact (Wire.Window.Repaints.refl _).answers _

end LauncherState

/-- **The launcher as a client with one window.** -/
def wireClient : Wire.Client LauncherState ServerEvent (Option Picture) where
  window := LauncherState.window
  react := LauncherState.dispatch
  told := ServerEvent.told
  Modest _ := True
  Start s := ∃ failure text searcher, s = (LauncherState.new failure text searcher).initSurface
  begun := by
    rintro _ ⟨failure, text, searcher, rfl⟩
    exact ⟨rfl, rfl, rfl, rfl, affordable_size⟩
  answers s e _ _ := s.answers_dispatch e

end Launcher

end Nullxes
