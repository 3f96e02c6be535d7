import Nullxes.NxSettings.State
import Nullxes.Wlcommon.Conformance

/-!
# The connection of the settings window

The settings window as a client with one window. Its size is fixed: it does not look at what
`xdg_toplevel` proposes.

## Main results

* `NxSettings.wireClient` — every reaction makes the moves that are due
-/

namespace Nullxes

namespace NxSettings

open Wlcommon

/-- A request, as it passes on the connection. -/
def WlRequest.asked : WlRequest → Wire.Request
  | .surface => .surface
  | .ackConfigure serial => .ackConfigure serial
  | .getKeyboard => .getKeyboard
  | .pong serial => .pong serial
  | .attachAndCommit drawn => .commit drawn.wlBuf drawn.w drawn.h
  | .shm r => .shm r

/-- An event, as it passes on the connection. -/
def WindowEvent.told : WindowEvent → Wire.Event
  | .ping serial => .ping serial
  | .configure serial _ => .configure serial
  | .capabilities keyboard => .capabilities keyboard
  | .release wlBuf => .release wlBuf
  | _ => .other

theorem affordable_size : Wire.Affordable width height := by constructor <;> decide

namespace SettingsState

variable (ctx : Context) (s : SettingsState)

/-- What the settings window has in common with other clients. -/
def window : Wire.Window (Option Picture) :=
  ⟨s.shm, s.surface, s.configured, s.width, s.height, s.buffer,
    s.sent.map WlRequest.asked⟩

theorem window_request (r : WlRequest) : (s.request r).window = s.window.request r.asked := by
  simp [window, request, Wire.Window.request]

theorem window_setShm (shm : Shm) : (s.setShm shm).window = s.window.setShm shm := by
  simp [window, setShm, Wire.Window.setShm, WlRequest.asked, Function.comp_def]

theorem window_pool : s.window.pool = s.pool := by
  rw [pool, Wire.Window.pool]
  cases hbuf : s.buffer with
  | some pool => simp [window, hbuf]
  | none =>
    rcases hnew : ShmDoubleBuffer.new (γ := Option Picture) s.shm s.width s.height with
      ⟨_ | _, shm⟩ <;> simp [window, hbuf, hnew]

/-- `redraw` from `pool.draw` on. -/
def drawInto (disk : FrameConfFile) (pool : ShmDoubleBuffer (Option Picture)) : SettingsState :=
  let (drawn, shm) := pool.draw s.shm (s.picture ctx disk)
  let s := s.setShm shm
  match drawn with
  | .error _ => s
  | .ok (pool, drawn) =>
    let s := { s with buffer := some pool }
    if s.surface then s.request (.attachAndCommit drawn) else s

theorem window_drawInto (disk : FrameConfFile) (pool : ShmDoubleBuffer (Option Picture)) :
    (s.drawInto ctx disk pool).window = s.window.drawInto (s.picture ctx disk) pool := by
  have hshm : s.window.shm = s.shm := rfl
  rw [drawInto, Wire.Window.drawInto, hshm]
  rcases pool.draw s.shm (s.picture ctx disk) with ⟨_ | ⟨pool', drawn⟩, shm⟩
  · exact s.window_setShm shm
  · have hwindow : { s.setShm shm with buffer := some pool' }.window =
        { s.window.setShm shm with buffer := some pool' } := by
      rw [← window_setShm]
      rfl
    dsimp only
    split
    next hs =>
      rw [window_request, hwindow]
      exact (if_pos hs).symm
    next hs => exact hwindow.trans (if_neg hs).symm

/-- The `redraw` of the settings window is that of the common part. -/
theorem window_redraw (disk : FrameConfFile) :
    (s.redraw ctx disk).window = s.window.redraw (s.picture ctx disk) := by
  have hc : s.window.configured = s.configured := rfl
  rw [redraw, Wire.Window.redraw, window_pool, hc]
  split
  · rfl
  rcases s.pool with ⟨_ | pool, shm⟩
  · show { s.setShm shm with buffer := none }.window = { s.window.setShm shm with buffer := none }
    rw [← window_setShm]
    rfl
  · have hdraw := window_drawInto ctx { s.setShm shm with buffer := some pool } disk pool
    refine hdraw.trans ?_
    show Wire.Window.drawInto { (s.setShm shm).window with buffer := some pool }
      (s.picture ctx disk) pool = _
    rw [window_setShm]

/-- A redraw is a move. -/
theorem repaints_redraw (disk : FrameConfFile) :
    s.window.Repaints (s.redraw ctx disk).window := by
  rw [window_redraw]
  exact .redraw s.window _

/-- What keys do redraws the window at most. -/
theorem repaints_handleAction (action : Action) (disk : FrameConfFile) :
    s.window.Repaints (s.handleAction ctx action disk).window := by
  have hact : (s.act action).window = s.window := by cases action <;> rfl
  rw [handleAction, ← hact]
  exact repaints_redraw ctx _ disk

theorem repaints_dispatchKey (key : UInt32) (pressed : Bool)
    (disk : FrameConfFile) : s.window.Repaints (s.dispatchKey ctx key pressed disk).window := by
  rw [dispatchKey]
  split
  · cases s.keymap.processKey key with
    | action a => exact s.repaints_handleAction ctx a disk
    | _ => exact .refl _
  · exact .refl _

/-- **What the settings window does of an event is due.** -/
theorem answers_dispatch (e : WindowEvent) :
    ∃ ms, Wire.Answers e.told ms ∧ (s.dispatch ctx e).window = s.window.moves ms := by
  cases e with
  | ping serial =>
    refine ⟨[.pong serial], .pong serial, ?_⟩
    exact s.window_request (.pong serial)
  | configure serial disk =>
    have hack : { s.request (.ackConfigure serial) with configured := true }.window =
        s.window.move (.ack serial) := by
      simp [window, request, Wire.Window.move, Wire.Window.request, WlRequest.asked]
    refine Wire.Window.Repaints.answers_configure ?_
    rw [← hack]
    exact repaints_redraw ctx _ disk
  | close => exact (Wire.Window.Repaints.refl _).answers _
  | capabilities keyboard =>
    rw [dispatch, dispatchCapabilities]
    split
    next hkb =>
      obtain ⟨rfl, -⟩ := Bool.and_eq_true_iff.mp hkb
      refine ⟨[.askKeyboard], .keyboard, ?_⟩
      simp [window, request, Wire.Window.moves, Wire.Window.move, Wire.Window.request,
        WlRequest.asked]
    next => exact (Wire.Window.Repaints.refl _).answers _
  | keymap xkbV1 loaded =>
    rw [dispatch]
    split <;> exact (Wire.Window.Repaints.refl _).answers _
  | modifiers mods => exact (Wire.Window.Repaints.refl _).answers _
  | key key pressed disk => exact (s.repaints_dispatchKey ctx key pressed disk).answers _
  | release wlBuf => exact ⟨[.release wlBuf], .release wlBuf, rfl⟩
  | other => exact (Wire.Window.Repaints.refl _).answers _

end SettingsState

/-- **The settings window as a client with one window.** -/
def wireClient (ctx : Context) : Wire.Client SettingsState WindowEvent (Option Picture) where
  window := SettingsState.window
  react := SettingsState.dispatch ctx
  told := WindowEvent.told
  Modest _ := True
  Start s := ∃ failure, s = (SettingsState.new failure).initSurface
  begun := by
    rintro _ ⟨failure, rfl⟩
    exact ⟨rfl, rfl, rfl, rfl, affordable_size⟩
  answers s e _ _ := s.answers_dispatch ctx e

end NxSettings

end Nullxes
