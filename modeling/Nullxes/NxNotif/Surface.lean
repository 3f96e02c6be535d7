import Nullxes.Wlcommon.Shm

/-!
# The Wayland thread of the notification daemon

`nx-notif/src/surface.rs`. `enqueue`, `pumpVisible`, `redraw` and `tickTimeouts` are the methods of
`WaylandThreadState`, `dispatch` its `Dispatch` implementations, `drain` the inner loop of
`wayland_thread` and `iterate` one round of the outer one.

## Representation

* An `Instant` is a number of nanoseconds; `clock` says what the next calls of `Instant::now` give.
* `txClosed` is everything that was sent over `tx_closed`. Over the channel goes only the id; the
  model keeps the notification it is about, and what it was closed for.
* A notification keeps, beside the fields of the source, the number of the `notify` call it comes
  from. Nothing the thread does depends on it but the cause that the model keeps of a closing.
* `sent` is every request to the compositor. `wl_surface` requests of a drawn buffer come in one
  group from `attach_and_commit`, those of `wl_shm` from `ShmDoubleBuffer`.
* `quit` is set nowhere; the text renderer and a broken connection are not modelled.
-/

namespace Nullxes

namespace NxNotif

open Wlcommon

abbrev Proxy := ℕ

/-- `Urgency`. -/
inductive Urgency
  | low
  | normal
  | critical
  deriving DecidableEq, Repr

/-- `Notif`. -/
structure Notif where
  id : UInt32
  appName : String
  appIcon : String
  summary : String
  body : String
  actions : List String
  urgency : Urgency
  /-- 0 or milliseconds. -/
  timeoutMs : UInt32
  /-- The call of `notify` it comes from, counted from 0. -/
  origin : Option ℕ
  deriving DecidableEq, Repr

/-- `Notif::close_for`. -/
def Notif.closeFor (id : UInt32) : Notif := ⟨id, "", "", "", "", [], .low, 1, none⟩

/-- The test of `wayland_thread` for what `close_for` makes. -/
def Notif.isClose (n : Notif) : Bool := n.summary.isEmpty && n.body.isEmpty && n.timeoutMs ≤ 1

/-- `MAX_VISIBLE`. -/
def maxVisible : ℕ := 5

/-- `TOAST_W`. -/
def toastW : UInt32 := 360

/-- `TOAST_H`. -/
def toastH : UInt32 := 88

/-- What `render::paint` was last given for a buffer. -/
structure Picture where
  stride : ℕ
  width : UInt32
  height : UInt32
  notif : Notif
  deriving DecidableEq, Repr

/-- What the thread asks of the compositor. -/
inductive Request
  | createSurface (surface : Proxy)
  /-- On any output, in the overlay layer, under `nullxes-notif`. -/
  | getLayerSurface (layer surface : Proxy)
  | setSize (layer : Proxy) (width height : UInt32)
  /-- To the top and the right. -/
  | setAnchor (layer : Proxy)
  | setMargin (layer : Proxy) (top right bottom left : Int32)
  /-- To none. -/
  | setKeyboardInteractivity (layer : Proxy)
  | commit (surface : Proxy)
  | ackConfigure (layer : Proxy) (serial : UInt32)
  | attachAndCommit (surface : Proxy) (buffer : DrawnBuffer (Option Picture))
  | shm (r : ShmRequest)
  /-- `zwlr_layer_surface_v1.destroy`, which no proxy requests when it is dropped. -/
  | destroyLayer (layer : Proxy)
  /-- `wl_surface.destroy`, likewise. -/
  | destroySurface (surface : Proxy)
  deriving DecidableEq, Repr

/-- `VisibleToast`. -/
structure VisibleToast where
  notif : Notif
  surface : Proxy
  layer : Proxy
  buffer : Option (ShmDoubleBuffer (Option Picture))
  configured : Bool
  width : UInt32
  height : UInt32
  expiresAt : ℕ
  deriving DecidableEq, Repr

/-- What closed a toast. -/
inductive Cause
  /-- `tick_timeouts`. -/
  | timeout
  /-- What `close_for` makes. -/
  | request
  /-- A notification that looks like it. -/
  | misread
  /-- `zwlr_layer_surface_v1.closed`. -/
  | compositor
  deriving DecidableEq, Repr

/-- Something sent over `tx_closed`. -/
structure Closing where
  notif : Notif
  cause : Cause
  deriving DecidableEq, Repr

/-- `WaylandThreadState`. -/
structure WaylandThreadState where
  shm : Shm
  visible : List VisibleToast
  queue : List Notif
  txClosed : List Closing
  /-- What the calls of `Instant::now` give. -/
  clock : ℕ → ℕ
  /-- How often `Instant::now` was called. -/
  reads : ℕ
  nextProxy : Proxy
  sent : List Request

/-- What the compositor tells the thread, of what any branch of `dispatch` looks at. -/
inductive ServerEvent
  /-- `zwlr_layer_surface_v1.configure`. -/
  | configure (layer : Proxy) (serial : UInt32)
  /-- `zwlr_layer_surface_v1.closed`. -/
  | closed (layer : Proxy)
  /-- `wl_buffer.release`. -/
  | release (wlBuf : ℕ)
  | other
  deriving DecidableEq, Repr

namespace WaylandThreadState

/-- The state `wayland_thread` starts with; the three globals it binds are 0, 1 and 2. -/
def new (failure : ℕ → Option String) (clock : ℕ → ℕ) : WaylandThreadState where
  shm := ⟨0, failure, []⟩
  visible := []
  queue := []
  txClosed := []
  clock := clock
  reads := 0
  nextProxy := 3
  sent := []

variable (s : WaylandThreadState)

/-- A request is made. -/
def request (r : Request) : WaylandThreadState := { s with sent := s.sent ++ [r] }

/-- `Instant::now`. -/
def now : ℕ × WaylandThreadState := (s.clock s.reads, { s with reads := s.reads + 1 })

/-- `tx_closed.send`. -/
def sendClosed (n : Notif) (cause : Cause) : WaylandThreadState :=
  { s with txClosed := s.txClosed ++ [⟨n, cause⟩] }

/-- `Duration::from_millis(timeout_ms.max(1))`. -/
def lifetime (n : Notif) : ℕ := (max n.timeoutMs 1).toNat * 1000000

/-- A round of `pump_visible` with what it takes from the queue. -/
def pumpOne (n : Notif) : WaylandThreadState :=
  let surface := s.nextProxy
  let layer := s.nextProxy + 1
  let top : Int32 := 16 + Int32.ofNat s.visible.length * (toastH.toInt32 + 12)
  let (now, s) := s.now
  { s with
    nextProxy := s.nextProxy + 2
    sent := s.sent ++
      [.createSurface surface, .getLayerSurface layer surface, .setSize layer toastW toastH,
        .setAnchor layer, .setMargin layer top 16 0 0, .setKeyboardInteractivity layer,
        .commit surface]
    visible := s.visible ++
      [⟨n, surface, layer, none, false, toastW, toastH, now + lifetime n⟩] }

/-- The loop of `pump_visible`, with what is left in the queue. -/
def pumpFrom (s : WaylandThreadState) : List Notif → WaylandThreadState
  | [] => { s with queue := [] }
  | n :: rest =>
    if s.visible.length < maxVisible then (s.pumpOne n).pumpFrom rest
    else { s with queue := n :: rest }

/-- `pump_visible`. -/
def pumpVisible : WaylandThreadState := s.pumpFrom s.queue

/-- `enqueue`. -/
def enqueue (n : Notif) : WaylandThreadState :=
  match s.visible.findIdx? fun v => v.notif.id = n.id with
  | some idx =>
    let (now, s) := s.now
    { s with
      visible := s.visible.modify idx fun v =>
        { v with notif := n, expiresAt := now + lifetime n, buffer := none } }
  | none => { s with queue := s.queue ++ [n] }.pumpVisible

/-- What the closure of `redraw` paints, whatever was there. -/
def paint (n : Notif) (_ : Option Picture) (stride : ℕ) (w h : UInt32) : Option Picture :=
  some ⟨stride, w, h, n⟩

/-- Store what `ShmDoubleBuffer` left of the `wl_shm` global; what it requested was requested. -/
def setShm (shm : Shm) : WaylandThreadState :=
  { s with shm := { shm with sent := [] }, sent := s.sent ++ shm.sent.map .shm }

/-- The pool of a toast, made when there is none yet. -/
def pool (t : VisibleToast) : Option (ShmDoubleBuffer (Option Picture)) × Shm :=
  match t.buffer with
  | some pool => (some pool, s.shm)
  | none =>
    match ShmDoubleBuffer.new s.shm t.width t.height with
    | (.ok b, shm) => (some b, shm)
    | (.error _, shm) => (none, shm)

/-- `redraw`. -/
def redraw (idx : ℕ) : WaylandThreadState :=
  match s.visible[idx]? with
  | none => s
  | some t =>
    if !t.configured then s
    else
      let (buffer, shm) := s.pool t
      let s := { s.setShm shm with visible := s.visible.set idx { t with buffer := buffer } }
      match buffer with
      | none => s
      | some pool =>
        let (drawn, shm) := pool.draw s.shm (paint t.notif)
        let s := s.setShm shm
        match drawn with
        | .error _ => s
        | .ok (pool, drawn) =>
          { s with visible := s.visible.set idx { t with buffer := some pool } }.request
            (.attachAndCommit t.surface drawn)

/-- `tick_timeouts`. -/
def tickTimeouts : WaylandThreadState :=
  let (now, s) := s.now
  let closed := s.visible.filter fun t => t.expiresAt ≤ now
  let s := { s with visible := s.visible.filter fun t => !(t.expiresAt ≤ now) }
  closed.foldl (fun s t => s.sendClosed t.notif .timeout) s

/-- A toast is removed, and its id sent. -/
def close (idx : ℕ) (cause : Cause) : WaylandThreadState :=
  match s.visible[idx]? with
  | none => s
  | some t => { s with visible := s.visible.eraseIdx idx }.sendClosed t.notif cause

/-- `Dispatch<ZwlrLayerSurfaceV1>`, `configure`. -/
def dispatchConfigure (layer : Proxy) (serial : UInt32) : WaylandThreadState :=
  let s := s.request (.ackConfigure layer serial)
  match s.visible.findIdx? fun t => t.layer = layer with
  | none => s
  | some idx =>
    { s with visible := s.visible.modify idx fun t => { t with configured := true } }.redraw idx

/-- `Dispatch<ZwlrLayerSurfaceV1>`, `closed`. -/
def dispatchClosed (layer : Proxy) : WaylandThreadState :=
  match s.visible.findIdx? fun t => t.layer = layer with
  | none => s
  | some idx => s.close idx .compositor

/-- `Dispatch<WlBuffer>`. -/
def dispatchRelease (wlBuf : ℕ) : WaylandThreadState :=
  { s with
    visible := s.visible.map fun t =>
      { t with buffer := t.buffer.map fun b => b.markReleased wlBuf } }

/-- The `Dispatch` implementations. -/
def dispatch : ServerEvent → WaylandThreadState
  | .configure layer serial => s.dispatchConfigure layer serial
  | .closed layer => s.dispatchClosed layer
  | .release wlBuf => s.dispatchRelease wlBuf
  | .other => s

/-- What `wayland_thread` does with a message of its channel. -/
def receive (n : Notif) : WaylandThreadState :=
  if n.isClose then
    match s.visible.findIdx? fun t => t.notif.id = n.id with
    | none => s
    | some idx => s.close idx (if n.origin.isNone then .request else .misread)
  else s.enqueue n

/-- The loop over `try_recv`, with what it gives. -/
def drain (messages : List Notif) : WaylandThreadState := messages.foldl receive s

/-- A round of the loop of `wayland_thread`, with what it receives and what is dispatched. -/
def iterate (messages : List Notif) (events : List ServerEvent) : WaylandThreadState :=
  (events.foldl dispatch (s.drain messages)).tickTimeouts

end WaylandThreadState

end NxNotif

end Nullxes
