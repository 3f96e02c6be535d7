import Nullxes.Wlcommon.Keymap
import Nullxes.Wlcommon.Shm

/-!
# The greeter

`nx-greet/src/state.rs` and `ipc.rs`. `GreetState` is what the greeter keeps; `handleAction` and
`handleText` are what keys do, `submit` the conversation with greetd, `dispatch` the `Dispatch`
implementations, one branch for each interface that does anything.

## Representation

* The connection to greetd is synchronous: a request is written and its answer read before anything
  else happens. `Link.connects` and `Link.answers` say how every attempt to connect and every
  exchange goes; a request whose answer cannot be read was sent, one that cannot be written was not.
* `exchanged` is every request that was sent, with its answer and the user name that was in the
  field then.
* `sent` is every request to the compositor. `wl_surface` requests come in one group from
  `attach_and_commit`, those of `wl_shm` from `ShmDoubleBuffer`.
* The text renderer and the background image are not modelled.
-/

namespace Nullxes

namespace NxGreet

open Wlcommon

/-- `FocusedField`. -/
inductive FocusedField
  | username
  | password
  deriving DecidableEq, Repr

/-! ## greetd -/

/-- `greetd_ipc::AuthMessageType`. -/
inductive AuthMessageType
  | visible
  | secret
  | info
  | error
  deriving DecidableEq, Repr

/-- `greetd_ipc::ErrorType`. -/
inductive ErrorType
  | authError
  | error
  deriving DecidableEq, Repr

/-- `greetd_ipc::Request`. -/
inductive Request
  | createSession (username : String)
  | postAuthMessageResponse (response : Option String)
  | startSession (cmd env : List String)
  | cancelSession
  deriving DecidableEq, Repr

/-- `greetd_ipc::Response`. -/
inductive Response
  | success
  | error (errorType : ErrorType) (description : String)
  | authMessage (authMessageType : AuthMessageType) (authMessage : String)
  deriving DecidableEq, Repr

/-- How an exchange goes. -/
inductive Answer
  | response (r : Response)
  /-- `write_to` fails. -/
  | unwritten (e : String)
  /-- `read_from` fails. -/
  | unread (e : String)
  deriving DecidableEq, Repr

/-- `FlowOutcome`; `Cancelled` is made nowhere. -/
inductive FlowOutcome
  | prompt (text : String) (ty : AuthMessageType)
  | success
  | failure (reason : String)
  deriving DecidableEq, Repr

/-- `classify`. -/
def classify : Response → FlowOutcome
  | .success => .success
  | .authMessage ty message => .prompt message ty
  | .error ty description =>
    let kind := match ty with
      | .authError => "auth"
      | .error => "error"
    .failure (kind ++ ": " ++ description)

/-- `SESSION_CMD`. -/
def sessionCmd : List String := ["/usr/bin/frame"]

/-- The other end: how every attempt to connect goes, and every exchange. -/
structure Link where
  connects : ℕ → Except String Unit
  answers : ℕ → Answer

/-- A request that was sent, its answer, and the user name on screen. -/
structure Exchange where
  request : Request
  answer : Answer
  shown : String
  deriving DecidableEq, Repr

/-! ## The state -/

/-- What `render::paint` was last given for a buffer. -/
structure Picture where
  stride : ℕ
  width : UInt32
  height : UInt32
  username : String
  passwordLen : ℕ
  prompt : Option String
  error : Option String
  focus : FocusedField
  pending : Bool
  deriving DecidableEq, Repr

/-- What the greeter asks of the compositor, once its surface is there. -/
inductive WlRequest
  /-- `init_surface`. -/
  | surface
  | ackConfigure (serial : UInt32)
  | pong (serial : UInt32)
  | getKeyboard
  | attachAndCommit (buffer : DrawnBuffer (Option Picture))
  | shm (r : ShmRequest)
  deriving DecidableEq, Repr

/-- `GreetState`. -/
structure GreetState where
  shm : Shm
  /-- `surface.is_some()`. -/
  surface : Bool
  /-- `keyboard.is_some()`. -/
  keyboard : Bool
  keymap : KeyboardState
  buffer : Option (ShmDoubleBuffer (Option Picture))
  width : UInt32
  height : UInt32
  configured : Bool
  shouldClose : Bool
  /-- `greetd.is_some()`. -/
  greetd : Bool
  username : String
  password : String
  prompt : Option String
  error : Option String
  focus : FocusedField
  pending : Bool
  awaitingResponse : Bool
  link : Link
  /-- How often `Greetd::connect` was called. -/
  attempts : ℕ
  /-- How many requests to greetd were made. -/
  asked : ℕ
  exchanged : List Exchange
  sent : List WlRequest

/-- What the compositor tells the greeter, of what any branch of `dispatch` looks at. -/
inductive ServerEvent
  /-- `xdg_wm_base.ping`. -/
  | ping (serial : UInt32)
  /-- `xdg_surface.configure`. -/
  | configure (serial : UInt32)
  /-- `xdg_toplevel.configure`. -/
  | toplevelConfigure (width height : Int32)
  /-- `xdg_toplevel.close`. -/
  | close
  /-- `wl_seat.capabilities`. -/
  | capabilities (keyboard : Bool)
  /-- `wl_keyboard.keymap`, with what its descriptor gives. -/
  | keymap (xkbV1 : Bool) (loaded : Option Keymap)
  | modifiers (mods : ModifierMasks)
  | key (key : UInt32) (pressed : Bool)
  /-- `wl_buffer.release`. -/
  | release (wlBuf : ℕ)
  | other

/-- `char::is_whitespace`: the Unicode property `White_Space`. -/
def isWhitespace (c : Char) : Bool :=
  (0x09 ≤ c.val && c.val ≤ 0x0d) || c.val = 0x20 || c.val = 0x85 || c.val = 0xa0 ||
    c.val = 0x1680 || (0x2000 ≤ c.val && c.val ≤ 0x200a) || c.val = 0x2028 || c.val = 0x2029 ||
    c.val = 0x202f || c.val = 0x205f || c.val = 0x3000

namespace GreetState

/-- `GreetState::new`. -/
def new (failure : ℕ → Option String) (link : Link) : GreetState where
  shm := ⟨0, failure, []⟩
  surface := false
  keyboard := false
  keymap := .new
  buffer := none
  width := 1920
  height := 1080
  configured := false
  shouldClose := false
  greetd := false
  username := ""
  password := ""
  prompt := none
  error := none
  focus := .username
  pending := false
  awaitingResponse := false
  link := link
  attempts := 0
  asked := 0
  exchanged := []
  sent := []

variable (s : GreetState)

/-- A request is made. -/
def request (r : WlRequest) : GreetState := { s with sent := s.sent ++ [r] }

/-- `init_surface`. -/
def initSurface : GreetState := { s.request .surface with surface := true }

/-- What the closure of `redraw` paints, whatever was there. -/
def paint (_ : Option Picture) (stride : ℕ) (w h : UInt32) : Option Picture :=
  some ⟨stride, w, h, s.username, s.password.utf8ByteSize, s.prompt, s.error, s.focus, s.pending⟩

/-- Store what `ShmDoubleBuffer` left of the `wl_shm` global; what it requested was requested. -/
def setShm (shm : Shm) : GreetState :=
  { s with shm := { shm with sent := [] }, sent := s.sent ++ shm.sent.map .shm }

/-- The pool, made when there is none yet. -/
def pool : Option (ShmDoubleBuffer (Option Picture)) × Shm :=
  match s.buffer with
  | some pool => (some pool, s.shm)
  | none =>
    match ShmDoubleBuffer.new s.shm s.width s.height with
    | (.ok b, shm) => (some b, shm)
    | (.error _, shm) => (none, shm)

/-- `redraw`. -/
def redraw : GreetState :=
  if !s.configured then s
  else
    let (buffer, shm) := s.pool
    let s := { s.setShm shm with buffer := buffer }
    match buffer with
    | none => s
    | some pool =>
      let (drawn, shm) := pool.draw s.shm s.paint
      let s := s.setShm shm
      match drawn with
      | .error _ => s
      | .ok (pool, drawn) =>
        let s := { s with buffer := some pool }
        if s.surface then s.request (.attachAndCommit drawn) else s

/-- A request to greetd, and how it goes. -/
def talk (r : Request) : GreetState × Answer :=
  let answer := s.link.answers s.asked
  let s := { s with asked := s.asked + 1 }
  match answer with
  | .unwritten _ => (s, answer)
  | _ => ({ s with exchanged := s.exchanged ++ [⟨r, answer, s.username⟩] }, answer)

/-- `Greetd::start_session`. -/
def startSession : GreetState := (s.talk (.startSession sessionCmd [])).1

/-- `Greetd::cancel`. -/
def cancel : GreetState := (s.talk .cancelSession).1

/-- The request of `submit`: what is created or posted. -/
def submitRequest : GreetState × Answer :=
  if !s.awaitingResponse then s.talk (.createSession s.username)
  else
    let pw := s.password
    let s := { s with password := "" }
    s.talk (.postAuthMessageResponse (if pw.isEmpty then none else some pw))

/-- What `submit` does with the answer. -/
def submitAnswer (answer : Answer) : GreetState :=
  match answer with
  | .response r =>
    match classify r with
    | .prompt text _ =>
      { s with
        prompt := some text, awaitingResponse := true, focus := .password, error := none,
        pending := false }
    | .success => { (if s.greetd then s.startSession else s) with shouldClose := true }
    | .failure reason =>
      let s := { s with
        error := some reason, password := "", awaitingResponse := false, focus := .password }
      { (if s.greetd then s.cancel else s) with pending := false }
  | .unwritten e | .unread e =>
    { s with error := some ("greetd protocol error: " ++ e), pending := false }

/-- `submit` from its request on, with the connection there. -/
def submitOver : GreetState :=
  let (s, answer) := { s with pending := true }.submitRequest
  (s.submitAnswer answer).redraw

/-- `submit`. -/
def submit : GreetState :=
  if s.pending then s
  else if s.username.toList.all isWhitespace && s.focus = .username then
    { s with error := some "username required" }.redraw
  else if !s.greetd then
    let connect := s.link.connects s.attempts
    let s := { s with attempts := s.attempts + 1 }
    match connect with
    | .ok () => { s with greetd := true }.submitOver
    | .error e => { s with error := some ("greetd unreachable: " ++ e) }.redraw
  else s.submitOver

/-- `handle_action`. -/
def handleAction (action : Action) : GreetState :=
  match action with
  | .tab =>
    { s with
      focus := match s.focus with
        | .username => .password
        | .password => .username }.redraw
  | .backspace =>
    match s.focus with
    | .username => { s with username := String.ofList s.username.toList.dropLast }.redraw
    | .password => { s with password := String.ofList s.password.toList.dropLast }.redraw
  | .enter =>
    if s.focus = .username && !s.awaitingResponse then { s with focus := .password }.redraw
    else s.submit
  | .escape =>
    let s := { s with username := "", password := "", awaitingResponse := false, error := none }
    (if s.greetd then s.cancel else s).redraw
  | _ => s.redraw

/-- `handle_text`. -/
def handleText (text : String) : GreetState :=
  if s.pending then s
  else
    match s.focus with
    | .username => { s with username := s.username ++ text }.redraw
    | .password => { s with password := s.password ++ text }.redraw

/-- `Dispatch<XdgSurface>`. -/
def dispatchConfigure (serial : UInt32) : GreetState :=
  { s.request (.ackConfigure serial) with configured := true }.redraw

/-- `Dispatch<XdgToplevel>`, `configure`. -/
def dispatchToplevel (width height : Int32) : GreetState :=
  let s := if 0 < width then { s with width := width.toUInt32 } else s
  if 0 < height then { s with height := height.toUInt32 } else s

/-- `Dispatch<WlSeat>`. -/
def dispatchCapabilities (keyboard : Bool) : GreetState :=
  if keyboard && !s.keyboard then { s.request .getKeyboard with keyboard := true } else s

/-- `Dispatch<WlKeyboard>`, `key`. -/
def dispatchKey (key : UInt32) (pressed : Bool) : GreetState :=
  if pressed then
    match s.keymap.processKey key with
    | .action a => s.handleAction a
    | .text t => s.handleText t
    | .none => s
  else s

/-- The `Dispatch` implementations. -/
def dispatch : ServerEvent → GreetState
  | .ping serial => s.request (.pong serial)
  | .configure serial => s.dispatchConfigure serial
  | .toplevelConfigure width height => s.dispatchToplevel width height
  | .close => { s with shouldClose := true }
  | .capabilities keyboard => s.dispatchCapabilities keyboard
  | .keymap xkbV1 loaded =>
    if xkbV1 then { s with keymap := s.keymap.applyKeymap loaded } else s
  | .modifiers mods => { s with keymap := s.keymap.updateModifiers mods }
  | .key key pressed => s.dispatchKey key pressed
  | .release wlBuf => { s with buffer := s.buffer.map fun b => b.markReleased wlBuf }
  | .other => s

end GreetState

end NxGreet

end Nullxes
