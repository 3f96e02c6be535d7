import Nullxes.Frame.Config

/-!
# The configuration file, as the settings read and write it

`nx-settings/src/conf.rs` declares the tables of `frame.toml` a second time, with the derived
defaults: zero, `false` and the empty string.
-/

namespace Nullxes

namespace NxSettings

open Toml

/-- `Compositor`. -/
structure Compositor where
  xwayland : Bool := false
  targetFps : UInt32 := 0
  vrr : Bool := false
  lockOnSuspend : Bool := false

/-- `Input`. -/
structure Input where
  naturalScroll : Bool := false
  tapToClick : Bool := false
  pointerAccel : Float := 0.0
  repeatDelay : Int32 := 0
  repeatRate : Int32 := 0
  xkbLayout : String := ""
  xkbVariant : String := ""
  xkbOptions : String := ""

/-- `Workspace`. -/
structure Workspace where
  count : UInt8 := 0
  wrap : Bool := false

/-- `Idle`. -/
structure Idle where
  dimMs : UInt64 := 0
  lockMs : UInt64 := 0
  suspendMs : UInt64 := 0

/-- `Keybindings`. -/
structure Keybindings where
  launcherBinary : String := ""
  lockBinary : String := ""

/-- `FrameConfFile`. -/
structure FrameConfFile where
  compositor : Compositor := {}
  input : Input := {}
  workspace : Workspace := {}
  idle : Idle := {}
  keybindings : Keybindings := {}

/-! ## Reading -/

def Compositor.deserialize (v : Value) : Option Compositor := do
  let default : Compositor := {}
  let xwayland ← v.field 0 "xwayland" boolean default.xwayland
  let targetFps ← v.field 1 "target_fps" uint32 default.targetFps
  let vrr ← v.field 2 "vrr" boolean default.vrr
  let lockOnSuspend ← v.field 3 "lock_on_suspend" boolean default.lockOnSuspend
  return { xwayland, targetFps, vrr, lockOnSuspend }

def Input.deserialize (v : Value) : Option Input := do
  let default : Input := {}
  let naturalScroll ← v.field 0 "natural_scroll" boolean default.naturalScroll
  let tapToClick ← v.field 1 "tap_to_click" boolean default.tapToClick
  let pointerAccel ← v.field 2 "pointer_accel" float64 default.pointerAccel
  let repeatDelay ← v.field 3 "repeat_delay" int32 default.repeatDelay
  let repeatRate ← v.field 4 "repeat_rate" int32 default.repeatRate
  let xkbLayout ← v.field 5 "xkb_layout" string default.xkbLayout
  let xkbVariant ← v.field 6 "xkb_variant" string default.xkbVariant
  let xkbOptions ← v.field 7 "xkb_options" string default.xkbOptions
  return { naturalScroll, tapToClick, pointerAccel, repeatDelay, repeatRate,
           xkbLayout, xkbVariant, xkbOptions }

def Workspace.deserialize (v : Value) : Option Workspace := do
  let default : Workspace := {}
  let count ← v.field 0 "count" uint8 default.count
  let wrap ← v.field 1 "wrap" boolean default.wrap
  return { count, wrap }

def Idle.deserialize (v : Value) : Option Idle := do
  let default : Idle := {}
  let dimMs ← v.field 0 "dim_ms" uint64 default.dimMs
  let lockMs ← v.field 1 "lock_ms" uint64 default.lockMs
  let suspendMs ← v.field 2 "suspend_ms" uint64 default.suspendMs
  return { dimMs, lockMs, suspendMs }

def Keybindings.deserialize (v : Value) : Option Keybindings := do
  let default : Keybindings := {}
  let launcherBinary ← v.field 0 "launcher_binary" string default.launcherBinary
  let lockBinary ← v.field 1 "lock_binary" string default.lockBinary
  return { launcherBinary, lockBinary }

def FrameConfFile.deserialize (v : Value) : Option FrameConfFile := do
  let default : FrameConfFile := {}
  let compositor ← v.field 0 "compositor" Compositor.deserialize default.compositor
  let input ← v.field 1 "input" Input.deserialize default.input
  let workspace ← v.field 2 "workspace" Workspace.deserialize default.workspace
  let idle ← v.field 3 "idle" Idle.deserialize default.idle
  let keybindings ← v.field 4 "keybindings" Keybindings.deserialize default.keybindings
  return { compositor, input, workspace, idle, keybindings }

/-- `toml::from_str::<FrameConfFile>`. -/
def FrameConfFile.fromStr (toml : Format) (text : String) : Option FrameConfFile :=
  (toml.parse text).bind deserialize

/-- `load_frame`, from the text of the user's file if it can be read. -/
def loadFrame (toml : Format) : Option String → FrameConfFile
  | some text => (FrameConfFile.fromStr toml text).getD {}
  | none => {}

/-! ## Writing -/

def Compositor.serialize (c : Compositor) : Value :=
  .table [("xwayland", .boolean c.xwayland), ("target_fps", .integer c.targetFps.toNat),
    ("vrr", .boolean c.vrr), ("lock_on_suspend", .boolean c.lockOnSuspend)]

def Input.serialize (c : Input) : Value :=
  .table [("natural_scroll", .boolean c.naturalScroll), ("tap_to_click", .boolean c.tapToClick),
    ("pointer_accel", .float c.pointerAccel), ("repeat_delay", .integer c.repeatDelay.toInt),
    ("repeat_rate", .integer c.repeatRate.toInt), ("xkb_layout", .string c.xkbLayout),
    ("xkb_variant", .string c.xkbVariant), ("xkb_options", .string c.xkbOptions)]

def Workspace.serialize (c : Workspace) : Value :=
  .table [("count", .integer c.count.toNat), ("wrap", .boolean c.wrap)]

def Idle.serialize (c : Idle) : Value :=
  .table [("dim_ms", .integer c.dimMs.toNat), ("lock_ms", .integer c.lockMs.toNat),
    ("suspend_ms", .integer c.suspendMs.toNat)]

def Keybindings.serialize (c : Keybindings) : Value :=
  .table [("launcher_binary", .string c.launcherBinary), ("lock_binary", .string c.lockBinary)]

def FrameConfFile.serialize (c : FrameConfFile) : Value :=
  .table [("compositor", c.compositor.serialize), ("input", c.input.serialize),
    ("workspace", c.workspace.serialize), ("idle", c.idle.serialize),
    ("keybindings", c.keybindings.serialize)]

/-- `save_frame`: the text that is written, unless the configuration has none. -/
def saveFrame (toml : Format) (cfg : FrameConfFile) : Option String := toml.pretty cfg.serialize

/-! ## On the screen -/

/-- The values of the configuration that `UiState::body_lines` puts on its lines. -/
structure Shown where
  xkbLayout : String
  xkbVariant : String
  repeatDelay : Int32
  repeatRate : Int32
  naturalScroll : Bool
  tapToClick : Bool
  dimMs : UInt64
  lockMs : UInt64
  suspendMs : UInt64

/-- `UiState::body_lines`: the lines of the input and of the idle section. -/
def bodyLines (cfg : FrameConfFile) : Shown where
  xkbLayout := cfg.input.xkbLayout
  xkbVariant := cfg.input.xkbVariant
  repeatDelay := cfg.input.repeatDelay
  repeatRate := cfg.input.repeatRate
  naturalScroll := cfg.input.naturalScroll
  tapToClick := cfg.input.tapToClick
  dimMs := cfg.idle.dimMs
  lockMs := cfg.idle.lockMs
  suspendMs := cfg.idle.suspendMs

/-- The same values, as FRAME has them. -/
def inUse (cfg : Frame.FrameConfigFile) : Shown where
  xkbLayout := cfg.input.xkbLayout
  xkbVariant := cfg.input.xkbVariant
  repeatDelay := cfg.input.repeatDelay
  repeatRate := cfg.input.repeatRate
  naturalScroll := cfg.input.naturalScroll
  tapToClick := cfg.input.tapToClick
  dimMs := cfg.idle.dimMs
  lockMs := cfg.idle.lockMs
  suspendMs := cfg.idle.suspendMs

end NxSettings

end Nullxes
