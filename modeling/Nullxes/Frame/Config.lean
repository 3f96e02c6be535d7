import Nullxes.Frame.State
import Nullxes.Library.Toml

/-!
# The configuration file, as FRAME reads it

`config.rs`. Every table has a default of its own, and what the file leaves out is filled from it. A
file that is not accepted is passed over for the next one.

`FrameConfig` in `State` has the tables that the modelled handlers read; `FrameConfigFile` adds the
others.
-/

namespace Nullxes

namespace Frame

open Toml

/-- `CompositorConfig`. A rate of zero follows the display. -/
structure CompositorConfig where
  xwayland : Bool := true
  targetFps : UInt32 := 0
  vrr : Bool := true
  lockOnSuspend : Bool := true

/-- `InputConfig`. -/
structure InputConfig where
  naturalScroll : Bool := true
  tapToClick : Bool := true
  pointerAccel : Float := 0.0
  repeatDelay : Int32 := 400
  repeatRate : Int32 := 30
  xkbLayout : String := ""
  xkbVariant : String := ""
  xkbOptions : String := ""

/-- `IdleConfig`. -/
structure IdleConfig where
  dimMs : UInt64 := 5 * 60 * 1000
  lockMs : UInt64 := 10 * 60 * 1000
  suspendMs : UInt64 := 30 * 60 * 1000

/-- `FrameConfig`, with all its tables. -/
structure FrameConfigFile extends FrameConfig where
  compositor : CompositorConfig := {}
  input : InputConfig := {}
  idle : IdleConfig := {}

def CompositorConfig.deserialize (v : Value) : Option CompositorConfig := do
  let default : CompositorConfig := {}
  let xwayland ← v.field 0 "xwayland" boolean default.xwayland
  let targetFps ← v.field 1 "target_fps" uint32 default.targetFps
  let vrr ← v.field 2 "vrr" boolean default.vrr
  let lockOnSuspend ← v.field 3 "lock_on_suspend" boolean default.lockOnSuspend
  return { xwayland, targetFps, vrr, lockOnSuspend }

def InputConfig.deserialize (v : Value) : Option InputConfig := do
  let default : InputConfig := {}
  let naturalScroll ← v.field 0 "natural_scroll" boolean default.naturalScroll
  let tapToClick ← v.field 1 "tap_to_click" boolean default.tapToClick
  let pointerAccel ← v.field 2 "pointer_accel" float64 default.pointerAccel
  let repeatDelay ← v.field 3 "repeat_delay" int32 default.repeatDelay
  let repeatRate ← v.field 4 "repeat_rate" int32 default.repeatRate
  let xkbLayout ← v.field 5 "xkb_layout" string default.xkbLayout
  let xkbVariant ← v.field 6 "xkb_variant" string default.xkbVariant
  let xkbOptions ← v.field 7 "xkb_options" string default.xkbOptions
  return { naturalScroll, tapToClick, pointerAccel, repeatDelay, repeatRate,
           xkbLayout, xkbVariant, xkbOptions }

def WorkspaceConfig.deserialize (v : Value) : Option WorkspaceConfig := do
  let default : WorkspaceConfig := {}
  let count ← v.field 0 "count" uint8 default.count
  let wrap ← v.field 1 "wrap" boolean default.wrap
  return { count, wrap }

def IdleConfig.deserialize (v : Value) : Option IdleConfig := do
  let default : IdleConfig := {}
  let dimMs ← v.field 0 "dim_ms" uint64 default.dimMs
  let lockMs ← v.field 1 "lock_ms" uint64 default.lockMs
  let suspendMs ← v.field 2 "suspend_ms" uint64 default.suspendMs
  return { dimMs, lockMs, suspendMs }

def KeybindingConfig.deserialize (v : Value) : Option KeybindingConfig := do
  let default : KeybindingConfig := {}
  let launcherBinary ← v.field 0 "launcher_binary" string default.launcherBinary
  let lockBinary ← v.field 1 "lock_binary" string default.lockBinary
  return { launcherBinary, lockBinary }

def FrameConfigFile.deserialize (v : Value) : Option FrameConfigFile := do
  let default : FrameConfigFile := {}
  let compositor ← v.field 0 "compositor" CompositorConfig.deserialize default.compositor
  let input ← v.field 1 "input" InputConfig.deserialize default.input
  let workspace ← v.field 2 "workspace" WorkspaceConfig.deserialize default.workspace
  let idle ← v.field 3 "idle" IdleConfig.deserialize default.idle
  let keybindings ← v.field 4 "keybindings" KeybindingConfig.deserialize default.keybindings
  return { compositor, input, workspace, idle, keybindings }

/-- `toml::from_str::<FrameConfig>`. -/
def FrameConfigFile.fromStr (toml : Format) (text : String) : Option FrameConfigFile :=
  (toml.parse text).bind deserialize

/-- `FrameConfig::load`, from the texts of the files that can be read: the one the environment
names, the user's and the system's. -/
def FrameConfigFile.load (toml : Format) (override user system : Option String) :
    FrameConfigFile :=
  ((override.toList ++ user.toList ++ system.toList).findSome? (fromStr toml)).getD {}

/-- Without an override, the user's file decides if it is accepted. -/
theorem FrameConfigFile.load_of_accepted {toml : Format} {text : String} {cfg : FrameConfigFile}
    (h : fromStr toml text = some cfg) (system : Option String) :
    load toml none (some text) system = cfg := by
  simp [load, h]

end Frame

end Nullxes
