import Nullxes.NxSettings.Conf

/-!
# One file, two readers

The settings and FRAME declare the tables of `frame.toml` separately. The fields are the same and
stand in the same order, so one accepts a file exactly if the other does; but the settings derive
their defaults and FRAME writes its own. A key that is left out means one thing to FRAME and another
to the settings, which show their value and, on saving, spell it out.

Six defaults happen to be the same. The other thirteen are listed here, and the file means the same
to both exactly if it has them all.

## Main definitions

* `Toml.Value.HasIn`, `NxSettings.Spelled` — no key is left out whose defaults differ
* `NxSettings.FrameConfFile.toConfig` — what FRAME reads from what the settings write

## Main results

* `NxSettings.FrameConfFile.exists_deserialize` — the settings accept what FRAME accepts
* `NxSettings.loadFrame_toConfig_iff` — when they load the same
* `NxSettings.same_file_iff` — when saving leaves the configuration as it was
-/

namespace Nullxes

namespace NxSettings

open Toml Nullxes.Frame

/-! ## What FRAME reads from what the settings write -/

def Compositor.toConfig (c : Compositor) : CompositorConfig := { c with }

def Input.toConfig (c : Input) : InputConfig := { c with }

def Workspace.toConfig (c : Workspace) : WorkspaceConfig := { c with }

def Idle.toConfig (c : Idle) : IdleConfig := { c with }

def Keybindings.toConfig (c : Keybindings) : KeybindingConfig := { c with }

def FrameConfFile.toConfig (c : FrameConfFile) : FrameConfigFile where
  compositor := c.compositor.toConfig
  input := c.input.toConfig
  workspace := c.workspace.toConfig
  idle := c.idle.toConfig
  keybindings := c.keybindings.toConfig

@[simp] theorem Compositor.config_serialize (c : Compositor) :
    CompositorConfig.deserialize c.serialize = some c.toConfig := by
  simp [CompositorConfig.deserialize, serialize, Value.field, List.lookup_cons, toConfig]

@[simp] theorem Input.config_serialize (c : Input) :
    InputConfig.deserialize c.serialize = some c.toConfig := by
  simp [InputConfig.deserialize, serialize, Value.field, List.lookup_cons, toConfig]

@[simp] theorem Workspace.config_serialize (c : Workspace) :
    WorkspaceConfig.deserialize c.serialize = some c.toConfig := by
  simp [WorkspaceConfig.deserialize, serialize, Value.field, List.lookup_cons, toConfig]

@[simp] theorem Idle.config_serialize (c : Idle) :
    IdleConfig.deserialize c.serialize = some c.toConfig := by
  simp [IdleConfig.deserialize, serialize, Value.field, List.lookup_cons, toConfig]

@[simp] theorem Keybindings.config_serialize (c : Keybindings) :
    KeybindingConfig.deserialize c.serialize = some c.toConfig := by
  simp [KeybindingConfig.deserialize, serialize, Value.field, List.lookup_cons, toConfig]

@[simp] theorem FrameConfFile.config_serialize (c : FrameConfFile) :
    FrameConfigFile.deserialize c.serialize = some c.toConfig := by
  simp [FrameConfigFile.deserialize, serialize, Value.field, List.lookup_cons, toConfig]

/-! The settings read it as it was. -/

@[simp] theorem Compositor.deserialize_serialize (c : Compositor) :
    deserialize c.serialize = some c := by
  simp [deserialize, serialize, Value.field, List.lookup_cons]

@[simp] theorem Input.deserialize_serialize (c : Input) :
    deserialize c.serialize = some c := by
  simp [deserialize, serialize, Value.field, List.lookup_cons]

@[simp] theorem Workspace.deserialize_serialize (c : Workspace) :
    deserialize c.serialize = some c := by
  simp [deserialize, serialize, Value.field, List.lookup_cons]

@[simp] theorem Idle.deserialize_serialize (c : Idle) :
    deserialize c.serialize = some c := by
  simp [deserialize, serialize, Value.field, List.lookup_cons]

@[simp] theorem Keybindings.deserialize_serialize (c : Keybindings) :
    deserialize c.serialize = some c := by
  simp [deserialize, serialize, Value.field, List.lookup_cons]

@[simp] theorem FrameConfFile.deserialize_serialize (c : FrameConfFile) :
    deserialize c.serialize = some c := by
  simp [deserialize, serialize, Value.field, List.lookup_cons]

theorem bodyLines_eq_inUse (conf : FrameConfFile) : bodyLines conf = inUse conf.toConfig := rfl

/-! ## The keys whose defaults differ -/

def Compositor.differing : List (ℕ × String) :=
  [(0, "xwayland"), (2, "vrr"), (3, "lock_on_suspend")]

def Input.differing : List (ℕ × String) :=
  [(0, "natural_scroll"), (1, "tap_to_click"), (3, "repeat_delay"), (4, "repeat_rate")]

def Workspace.differing : List (ℕ × String) := [(0, "count")]

def Idle.differing : List (ℕ × String) := [(0, "dim_ms"), (1, "lock_ms"), (2, "suspend_ms")]

def Keybindings.differing : List (ℕ × String) := [(0, "launcher_binary"), (1, "lock_binary")]

/-- None of them is left out. -/
structure Spelled (doc : Value) : Prop where
  compositor : doc.HasIn 0 "compositor" Compositor.differing
  input : doc.HasIn 1 "input" Input.differing
  workspace : doc.HasIn 2 "workspace" Workspace.differing
  idle : doc.HasIn 3 "idle" Idle.differing
  keybindings : doc.HasIn 4 "keybindings" Keybindings.differing

/-- What the settings write leaves nothing out. -/
theorem spelled_serialize (c : FrameConfFile) : Spelled c.serialize where
  compositor := ⟨c.compositor.serialize, rfl, by
    simp [Value.Has, Compositor.differing, Compositor.serialize, List.lookup_cons]⟩
  input := ⟨c.input.serialize, rfl, by
    simp [Value.Has, Input.differing, Input.serialize, List.lookup_cons]⟩
  workspace := ⟨c.workspace.serialize, rfl, by
    simp [Value.Has, Workspace.differing, Workspace.serialize, List.lookup_cons]⟩
  idle := ⟨c.idle.serialize, rfl, by
    simp [Value.Has, Idle.differing, Idle.serialize, List.lookup_cons]⟩
  keybindings := ⟨c.keybindings.serialize, rfl, by
    simp [Value.Has, Keybindings.differing, Keybindings.serialize, List.lookup_cons]⟩

/-! ## Reading one table twice

What FRAME accepts the settings accept; it stands for the same exactly if the keys are there. -/

theorem Compositor.exists_deserialize (v : Value) (k : CompositorConfig)
    (h : CompositorConfig.deserialize v = some k) :
    ∃ c, deserialize v = some c ∧ (c.toConfig = k ↔ v.Has differing) := by
  simp only [CompositorConfig.deserialize, Option.bind_eq_bind, Option.bind_eq_some_iff,
    Option.pure_def, Option.some.injEq] at h
  obtain ⟨a, ha, b, hb, c, hc, d, hd, rfl⟩ := h
  obtain ⟨a', ha', haa⟩ := Value.exists_field false ha
  obtain ⟨b', hb', hbb⟩ := Value.exists_field 0 hb
  obtain ⟨c', hc', hcc⟩ := Value.exists_field false hc
  obtain ⟨d', hd', hdd⟩ := Value.exists_field false hd
  refine ⟨⟨a', b', c', d'⟩, by simp [deserialize, ha', hb', hc', hd'], ?_⟩
  simp [toConfig, Value.Has, differing, haa, hbb, hcc, hdd]

theorem Input.exists_deserialize (v : Value) (k : InputConfig)
    (h : InputConfig.deserialize v = some k) :
    ∃ c, deserialize v = some c ∧ (c.toConfig = k ↔ v.Has differing) := by
  simp only [InputConfig.deserialize, Option.bind_eq_bind, Option.bind_eq_some_iff,
    Option.pure_def, Option.some.injEq] at h
  obtain ⟨a, ha, b, hb, c, hc, d, hd, e, he, f, hf, g, hg, h, hh, rfl⟩ := h
  obtain ⟨a', ha', haa⟩ := Value.exists_field false ha
  obtain ⟨b', hb', hbb⟩ := Value.exists_field false hb
  obtain ⟨c', hc', hcc⟩ := Value.exists_field 0.0 hc
  obtain ⟨d', hd', hdd⟩ := Value.exists_field 0 hd
  obtain ⟨e', he', hee⟩ := Value.exists_field 0 he
  obtain ⟨f', hf', hff⟩ := Value.exists_field "" hf
  obtain ⟨g', hg', hgg⟩ := Value.exists_field "" hg
  obtain ⟨h', hh', hhh⟩ := Value.exists_field "" hh
  refine ⟨⟨a', b', c', d', e', f', g', h'⟩,
    by simp [deserialize, ha', hb', hc', hd', he', hf', hg', hh'], ?_⟩
  simp [toConfig, Value.Has, differing, haa, hbb, hcc, hdd, hee, hff, hgg, hhh]

theorem Workspace.exists_deserialize (v : Value) (k : WorkspaceConfig)
    (h : WorkspaceConfig.deserialize v = some k) :
    ∃ c, deserialize v = some c ∧ (c.toConfig = k ↔ v.Has differing) := by
  simp only [WorkspaceConfig.deserialize, Option.bind_eq_bind, Option.bind_eq_some_iff,
    Option.pure_def, Option.some.injEq] at h
  obtain ⟨a, ha, b, hb, rfl⟩ := h
  obtain ⟨a', ha', haa⟩ := Value.exists_field 0 ha
  obtain ⟨b', hb', hbb⟩ := Value.exists_field false hb
  refine ⟨⟨a', b'⟩, by simp [deserialize, ha', hb'], ?_⟩
  simp [toConfig, Value.Has, differing, haa, hbb]

theorem Idle.exists_deserialize (v : Value) (k : IdleConfig)
    (h : IdleConfig.deserialize v = some k) :
    ∃ c, deserialize v = some c ∧ (c.toConfig = k ↔ v.Has differing) := by
  simp only [IdleConfig.deserialize, Option.bind_eq_bind, Option.bind_eq_some_iff,
    Option.pure_def, Option.some.injEq] at h
  obtain ⟨a, ha, b, hb, c, hc, rfl⟩ := h
  obtain ⟨a', ha', haa⟩ := Value.exists_field 0 ha
  obtain ⟨b', hb', hbb⟩ := Value.exists_field 0 hb
  obtain ⟨c', hc', hcc⟩ := Value.exists_field 0 hc
  refine ⟨⟨a', b', c'⟩, by simp [deserialize, ha', hb', hc'], ?_⟩
  simp [toConfig, Value.Has, differing, haa, hbb, hcc]

theorem Keybindings.exists_deserialize (v : Value) (k : KeybindingConfig)
    (h : KeybindingConfig.deserialize v = some k) :
    ∃ c, deserialize v = some c ∧ (c.toConfig = k ↔ v.Has differing) := by
  simp only [KeybindingConfig.deserialize, Option.bind_eq_bind, Option.bind_eq_some_iff,
    Option.pure_def, Option.some.injEq] at h
  obtain ⟨a, ha, b, hb, rfl⟩ := h
  obtain ⟨a', ha', haa⟩ := Value.exists_field "" ha
  obtain ⟨b', hb', hbb⟩ := Value.exists_field "" hb
  refine ⟨⟨a', b'⟩, by simp [deserialize, ha', hb'], ?_⟩
  simp [toConfig, Value.Has, differing, haa, hbb]

/-- **The settings accept what FRAME accepts**, and what FRAME would read from their copy is the
same exactly if the file spells out what they would fill in. -/
theorem FrameConfFile.exists_deserialize (v : Value) (k : FrameConfigFile)
    (h : FrameConfigFile.deserialize v = some k) :
    ∃ c, deserialize v = some c ∧ (c.toConfig = k ↔ Spelled v) := by
  simp only [FrameConfigFile.deserialize, Option.bind_eq_bind, Option.bind_eq_some_iff,
    Option.pure_def, Option.some.injEq] at h
  obtain ⟨a, ha, b, hb, c, hc, d, hd, e, he, rfl⟩ := h
  obtain ⟨a', ha', haa⟩ :=
    Value.exists_table {} (by simp [Compositor.toConfig]) Compositor.exists_deserialize ha
  obtain ⟨b', hb', hbb⟩ :=
    Value.exists_table {} (by simp [Input.toConfig]) Input.exists_deserialize hb
  obtain ⟨c', hc', hcc⟩ :=
    Value.exists_table {} (by simp [Workspace.toConfig]) Workspace.exists_deserialize hc
  obtain ⟨d', hd', hdd⟩ :=
    Value.exists_table {} (by simp [Idle.toConfig]) Idle.exists_deserialize hd
  obtain ⟨e', he', hee⟩ :=
    Value.exists_table {} (by simp [Keybindings.toConfig]) Keybindings.exists_deserialize he
  refine ⟨⟨a', b', c', d', e'⟩, by simp [deserialize, ha', hb', hc', hd', he'], ?_⟩
  simp only [toConfig, FrameConfigFile.mk.injEq, FrameConfig.mk.injEq, haa, hbb, hcc, hdd, hee]
  exact ⟨fun ⟨⟨hw, hk⟩, hc, hi, hd⟩ => ⟨hc, hi, hw, hd, hk⟩,
    fun ⟨hc, hi, hw, hd, hk⟩ => ⟨⟨hw, hk⟩, hc, hi, hd⟩⟩

/-! ## The user's file -/

variable {toml : Format} {text : String} {doc : Value} {cfg : FrameConfigFile}

/-- The settings read a file that FRAME accepts. -/
theorem exists_fromStr (hdoc : toml.parse text = some doc)
    (haccepted : FrameConfigFile.fromStr toml text = some cfg) :
    ∃ conf, FrameConfFile.fromStr toml text = some conf ∧ (conf.toConfig = cfg ↔ Spelled doc) := by
  rw [FrameConfigFile.fromStr, hdoc, Option.bind_some] at haccepted
  obtain ⟨conf, hconf, hsame⟩ := FrameConfFile.exists_deserialize doc cfg haccepted
  exact ⟨conf, by rw [FrameConfFile.fromStr, hdoc, Option.bind_some, hconf], hsame⟩

/-- What the two programs load from the user's file, when no other overrides it. -/
theorem loadFrame_toConfig_iff (hdoc : toml.parse text = some doc)
    (haccepted : FrameConfigFile.fromStr toml text = some cfg) (system : Option String) :
    (loadFrame toml (some text)).toConfig = FrameConfigFile.load toml none (some text) system ↔
      Spelled doc := by
  obtain ⟨conf, hread, hsame⟩ := exists_fromStr hdoc haccepted
  rw [FrameConfigFile.load_of_accepted haccepted, loadFrame, hread, Option.getD_some, hsame]

/-- FRAME reads what was saved. -/
theorem fromStr_saved {conf : FrameConfFile} {saved : String}
    (hr : toml.ReadsBack conf.serialize) (hs : saveFrame toml conf = some saved) :
    FrameConfigFile.fromStr toml saved = some conf.toConfig := by
  obtain ⟨text, hpretty, hparse⟩ := hr
  obtain rfl : text = saved := Option.some.inj (hpretty.symm.trans hs)
  rw [FrameConfigFile.fromStr, hparse, Option.bind_some, FrameConfFile.config_serialize]

/-- **A file means the same to both exactly if it spells out every key whose defaults differ**:
saving it leaves the configuration as it was, and what is shown is what FRAME uses. The format reads
back what the settings write. -/
theorem same_file_iff (hdoc : toml.parse text = some doc)
    (haccepted : FrameConfigFile.fromStr toml text = some cfg)
    (hround : ∀ conf, FrameConfFile.fromStr toml text = some conf →
      toml.ReadsBack conf.serialize) :
    (∃ conf saved, FrameConfFile.fromStr toml text = some conf ∧
        saveFrame toml conf = some saved ∧ FrameConfigFile.fromStr toml saved = some cfg ∧
        bodyLines (loadFrame toml (some text)) = inUse cfg) ↔
      Spelled doc := by
  obtain ⟨conf, hread, hsame⟩ := exists_fromStr hdoc haccepted
  have hback := hround conf hread
  rw [← hsame]
  constructor
  · rintro ⟨conf', saved, hread', hsaved, hcfg, -⟩
    obtain rfl : conf = conf' := Option.some.inj (hread.symm.trans hread')
    exact Option.some.inj ((fromStr_saved hback hsaved).symm.trans hcfg)
  · rintro rfl
    obtain ⟨saved, hsaved, -⟩ := id hback
    have hshown : bodyLines (loadFrame toml (some text)) = inUse conf.toConfig := by
      rw [loadFrame, hread, Option.getD_some, bodyLines_eq_inUse]
    exact ⟨conf, saved, hread, hsaved, fromStr_saved hback hsaved, hshown⟩

/-- The tables of the file that is installed for the whole system. -/
def systemTables : String :=
  "[compositor]\nxwayland = true\ntarget_fps = 0\nvrr = true\nlock_on_suspend = true\n\n" ++
  "[input]\nnatural_scroll = true\ntap_to_click = true\npointer_accel = 0.0\n" ++
  "repeat_delay = 400\nrepeat_rate = 30\nxkb_layout = \"\"\nxkb_variant = \"\"\n" ++
  "xkb_options = \"\"\n\n" ++
  "[workspace]\ncount = 9\nwrap = false\n\n" ++
  "[idle]\ndim_ms = 300000\nlock_ms = 600000\nsuspend_ms = 1800000\n\n" ++
  "[keybindings]\nlauncher_binary = \"nullxes-launcher\"\nlock_binary = \"nullxes-lock\"\n"

/-- The whole file. -/
def systemFile : String :=
  "# NULLXES FRAME runtime configuration.\n" ++
  "# Override by copying this file to ~/.config/nullxes/frame.toml.\n\n" ++ systemTables

/-- What is in it. -/
def systemConf : FrameConfFile where
  compositor := { xwayland := true, vrr := true, lockOnSuspend := true }
  input := { naturalScroll := true, tapToClick := true, repeatDelay := 400, repeatRate := 30 }
  workspace := { count := 9 }
  idle := { dimMs := 300000, lockMs := 600000, suspendMs := 1800000 }
  keybindings := { launcherBinary := "nullxes-launcher", lockBinary := "nullxes-lock" }

/-- The format at this file: with the comment or without it. -/
def systemToml : Format where
  parse text :=
    if text = systemFile ∨ text = systemTables then some systemConf.serialize else none
  pretty _ := some systemTables

theorem same_file_iff_system :
    ∃ conf saved, FrameConfFile.fromStr systemToml systemFile = some conf ∧
      saveFrame systemToml conf = some saved ∧
      FrameConfigFile.fromStr systemToml saved = some systemConf.toConfig ∧
      bodyLines (loadFrame systemToml (some systemFile)) = inUse systemConf.toConfig := by
  have hdoc : systemToml.parse systemFile = some systemConf.serialize := by
    simp only [systemToml, true_or, if_true]
  have hread : FrameConfFile.fromStr systemToml systemFile = some systemConf := by
    rw [FrameConfFile.fromStr, hdoc, Option.bind_some, FrameConfFile.deserialize_serialize]
  refine (same_file_iff hdoc ?_ fun conf hconf => ?_).mpr (spelled_serialize systemConf)
  · rw [FrameConfigFile.fromStr, hdoc, Option.bind_some, FrameConfFile.config_serialize]
  · obtain rfl : systemConf = conf := Option.some.inj (hread.symm.trans hconf)
    exact ⟨systemTables, rfl, by simp only [systemToml, or_true, if_true]⟩

/-- The file that is there to be copied: no table says when to lock, or with what. -/
def userFile : String :=
  "# FRAME compositor configuration\n" ++
  "# Copy to ~/.config/nullxes/frame.toml to override defaults.\n\n" ++
  "[compositor]\nxwayland   = true\ntarget_fps = 0      # 0 = follow display EDID\n" ++
  "vrr        = true   # Variable Refresh Rate if supported\n\n" ++
  "[input]\nnatural_scroll = true\ntap_to_click   = true\n" ++
  "pointer_accel  = 0.0   # -1.0 to 1.0\n" ++
  "repeat_delay   = 400   # ms before key repeat starts\n" ++
  "repeat_rate    = 30    # key repeat chars/sec\n\n" ++
  "[workspace]\ncount = 9\nwrap  = false\n"

/-- What is in it. -/
def userDoc : Value :=
  .table [
    ("compositor", .table [("xwayland", .boolean true), ("target_fps", .integer 0),
      ("vrr", .boolean true)]),
    ("input", .table [("natural_scroll", .boolean true), ("tap_to_click", .boolean true),
      ("pointer_accel", .float 0.0), ("repeat_delay", .integer 400),
      ("repeat_rate", .integer 30)]),
    ("workspace", .table [("count", .integer 9), ("wrap", .boolean false)])]

/-- What the settings make of it. -/
def userConf : FrameConfFile where
  compositor := { xwayland := true, vrr := true }
  input := { naturalScroll := true, tapToClick := true, repeatDelay := 400, repeatRate := 30 }
  workspace := { count := 9 }

/-- What they write: the screen is never locked, and by no program. -/
def userSaved : String :=
  "[compositor]\nxwayland = true\ntarget_fps = 0\nvrr = true\nlock_on_suspend = false\n\n" ++
  "[input]\nnatural_scroll = true\ntap_to_click = true\npointer_accel = 0.0\n" ++
  "repeat_delay = 400\nrepeat_rate = 30\nxkb_layout = \"\"\nxkb_variant = \"\"\n" ++
  "xkb_options = \"\"\n\n" ++
  "[workspace]\ncount = 9\nwrap = false\n\n" ++
  "[idle]\ndim_ms = 0\nlock_ms = 0\nsuspend_ms = 0\n\n" ++
  "[keybindings]\nlauncher_binary = \"\"\nlock_binary = \"\"\n"

/-- The format at these two texts. -/
def userToml : Format where
  parse text :=
    if text = userSaved then some userConf.serialize
    else if text = userFile then some userDoc else none
  pretty _ := some userSaved

/-- FRAME has its own defaults before the file is saved, and the settings' after. -/
theorem not_same_file :
    FrameConfigFile.fromStr userToml userFile = some {} ∧
      (∀ conf, FrameConfFile.fromStr userToml userFile = some conf →
        userToml.ReadsBack conf.serialize) ∧
      (bodyLines (loadFrame userToml (some userFile))).lockMs = 0 ∧
      ¬ ∃ conf saved, FrameConfFile.fromStr userToml userFile = some conf ∧
        saveFrame userToml conf = some saved ∧
        FrameConfigFile.fromStr userToml saved = some {} ∧
        bodyLines (loadFrame userToml (some userFile)) = inUse {} := by
  have hne : userFile ≠ userSaved := by decide +kernel
  have hdoc : userToml.parse userFile = some userDoc := by
    simp only [userToml, hne, if_false, if_true]
  have hread : FrameConfFile.fromStr userToml userFile = some userConf := by
    rw [FrameConfFile.fromStr, hdoc]
    rfl
  have hload : loadFrame userToml (some userFile) = userConf := by
    rw [loadFrame, hread, Option.getD_some]
  have hback : userToml.ReadsBack userConf.serialize :=
    ⟨userSaved, rfl, by simp only [userToml, if_true]⟩
  refine ⟨?_, fun conf hconf => ?_, ?_, ?_⟩
  · rw [FrameConfigFile.fromStr, hdoc]
    rfl
  · obtain rfl : userConf = conf := Option.some.inj (hread.symm.trans hconf)
    exact hback
  · rw [hload]
    rfl
  · rintro ⟨conf, saved, -, -, -, hshown⟩
    rw [hload] at hshown
    have hlock : (0 : UInt64) = 10 * 60 * 1000 := congrArg Shown.lockMs hshown
    exact absurd hlock (by decide)

end NxSettings

end Nullxes
