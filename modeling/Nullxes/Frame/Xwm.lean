import Mathlib.Order.Basic

/-!
# XWayland and its respawns

`xwm.rs`. `handleEvent` is what FRAME does with an event of the XWayland process; it is `none` where
the source panics, which could only be the lookup of a delay. `spawned` counts the calls of
`XWayland::new`.

## Main definitions

* `XwmState.handleEvent` — one event
* `XwmState.Owes` — what an event may do to the counter and to the number of processes

## Main results

* `respawn_bounded` — no panic, three respawns, and none once X11 is disabled
-/

namespace Nullxes

namespace Frame

/-- `RESPAWN_DELAYS`, in seconds. -/
def respawnDelays : List ℕ := [1, 2, 5]

/-- `XWaylandEvent`, with what `X11Wm::start_wm` makes of a connection. -/
inductive XWaylandEvent (Wm : Type)
  | ready (startWm : Except String Wm)
  | exited

/-- `XwmState`, with what was started and how long was slept. -/
structure XwmState (Wm : Type) where
  /-- `xwayland_shell.is_some()`. -/
  xwaylandShell : Bool
  /-- `xwayland.is_some()`. -/
  xwayland : Bool
  wm : Option Wm
  respawnCount : UInt32
  disabled : Bool
  spawned : ℕ
  slept : List ℕ

namespace XwmState

variable {Wm : Type}

def new : XwmState Wm := ⟨false, false, none, 0, false, 0, []⟩

variable (s : XwmState Wm)

def ensureShell : XwmState Wm := { s with xwaylandShell := true }

/-- `start`, which always succeeds. -/
def start : XwmState Wm :=
  if s.disabled then s
  else { s.ensureShell with xwayland := true, spawned := s.spawned + 1 }

def scheduleRespawn : Option (XwmState Wm) :=
  if s.respawnCount.toNat ≥ respawnDelays.length then some { s with disabled := true }
  else do
    let delay ← respawnDelays[s.respawnCount.toNat]?
    let s := { s with respawnCount := s.respawnCount + 1 }
    some { s with slept := s.slept ++ [delay] }.start

def handleEvent : XWaylandEvent Wm → Option (XwmState Wm)
  | .ready (.ok wm) => some { s with wm := some wm, respawnCount := 0 }
  | .ready (.error _) => s.scheduleRespawn
  | .exited => { s with wm := none }.scheduleRespawn

/-- The window manager was started. -/
def succeeded : XWaylandEvent Wm → Bool
  | .ready (.ok _) => true
  | .ready (.error _) | .exited => false

/-- The counter is within the delays. -/
def Counted : Prop := s.respawnCount.toNat ≤ respawnDelays.length

/-- A process is started only for a step of the counter, and none once X11 is disabled, which it
stays. -/
structure Owes (t : XwmState Wm) : Prop where
  counted : t.Counted
  disabled : s.disabled = true → t.disabled = true ∧ t.spawned = s.spawned
  spawned : t.spawned + s.respawnCount.toNat ≤ s.spawned + t.respawnCount.toNat

variable {s} {t u : XwmState Wm}

theorem Owes.refl (hs : s.Counted) : s.Owes s := ⟨hs, fun h => ⟨h, rfl⟩, Nat.le_refl _⟩

theorem Owes.trans (h : s.Owes t) (h' : t.Owes u) : s.Owes u := by
  refine ⟨h'.counted, fun hs => ?_, ?_⟩
  · obtain ⟨ht, hspawned⟩ := h.disabled hs
    obtain ⟨hu, hspawned'⟩ := h'.disabled ht
    exact ⟨hu, hspawned'.trans hspawned⟩
  · have hst := h.spawned
    have htu := h'.spawned
    omega

/-- **What a respawn does.** The lookup is in range, and the counter stays in it. -/
theorem scheduleRespawn_spec (hs : s.Counted) : ∃ t, s.scheduleRespawn = some t ∧ s.Owes t := by
  rw [scheduleRespawn]
  split
  next => exact ⟨_, rfl, hs, fun _ => ⟨rfl, rfl⟩, Nat.le_refl _⟩
  next hlt =>
    have hrange : s.respawnCount.toNat < respawnDelays.length := Nat.lt_of_not_le hlt
    have hcount : (s.respawnCount + 1).toNat = s.respawnCount.toNat + 1 := by
      have hlen : respawnDelays.length = 3 := rfl
      rw [UInt32.toNat_add]
      exact Nat.mod_eq_of_lt (by simp; omega)
    refine ⟨_, by rw [List.getElem?_eq_getElem hrange]; rfl, ?_⟩
    rw [start]
    split
    next hdisabled =>
      refine ⟨hcount.trans_le hrange, fun _ => ⟨hdisabled, rfl⟩, ?_⟩
      show s.spawned + s.respawnCount.toNat ≤ s.spawned + (s.respawnCount + 1).toNat
      omega
    next hdisabled =>
      refine ⟨hcount.trans_le hrange, fun h => absurd h hdisabled, ?_⟩
      show s.spawned + 1 + s.respawnCount.toNat ≤ s.spawned + (s.respawnCount + 1).toNat
      omega

/-- **What an event does.** Only a window manager that was started sets the counter back. -/
theorem handleEvent_spec (hs : s.Counted) (e : XWaylandEvent Wm) :
    ∃ t, s.handleEvent e = some t ∧ t.Counted ∧
      (s.disabled = true → t.disabled = true ∧ t.spawned = s.spawned) ∧
      (succeeded e = false → s.Owes t) := by
  cases e with
  | ready startWm =>
    cases startWm with
    | ok wm =>
      exact ⟨_, rfl, Nat.zero_le _, fun h => ⟨h, rfl⟩, fun h => Bool.noConfusion h⟩
    | error e =>
      obtain ⟨t, ht, howes⟩ := scheduleRespawn_spec hs
      exact ⟨t, ht, howes.counted, howes.disabled, fun _ => howes⟩
  | exited =>
    have hs' : Counted ({ s with wm := none } : XwmState Wm) := hs
    obtain ⟨t, ht, howes⟩ := scheduleRespawn_spec hs'
    exact ⟨t, ht, howes.counted, howes.disabled, fun _ => ⟨howes.counted, howes.disabled,
      howes.spawned⟩⟩

/-- The events of a run, one after the other; `none` if one of them panics. -/
def run (s : XwmState Wm) (es : List (XWaylandEvent Wm)) : Option (XwmState Wm) :=
  es.foldlM handleEvent s

theorem run_append (s : XwmState Wm) (es fs : List (XWaylandEvent Wm)) :
    s.run (es ++ fs) = (s.run es).bind fun t => t.run fs :=
  List.foldlM_append

/-- **What a run does.** -/
theorem run_spec (hs : s.Counted) (es : List (XWaylandEvent Wm)) :
    ∃ t, s.run es = some t ∧ t.Counted ∧
      (s.disabled = true → t.disabled = true ∧ t.spawned = s.spawned) ∧
      ((∀ e ∈ es, succeeded e = false) → s.Owes t) := by
  induction es generalizing s with
  | nil => exact ⟨s, rfl, hs, fun h => ⟨h, rfl⟩, fun _ => .refl hs⟩
  | cons e es ih =>
    obtain ⟨t, ht, hcounted, hdisabled, howes⟩ := handleEvent_spec hs e
    obtain ⟨u, hu, hcounted', hdisabled', howes'⟩ := ih hcounted
    refine ⟨u, ?_, hcounted', fun h => ?_, fun hfail => ?_⟩
    · rw [run, List.foldlM_cons, ht]
      exact hu
    · obtain ⟨ht', hspawned⟩ := hdisabled h
      obtain ⟨hu', hspawned'⟩ := hdisabled' ht'
      exact ⟨hu', hspawned'.trans hspawned⟩
    · have hhead := howes (hfail e List.mem_cons_self)
      exact hhead.trans (howes' fun e' he' => hfail e' (List.mem_cons_of_mem _ he'))

end XwmState

/-- **Respawns are bounded.** After the start, no sequence of events panics, and the counter never
exceeds the number of delays. Of the events after any point, as long as no window manager is
started, at most three start a process; and once X11 is disabled, none does, and it stays
disabled. -/
theorem respawn_bounded {Wm : Type} (es : List (XWaylandEvent Wm)) :
    ∃ s, XwmState.new.start.run es = some s ∧ s.respawnCount.toNat ≤ respawnDelays.length ∧
      ∀ fs, ∃ t, XwmState.new.start.run (es ++ fs) = some t ∧
        ((∀ e ∈ fs, XwmState.succeeded e = false) → t.spawned ≤ s.spawned + 3) ∧
        (s.disabled = true → t.disabled = true ∧ t.spawned = s.spawned) := by
  have hstart : (XwmState.new.start : XwmState Wm).Counted := Nat.zero_le _
  obtain ⟨s, hs, hcounted, -, -⟩ := XwmState.run_spec hstart es
  refine ⟨s, hs, hcounted, fun fs => ?_⟩
  obtain ⟨t, ht, hcounted', hdisabled, howes⟩ := XwmState.run_spec hcounted fs
  refine ⟨t, ?_, fun hfail => ?_, hdisabled⟩
  · rw [XwmState.run_append, hs]
    exact ht
  · have hbound : t.respawnCount.toNat ≤ 3 := hcounted'
    have hspawned := (howes hfail).spawned
    omega

end Frame

end Nullxes
