import Nullxes.Frame.Config
import Nullxes.Library.Logs

/-!
# Idle actions

`idle.rs`. `IdleTracker` is what the mutex holds. `dim` and `lock` have a latch that only activity
opens again; `suspend` has none, so it is returned by every tick for which the session has been idle
long enough.

Times are in nanoseconds. The clock is read at each call, and given with it; `Vigil` is the tracker
with the last reading and the ticks since the last activity.

## Main definitions

* `IdleTracker.tick` — what a tick returns
* `Vigil.FiresOnce` — an action in one idle period
* `Vigil.Rested` — nothing is due to suspend again

## Main results

* `IdleTracker.tick_eq` — what a tick does
* `firesOnce_iff_rested` — actions fire once as long as no tick after a suspend finds its threshold
  reached
* `not_firesOnce` — a machine that is suspended again as it wakes
-/

namespace Nullxes

namespace Frame

open Logs

/-- `IdleActions`. -/
structure IdleActions where
  dim : Bool := false
  lock : Bool := false
  suspend : Bool := false
  deriving DecidableEq, Repr

/-- What an `IdleTracker` guards. -/
structure IdleTracker where
  lastActivity : ℕ
  cfg : IdleConfig
  dimmed : Bool
  lockedPending : Bool

/-- `Duration::from_millis`. -/
def fromMillis (ms : UInt64) : ℕ := ms.toNat * 1000000

namespace IdleTracker

def new (cfg : IdleConfig) (now : ℕ) : IdleTracker := ⟨now, cfg, false, false⟩

variable (g : IdleTracker)

def touch (now : ℕ) : IdleTracker :=
  { g with lastActivity := now, dimmed := false, lockedPending := false }

def updateConfig (cfg : IdleConfig) : IdleTracker := { g with cfg := cfg }

def tick (now : ℕ) : IdleActions × IdleTracker :=
  let elapsed := now - g.lastActivity
  let actions : IdleActions := {}
  let (g, actions) :=
    if 0 < g.cfg.dimMs ∧ fromMillis g.cfg.dimMs ≤ elapsed ∧ !g.dimmed then
      ({ g with dimmed := true }, { actions with dim := true })
    else (g, actions)
  let (g, actions) :=
    if 0 < g.cfg.lockMs ∧ fromMillis g.cfg.lockMs ≤ elapsed ∧ !g.lockedPending then
      ({ g with lockedPending := true }, { actions with lock := true })
    else (g, actions)
  let actions :=
    if 0 < g.cfg.suspendMs ∧ fromMillis g.cfg.suspendMs ≤ elapsed then
      { actions with suspend := true }
    else actions
  (actions, g)

end IdleTracker

/-- The three actions. -/
inductive IdleAction
  | dim
  | lock
  | suspend
  deriving DecidableEq, Repr

namespace IdleAction

/-- The threshold of the action. -/
def threshold (cfg : IdleConfig) : IdleAction → UInt64
  | dim => cfg.dimMs
  | lock => cfg.lockMs
  | suspend => cfg.suspendMs

/-- The threshold is not zero and is reached. -/
def Due (a : IdleAction) (cfg : IdleConfig) (elapsed : ℕ) : Prop :=
  0 < a.threshold cfg ∧ fromMillis (a.threshold cfg) ≤ elapsed

instance (a : IdleAction) (cfg : IdleConfig) (elapsed : ℕ) : Decidable (a.Due cfg elapsed) :=
  inferInstanceAs (Decidable (_ ∧ _))

/-- The action is among those that a tick returns. -/
def returned (actions : IdleActions) : IdleAction → Bool
  | dim => actions.dim
  | lock => actions.lock
  | suspend => actions.suspend

/-- The latch of the action, if it has one. -/
def latched (g : IdleTracker) : IdleAction → Bool
  | dim => g.dimmed
  | lock => g.lockedPending
  | suspend => false

end IdleAction

namespace IdleTracker

variable (g : IdleTracker) (now : ℕ)

/-- The action is due, and its latch is open. -/
def fires (a : IdleAction) : Bool := a.Due g.cfg (now - g.lastActivity) && !a.latched g

theorem fires_eq_true {a : IdleAction} : g.fires now a = true ↔
    a.Due g.cfg (now - g.lastActivity) ∧ a.latched g = false := by
  rw [fires, Bool.and_eq_true, decide_eq_true_eq, Bool.not_eq_true']

/-- **What a tick does.** It returns the actions that are due and whose latch is open, and closes
their latches. -/
theorem tick_eq : g.tick now =
    (⟨g.fires now .dim, g.fires now .lock, g.fires now .suspend⟩,
      { g with
        dimmed := g.dimmed || g.fires now .dim
        lockedPending := g.lockedPending || g.fires now .lock }) := by
  have hdim : (0 < g.cfg.dimMs ∧ fromMillis g.cfg.dimMs ≤ now - g.lastActivity ∧ !g.dimmed) ↔
      g.fires now .dim = true := by
    rw [fires_eq_true, ← Bool.not_eq_true', ← and_assoc]
    rfl
  have hlock : (0 < g.cfg.lockMs ∧ fromMillis g.cfg.lockMs ≤ now - g.lastActivity ∧
      !g.lockedPending) ↔ g.fires now .lock = true := by
    rw [fires_eq_true, ← Bool.not_eq_true', ← and_assoc]
    rfl
  have hsuspend : (0 < g.cfg.suspendMs ∧ fromMillis g.cfg.suspendMs ≤ now - g.lastActivity) ↔
      g.fires now .suspend = true := by
    rw [fires_eq_true]
    exact (and_iff_left rfl).symm
  rw [tick]
  simp only [hdim]
  cases g.fires now .dim <;> simp only [Bool.false_eq_true, if_true, if_false, hlock] <;>
    cases g.fires now .lock <;> simp only [Bool.false_eq_true, if_true, if_false, hsuspend] <;>
    cases g.fires now .suspend <;> simp

/-- What a tick returns. -/
theorem returned_tick (a : IdleAction) :
    a.returned (g.tick now).1 = true ↔
      a.Due g.cfg (now - g.lastActivity) ∧ a.latched g = false := by
  rw [← fires_eq_true, tick_eq]
  cases a <;> rfl

/-- The latches that a tick closes are those of what it returns. -/
theorem latched_tick (a : IdleAction) (ha : a ≠ .suspend) :
    a.latched (g.tick now).2 = (a.latched g || a.returned (g.tick now).1) := by
  rw [tick_eq]
  cases a with
  | dim => rfl
  | lock => rfl
  | suspend => exact absurd rfl ha

end IdleTracker

/-! ## Idle periods -/

/-- A tick: how long the session had been idle, the configuration then, and what was returned. -/
structure Ticked where
  elapsed : ℕ
  cfg : IdleConfig
  actions : IdleActions

/-- The tracker, the last reading of the clock, and the ticks since the last activity. -/
structure Vigil where
  tracker : IdleTracker
  now : ℕ
  period : List Ticked

/-- A call of the tracker, with the reading of the clock. -/
inductive IdleCall
  | touch (now : ℕ)
  | tick (now : ℕ)
  | updateConfig (cfg : IdleConfig)

namespace IdleAction

/-- The action was due at this tick. -/
def DueAt (a : IdleAction) (t : Ticked) : Prop := a.Due t.cfg t.elapsed

/-- And this is when it was returned. -/
def ReturnedAt (a : IdleAction) (t : Ticked) : Prop := a.returned t.actions = true

instance (a : IdleAction) (t : Ticked) : Decidable (a.DueAt t) :=
  inferInstanceAs (Decidable (a.Due t.cfg t.elapsed))

instance (a : IdleAction) (t : Ticked) : Decidable (a.ReturnedAt t) :=
  inferInstanceAs (Decidable (_ = _))

end IdleAction

namespace Vigil

def start (cfg : IdleConfig) (now : ℕ) : Vigil := ⟨.new cfg now, now, []⟩

variable (s : Vigil)

/-- The tick at this reading of the clock. -/
def ticked (now : ℕ) : Ticked :=
  ⟨now - s.tracker.lastActivity, s.tracker.cfg, (s.tracker.tick now).1⟩

def step : IdleCall → Vigil
  | .touch now => ⟨s.tracker.touch now, now, []⟩
  | .tick now => ⟨(s.tracker.tick now).2, now, s.period ++ [s.ticked now]⟩
  | .updateConfig cfg => { s with tracker := s.tracker.updateConfig cfg }

/-- The clock does not go back. -/
def Enabled : IdleCall → Prop
  | .touch now | .tick now => s.now ≤ now
  | .updateConfig _ => True

instance : (e : IdleCall) → Decidable (s.Enabled e)
  | .touch now | .tick now => inferInstanceAs (Decidable (s.now ≤ now))
  | .updateConfig _ => inferInstanceAs (Decidable True)

/-- **Once in an idle period.** At most one tick returns the action; and if the configuration is the
same at all of them, it is the first for which the threshold is reached, if that is not zero. -/
structure FiresOnce (a : IdleAction) (period : List Ticked) : Prop where
  once : period.Pairwise fun t t' => ¬ (a.ReturnedAt t ∧ a.ReturnedAt t')
  first : ∀ cfg, (∀ t ∈ period, t.cfg = cfg) → ∀ pre t, pre ++ [t] <+: period →
    (a.ReturnedAt t ↔ 0 < a.threshold cfg ∧ fromMillis (a.threshold cfg) ≤ t.elapsed ∧
      ∀ t' ∈ pre, t'.elapsed < fromMillis (a.threshold cfg))

/-- Once `suspend` was returned, it is not due again in the same period. -/
def Rested : IdleCall → Prop
  | .tick now => (∃ t ∈ s.period, IdleAction.suspend.ReturnedAt t) →
    ¬ IdleAction.suspend.Due s.tracker.cfg (now - s.tracker.lastActivity)
  | .touch _ | .updateConfig _ => True

instance : (e : IdleCall) → Decidable (s.Rested e)
  | .tick _ => inferInstanceAs (Decidable (_ → _))
  | .touch _ | .updateConfig _ => inferInstanceAs (Decidable True)

end Vigil

/-- The tracker under a clock that does not go back. -/
def idle : EventMachine Vigil IdleCall where
  Init s := ∃ cfg now, s = .start cfg now
  Enabled := Vigil.Enabled
  step := Vigil.step

instance (s : Vigil) (e : IdleCall) : Decidable (idle.Enabled s e) :=
  inferInstanceAs (Decidable (s.Enabled e))

namespace Vigil

variable {s : Vigil} {a : IdleAction} {period : List Ticked}

theorem firesOnce_of_lawful (h : Lawful (latch a.DueAt a.ReturnedAt) period) :
    FiresOnce a period := by
  refine ⟨h.pairwise_latch, fun cfg hcfg pre t hp => ?_⟩
  have hdue : ∀ t ∈ period, a.DueAt t ↔
      0 < a.threshold cfg ∧ fromMillis (a.threshold cfg) ≤ t.elapsed := by
    intro t ht
    rw [IdleAction.DueAt, hcfg t ht, IdleAction.Due]
  rw [fired_iff_first h hp, hdue t (hp.mem (by simp)), and_assoc]
  refine and_congr_right fun hpos => and_congr_right fun _ => forall₂_congr fun t' ht' => ?_
  rw [hdue t' (hp.mem (List.mem_append_left _ ht')), and_iff_right hpos, Nat.not_le]

/-- What the latches remember, and that `suspend` has none. -/
structure Kept (s : Vigil) : Prop where
  latched : ∀ a : IdleAction, a ≠ .suspend →
    (a.latched s.tracker = true ↔ ∃ t ∈ s.period, a.ReturnedAt t)
  lawful : ∀ a : IdleAction, a ≠ .suspend → Lawful (latch a.DueAt a.ReturnedAt) s.period
  suspend : ∀ t ∈ s.period, IdleAction.suspend.ReturnedAt t ↔ IdleAction.suspend.DueAt t

theorem kept_nil {g : IdleTracker} {now : ℕ} (hg : g.dimmed = false ∧ g.lockedPending = false) :
    Kept ⟨g, now, []⟩ := by
  refine ⟨fun a _ => ?_, fun a _ => lawful_nil, fun t ht => absurd ht List.not_mem_nil⟩
  cases a <;> simp [IdleAction.latched, hg]

/-- The tick at this reading returns what is due and open. -/
theorem returnedAt_ticked (now : ℕ) :
    a.ReturnedAt (s.ticked now) ↔ a.DueAt (s.ticked now) ∧ a.latched s.tracker = false :=
  s.tracker.returned_tick now a

theorem Kept.latch_ticked (h : s.Kept) (ha : a ≠ .suspend) (now : ℕ) :
    latch a.DueAt a.ReturnedAt s.period (s.ticked now) := by
  rw [latch, returnedAt_ticked]
  refine and_congr_right fun _ => ?_
  rw [← Bool.not_eq_true, h.latched a ha]
  constructor
  · intro hnone t ht hret
    exact hnone ⟨t, ht, hret⟩
  · rintro hnone ⟨t, ht, hret⟩
    exact hnone t ht hret

theorem Kept.step (h : s.Kept) (e : IdleCall) : (s.step e).Kept := by
  cases e with
  | touch now => exact kept_nil ⟨rfl, rfl⟩
  | updateConfig cfg =>
    refine ⟨fun a ha => ?_, h.lawful, h.suspend⟩
    have hsame : a.latched (s.step (.updateConfig cfg)).tracker = a.latched s.tracker := by
      cases a <;> rfl
    rw [hsame]
    exact h.latched a ha
  | tick now =>
    refine ⟨fun a ha => ?_, fun a ha => ?_, fun t ht => ?_⟩
    · show a.latched (s.tracker.tick now).2 = true ↔ ∃ t ∈ s.period ++ [s.ticked now], _
      rw [s.tracker.latched_tick now a ha, Bool.or_eq_true, h.latched a ha]
      simp only [List.mem_append, List.mem_singleton, or_and_right, exists_or, exists_eq_left]
      rfl
    · exact lawful_concat.mpr ⟨h.lawful a ha, h.latch_ticked ha now⟩
    · rcases List.mem_append.mp ht with ht | ht
      · exact h.suspend t ht
      · rw [List.mem_singleton.mp ht, returnedAt_ticked]
        exact and_iff_left rfl

/-- All three fire once exactly if `suspend` does. -/
theorem Kept.firesOnce_iff (h : s.Kept) :
    (∀ a, FiresOnce a s.period) ↔
      Lawful (latch IdleAction.suspend.DueAt IdleAction.suspend.ReturnedAt) s.period := by
  constructor
  · exact fun hall => (lawful_latch_iff h.suspend).mpr (hall .suspend).once
  · intro hsuspend a
    by_cases ha : a = .suspend
    · rw [ha]
      exact firesOnce_of_lawful hsuspend
    · exact firesOnce_of_lawful (h.lawful a ha)

theorem lawful_step_iff
    (h : Lawful (latch IdleAction.suspend.DueAt IdleAction.suspend.ReturnedAt) s.period)
    (e : IdleCall) :
    Lawful (latch IdleAction.suspend.DueAt IdleAction.suspend.ReturnedAt) (s.step e).period ↔
      s.Rested e := by
  cases e with
  | touch now => exact iff_of_true lawful_nil trivial
  | updateConfig cfg => exact iff_of_true h trivial
  | tick now =>
    have hreturned : IdleAction.suspend.ReturnedAt (s.ticked now) ↔
        IdleAction.suspend.DueAt (s.ticked now) := by
      rw [returnedAt_ticked]
      exact and_iff_left rfl
    show Lawful _ (s.period ++ [s.ticked now]) ↔ _
    rw [lawful_concat, and_iff_right h, latch, hreturned]
    constructor
    · rintro hiff ⟨t, ht, hret⟩ hdue
      exact (hiff.mp hdue).2 t ht hret
    · intro hrested
      refine ⟨fun hdue => ⟨hdue, fun t ht hret => hrested ⟨t, ht, hret⟩ hdue⟩, fun hdue => hdue.1⟩

end Vigil

/-- **When actions fire once.** Whatever the clock, the configuration and its changes, each of the
three does in every idle period, exactly if no tick after one that returned `suspend` finds the
threshold of `suspend` reached again in the same period. -/
theorem firesOnce_iff_rested {s : Vigil} {es : List IdleCall} (hs : idle.Init s)
    (hl : idle.Legal s es) :
    idle.Always (fun s => ∀ a, Vigil.FiresOnce a s.period) s es ↔
      idle.EachStep Vigil.Rested s es := by
  obtain ⟨cfg, now, rfl⟩ := hs
  have hkept : (Vigil.start cfg now).Kept := Vigil.kept_nil ⟨rfl, rfl⟩
  have hstep : ∀ s e, Vigil.Kept s → idle.Enabled s e → (idle.step s e).Kept :=
    fun s e hs _ => hs.step e
  have hall : idle.Always Vigil.Kept (.start cfg now) es := .of_invariant hstep hkept hl
  have hrested : idle.Always (fun s =>
      Lawful (latch IdleAction.suspend.DueAt IdleAction.suspend.ReturnedAt) s.period)
      (.start cfg now) es ↔ idle.EachStep Vigil.Rested (.start cfg now) es :=
    EventMachine.always_iff_eachStep hstep (fun s e _ hp _ => Vigil.lawful_step_iff hp e) hkept
      lawful_nil hl
  rw [← hrested]
  constructor
  · exact fun h pre hp => (hall pre hp).firesOnce_iff.mp (h pre hp)
  · exact fun h pre hp => (hall pre hp).firesOnce_iff.mpr (h pre hp)

/-- Only `suspend` is configured. -/
def suspendOnly : IdleConfig := { dimMs := 0, lockMs := 0, suspendMs := 1 }

theorem firesOnce_iff_rested_touched :
    idle.Always (fun s => ∀ a, Vigil.FiresOnce a s.period) (.start suspendOnly 0)
      [.tick 1000000, .touch 1000001, .tick 1000002, .tick 2000001] :=
  (firesOnce_iff_rested ⟨suspendOnly, 0, rfl⟩ (by decide)).mpr (by decide)

/-- Two ticks after the threshold, and nothing in between. -/
theorem not_firesOnce :
    idle.Init (.start suspendOnly 0) ∧
      idle.Legal (.start suspendOnly 0) [.tick 1000000, .tick 2000000] ∧
      ((idle.run (.start suspendOnly 0) [.tick 1000000, .tick 2000000]).period.map
        fun t => t.actions.suspend) = [true, true] ∧
      ¬ idle.Always (fun s => ∀ a, Vigil.FiresOnce a s.period) (.start suspendOnly 0)
        [.tick 1000000, .tick 2000000] := by
  refine ⟨⟨suspendOnly, 0, rfl⟩, by decide, by decide, fun h => ?_⟩
  have honce := (h.last .suspend).once
  exact absurd honce (by decide)

end Frame

end Nullxes
