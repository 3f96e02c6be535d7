import Mathlib.Data.List.Infix

/-!
# Event machines

A program that reacts to events is a total step function together with a guard saying which
events its environment can raise in which states. Everything proved about such a program is a
statement about its *runs*: a list of events, each enabled when its turn comes.

## The two ways a run property holds

`EventMachine.Always.of_invariant` is the usual rule: a property that holds at the start and is
kept by every enabled event holds in every state of every run.

`EventMachine.always_iff_eachStep` is its companion for a property that *some* events break. Given
a condition `C` on the state before a step and the event taken there, such that a step from a good
state reaches a good state exactly when `C` holds, a run is good throughout if and only if each of
its steps meets `C`. It is the first-failure argument, done once.

## Simulation

A `Simulation` is a function from the states of one machine to those of a simpler one, with a name
for what each event does there. Both kinds of run property can then be proved of the simpler
machine and read back (`Simulation.always_iff`, `Simulation.eachStep_iff`).

## Main definitions

* `EventMachine.run`, `EventMachine.Legal` — the state after a list of events, and when the
  environment can raise them in that order
* `EventMachine.Always`, `EventMachine.EachStep` — a predicate on every state, and on every step,
  of a run
* `EventMachine.Reachable` — the states some legal run ends in
* `EventMachine.Simulation` — one machine seen as another
-/

universe u v u' v'

/-- A state machine driven by events of its environment. -/
structure EventMachine (σ : Type u) (ε : Type v) where
  /-- The states a run may start in. -/
  Init : σ → Prop
  /-- The environment can raise `e` in state `s`. -/
  Enabled : σ → ε → Prop
  /-- The reaction to one event. -/
  step : σ → ε → σ

namespace EventMachine

variable {σ : Type u} {ε : Type v} (M : EventMachine σ ε)

/-- The state after reacting to the events in order. -/
def run (s : σ) (es : List ε) : σ := es.foldl M.step s

/-- Every event is enabled when its turn comes. -/
def Legal : σ → List ε → Prop
  | _, [] => True
  | s, e :: es => M.Enabled s e ∧ Legal (M.step s e) es

/-- Whether a list of events is legal can be run. -/
instance decidableLegal [∀ s e, Decidable (M.Enabled s e)] :
    (s : σ) → (es : List ε) → Decidable (M.Legal s es)
  | _, [] => inferInstanceAs (Decidable True)
  | s, e :: es =>
    match decidableLegal (M.step s e) es with
    | .isTrue h => decidable_of_iff (M.Enabled s e) ⟨fun he => ⟨he, h⟩, fun he => he.1⟩
    | .isFalse h => .isFalse fun he => h he.2

@[simp] theorem run_nil (s : σ) : M.run s [] = s := rfl

@[simp] theorem run_cons (s : σ) (e : ε) (es : List ε) :
    M.run s (e :: es) = M.run (M.step s e) es := rfl

theorem run_append (s : σ) (es fs : List ε) : M.run s (es ++ fs) = M.run (M.run s es) fs :=
  List.foldl_append

@[simp] theorem legal_nil (s : σ) : M.Legal s [] := trivial

@[simp] theorem legal_cons {s : σ} {e : ε} {es : List ε} :
    M.Legal s (e :: es) ↔ M.Enabled s e ∧ M.Legal (M.step s e) es := Iff.rfl

theorem legal_append {s : σ} {es fs : List ε} :
    M.Legal s (es ++ fs) ↔ M.Legal s es ∧ M.Legal (M.run s es) fs := by
  induction es generalizing s with
  | nil => simp
  | cons e es ih => simp [ih, and_assoc]

variable {M}

/-- What can always be raised can be raised in any order. -/
theorem legal_of_enabled (h : ∀ s e, M.Enabled s e) (s : σ) (es : List ε) : M.Legal s es := by
  induction es generalizing s with
  | nil => trivial
  | cons e es ih => exact ⟨h s e, ih _⟩

theorem Legal.of_prefix {s : σ} {pre es : List ε} (h : M.Legal s es) (hp : pre <+: es) :
    M.Legal s pre := by
  obtain ⟨rest, rfl⟩ := hp
  exact (M.legal_append.mp h).1

/-! ### Predicates along a run -/

variable (M)

/-- `P` holds in every state the run passes through, both ends included. -/
def Always (P : σ → Prop) (s : σ) (es : List ε) : Prop :=
  ∀ pre, pre <+: es → P (M.run s pre)

/-- `C` holds of every step of the run: of the state before it and the event taken there. -/
def EachStep (C : σ → ε → Prop) (s : σ) (es : List ε) : Prop :=
  ∀ pre e, pre ++ [e] <+: es → C (M.run s pre) e

variable {M} {P I : σ → Prop} {C : σ → ε → Prop} {s : σ} {e : ε} {es : List ε}

@[simp] theorem always_nil : M.Always P s [] ↔ P s := by
  simp [Always]

theorem always_cons : M.Always P s (e :: es) ↔ P s ∧ M.Always P (M.step s e) es := by
  constructor
  · intro h
    exact ⟨h [] (List.nil_prefix), fun pre hp => h (e :: pre) (List.cons_prefix_cons.mpr ⟨rfl, hp⟩)⟩
  · rintro ⟨h0, h⟩ pre hp
    cases pre with
    | nil => exact h0
    | cons e' pre =>
      obtain ⟨rfl, hp'⟩ := List.cons_prefix_cons.mp hp
      exact h pre hp'

@[simp] theorem eachStep_nil : M.EachStep C s [] := by
  intro pre e hp
  simpa using hp.length_le

theorem eachStep_cons : M.EachStep C s (e :: es) ↔ C s e ∧ M.EachStep C (M.step s e) es := by
  constructor
  · intro h
    refine ⟨h [] e (by simp), fun pre e' hp => ?_⟩
    exact h (e :: pre) e' (List.cons_prefix_cons.mpr ⟨rfl, hp⟩)
  · rintro ⟨h0, h⟩ pre e' hp
    cases pre with
    | nil =>
      obtain ⟨rfl, -⟩ := List.cons_prefix_cons.mp hp
      exact h0
    | cons e'' pre =>
      obtain ⟨rfl, hp'⟩ := List.cons_prefix_cons.mp hp
      exact h pre e' hp'

theorem eachStep_append {fs : List ε} :
    M.EachStep C s (es ++ fs) ↔ M.EachStep C s es ∧ M.EachStep C (M.run s es) fs := by
  induction es generalizing s with
  | nil => simp
  | cons e es ih => simp [eachStep_cons, ih, and_assoc]

/-- A condition on the events alone is met by every step if every event meets it. -/
theorem eachStep_event_iff {D : ε → Prop} :
    M.EachStep (fun _ e => D e) s es ↔ ∀ e ∈ es, D e := by
  induction es generalizing s with
  | nil => simp
  | cons e es ih => simp [eachStep_cons, ih]

/-- Whether every step of a run meets a condition can be run. -/
instance decidableEachStep [∀ s e, Decidable (C s e)] :
    (s : σ) → (es : List ε) → Decidable (M.EachStep C s es)
  | _, [] => .isTrue eachStep_nil
  | s, e :: es =>
    haveI := decidableEachStep (M.step s e) es
    decidable_of_iff (C s e ∧ M.EachStep C (M.step s e) es) eachStep_cons.symm

theorem Always.start (h : M.Always P s es) : P s := h [] List.nil_prefix

theorem Always.last (h : M.Always P s es) : P (M.run s es) := h es (List.prefix_refl es)

/-- **The invariant rule.** What holds at the start and is kept by every enabled event holds
throughout. -/
theorem Always.of_invariant (hI : ∀ s e, I s → M.Enabled s e → I (M.step s e)) (hs : I s)
    (hl : M.Legal s es) : M.Always I s es := by
  induction es generalizing s with
  | nil => simpa using hs
  | cons e es ih => exact always_cons.mpr ⟨hs, ih (hI s e hs hl.1) hl.2⟩

/-- The invariant rule for runs whose steps all meet a condition. -/
theorem Always.of_eachStep
    (hI : ∀ s e, I s → M.Enabled s e → C s e → I (M.step s e)) (hs : I s) (hl : M.Legal s es)
    (hc : M.EachStep C s es) : M.Always I s es := by
  induction es generalizing s with
  | nil => simpa using hs
  | cons e es ih =>
    obtain ⟨hC, hrest⟩ := eachStep_cons.mp hc
    exact always_cons.mpr ⟨hs, ih (hI s e hs hl.1 hC) hl.2 hrest⟩

theorem Always.mono {Q : σ → Prop} (h : M.Always P s es) (hPQ : ∀ s, P s → Q s) :
    M.Always Q s es :=
  fun pre hp => hPQ _ (h pre hp)

theorem Always.eachStep (h : M.Always P s es) (hPC : ∀ s e, P s → C s e) : M.EachStep C s es :=
  fun pre e hp => hPC _ e (h pre ((List.prefix_append pre [e]).trans hp))

/-- Two conditions that say the same wherever the run passes. -/
theorem eachStep_congr {D : σ → ε → Prop} (hI : M.Always I s es) (hl : M.Legal s es)
    (h : ∀ s e, I s → M.Enabled s e → (C s e ↔ D s e)) :
    M.EachStep C s es ↔ M.EachStep D s es := by
  induction es generalizing s with
  | nil => simp
  | cons e es ih =>
    obtain ⟨hs, hrest⟩ := always_cons.mp hI
    rw [eachStep_cons, eachStep_cons, h s e hs hl.1, ih hrest hl.2]

/-- **The first-failure rule.** If a step out of a good state is good exactly when `C` holds of
it, a legal run is good throughout exactly when each of its steps meets `C`. `I` is whatever
background invariant the step argument needs. -/
theorem always_iff_eachStep (hI : ∀ s e, I s → M.Enabled s e → I (M.step s e))
    (hstep : ∀ s e, I s → P s → M.Enabled s e → (P (M.step s e) ↔ C s e))
    (hIs : I s) (hPs : P s) (hl : M.Legal s es) : M.Always P s es ↔ M.EachStep C s es := by
  induction es generalizing s with
  | nil => simpa using hPs
  | cons e es ih =>
    rw [always_cons, eachStep_cons, ← hstep s e hIs hPs hl.1]
    constructor
    · rintro ⟨-, h⟩
      exact ⟨h.start, (ih (hI s e hIs hl.1) h.start hl.2).mp h⟩
    · rintro ⟨hP, h⟩
      exact ⟨hPs, (ih (hI s e hIs hl.1) hP hl.2).mpr h⟩

/-! ### Reachable states -/

variable (M) in
/-- The states that a legal run from an initial state ends in. -/
def Reachable (t : σ) : Prop := ∃ s es, M.Init s ∧ M.Legal s es ∧ M.run s es = t

theorem Reachable.init (h : M.Init s) : M.Reachable s := ⟨s, [], h, trivial, rfl⟩

theorem Reachable.run {t : σ} (h : M.Reachable t) (hl : M.Legal t es) :
    M.Reachable (M.run t es) := by
  obtain ⟨s, fs, hs, hfs, rfl⟩ := h
  exact ⟨s, fs ++ es, hs, M.legal_append.mpr ⟨hfs, hl⟩, M.run_append s fs es⟩

theorem Reachable.step {t : σ} {e : ε} (h : M.Reachable t) (he : M.Enabled t e) :
    M.Reachable (M.step t e) := by
  have hl : M.Legal t [e] := ⟨he, trivial⟩
  exact h.run hl

theorem Reachable.invariant {t : σ} (h : M.Reachable t) (h0 : ∀ s, M.Init s → I s)
    (hI : ∀ s e, I s → M.Enabled s e → I (M.step s e)) : I t := by
  obtain ⟨s, es, hs, hl, rfl⟩ := h
  exact (Always.of_invariant hI (h0 s hs) hl).last

/-! ### Simulation -/

/-- `M` seen as `A`: every event of `M` does something that `A` can do. -/
structure Simulation (M : EventMachine σ ε) {τ : Type u'} {α : Type v'} (A : EventMachine τ α) where
  /-- The state of `A` that a state of `M` shows. -/
  abs : σ → τ
  /-- What an event does there. -/
  act : σ → ε → α
  /-- What is known of the states of `M` on the way. -/
  Inv : σ → Prop
  inv_init : ∀ s, M.Init s → Inv s
  inv_step : ∀ s e, Inv s → M.Enabled s e → Inv (M.step s e)
  init : ∀ s, M.Init s → A.Init (abs s)
  enabled : ∀ s e, Inv s → M.Enabled s e → A.Enabled (abs s) (act s e)
  step : ∀ s e, Inv s → M.Enabled s e → abs (M.step s e) = A.step (abs s) (act s e)

namespace Simulation

variable {τ : Type u'} {α : Type v'} {A : EventMachine τ α} (R : Simulation M A)

/-- What the events of a run do, in order. -/
def acts (R : Simulation M A) : σ → List ε → List α
  | _, [] => []
  | s, e :: es => R.act s e :: R.acts (M.step s e) es

theorem run_acts (hs : R.Inv s) (hl : M.Legal s es) :
    R.abs (M.run s es) = A.run (R.abs s) (R.acts s es) := by
  induction es generalizing s with
  | nil => rfl
  | cons e es ih =>
    rw [run_cons, acts, run_cons, ih (R.inv_step s e hs hl.1) hl.2, R.step s e hs hl.1]

theorem legal_acts (hs : R.Inv s) (hl : M.Legal s es) : A.Legal (R.abs s) (R.acts s es) := by
  induction es generalizing s with
  | nil => trivial
  | cons e es ih =>
    refine ⟨R.enabled s e hs hl.1, ?_⟩
    rw [← R.step s e hs hl.1]
    exact ih (R.inv_step s e hs hl.1) hl.2

/-- A predicate on the states of `A` holds throughout a run of `M` exactly when it holds throughout
the run of `A`. -/
theorem always_iff {P : τ → Prop} (hs : R.Inv s) (hl : M.Legal s es) :
    M.Always (fun s => P (R.abs s)) s es ↔ A.Always P (R.abs s) (R.acts s es) := by
  induction es generalizing s with
  | nil => simp [acts]
  | cons e es ih =>
    rw [always_cons, acts, always_cons, ih (R.inv_step s e hs hl.1) hl.2, R.step s e hs hl.1]

/-- The same for a condition on the steps. -/
theorem eachStep_iff {C : τ → α → Prop} (hs : R.Inv s) (hl : M.Legal s es) :
    M.EachStep (fun s e => C (R.abs s) (R.act s e)) s es ↔
      A.EachStep C (R.abs s) (R.acts s es) := by
  induction es generalizing s with
  | nil => simp [acts]
  | cons e es ih =>
    rw [eachStep_cons, acts, eachStep_cons, ih (R.inv_step s e hs hl.1) hl.2, R.step s e hs hl.1]

/-- The first-failure rule, argued on the simpler machine. -/
theorem always_iff_eachStep {P I : τ → Prop} {C : τ → α → Prop}
    (hI : ∀ s a, I s → A.Enabled s a → I (A.step s a))
    (hstep : ∀ s a, I s → P s → A.Enabled s a → (P (A.step s a) ↔ C s a))
    (hs : R.Inv s) (hIs : I (R.abs s)) (hPs : P (R.abs s)) (hl : M.Legal s es) :
    M.Always (fun s => P (R.abs s)) s es ↔
      M.EachStep (fun s e => C (R.abs s) (R.act s e)) s es := by
  rw [R.always_iff hs hl, R.eachStep_iff hs hl]
  exact EventMachine.always_iff_eachStep hI hstep hIs hPs (R.legal_acts hs hl)

/-- What is seen of the simpler machine is seen of the first one. -/
def trans {υ : Type*} {β : Type*} {B : EventMachine υ β} (R : Simulation M A)
    (S : Simulation A B) : Simulation M B where
  abs s := S.abs (R.abs s)
  act s e := S.act (R.abs s) (R.act s e)
  Inv s := R.Inv s ∧ S.Inv (R.abs s)
  inv_init s hs := ⟨R.inv_init s hs, S.inv_init _ (R.init s hs)⟩
  inv_step s e h he := by
    refine ⟨R.inv_step s e h.1 he, ?_⟩
    rw [R.step s e h.1 he]
    exact S.inv_step _ _ h.2 (R.enabled s e h.1 he)
  init s hs := S.init _ (R.init s hs)
  enabled s e h he := S.enabled _ _ h.2 (R.enabled s e h.1 he)
  step s e h he := by
    rw [R.step s e h.1 he]
    exact S.step _ _ h.2 (R.enabled s e h.1 he)

end Simulation

/-! ### Several parties

Where the state lists parties and an event changes or adds one of them, the others are where they
were. -/

theorem getElem?_set_eq_some {l : List σ} {i j : ℕ} {a b x : σ} (h : l[i]? = some a) :
    (l.set i b)[j]? = some x ↔ (j = i ∧ x = b) ∨ (j ≠ i ∧ l[j]? = some x) := by
  have hi : i < l.length := (List.getElem?_eq_some_iff.mp h).1
  by_cases hj : j = i
  · subst hj
    rw [List.getElem?_set_self hi]
    simp [eq_comm]
  · rw [List.getElem?_set_ne (Ne.symm hj)]
    simp [hj]

theorem getElem?_concat_eq_some {l : List σ} {j : ℕ} {b x : σ} :
    (l ++ [b])[j]? = some x ↔ l[j]? = some x ∨ (j = l.length ∧ x = b) := by
  rcases Nat.lt_trichotomy j l.length with hj | rfl | hj
  · rw [List.getElem?_append_left hj]
    simp [hj.ne]
  · simp [eq_comm]
  · rw [List.getElem?_eq_none (by simp; omega), List.getElem?_eq_none hj.le]
    simp [hj.ne']

end EventMachine
