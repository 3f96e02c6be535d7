import Nullxes.Library.EventMachine
import Nullxes.NxNotif.Toasts

/-!
# Slots and the queue

A notification waits only while all slots are taken, as long as every slot that is freed is filled
again. Slots are freed in three places; only a message that adds a notification fills them, so what
is closed and what has had its time leaves a free slot until the next one comes.

## Main definitions

* `ThreadStep`, `Round` — the parts of a round of the loop, and rounds
* `Filled` — no notification waits for a free slot
* `Refills` — no slot is freed for good while a notification waits

## Main results

* `filled_foldl_iff` — when the parts of a round leave nothing stranded
* `no_stranded_iff` — the same for all rounds of a run
-/

namespace Nullxes

namespace NxNotif

/-- A part of a round. -/
inductive ThreadStep
  | receive (n : Notif)
  | dispatch (e : ServerEvent)
  | tick
  deriving DecidableEq, Repr

/-- A round of the loop: what is received, and what is dispatched. -/
structure Round where
  messages : List Notif
  events : List ServerEvent
  deriving DecidableEq, Repr

/-- The parts of a round, in order. -/
def Round.steps (r : Round) : List ThreadStep :=
  r.messages.map .receive ++ r.events.map .dispatch ++ [.tick]

namespace WaylandThreadState

variable {s : WaylandThreadState} {e : ThreadStep}

/-- What a part of a round does. -/
def act (s : WaylandThreadState) : ThreadStep → WaylandThreadState
  | .receive n => s.receive n
  | .dispatch e => s.dispatch e
  | .tick => s.tickTimeouts

theorem iterate_eq (s : WaylandThreadState) (r : Round) :
    s.iterate r.messages r.events = r.steps.foldl act s := by
  rw [iterate, drain, Round.steps, List.foldl_append, List.foldl_append, List.foldl_map,
    List.foldl_map]
  rfl

/-- No notification waits while there is a free slot. -/
def Filled (s : WaylandThreadState) : Prop := s.queue ≠ [] → s.visible.length = maxVisible

instance (s : WaylandThreadState) : Decidable s.Filled := inferInstanceAs (Decidable (_ → _))

/-- The message adds a notification. -/
def adds (s : WaylandThreadState) : ThreadStep → Bool
  | .receive n => !n.isClose && !s.isVisible n.id
  | _ => false

/-- A slot is freed. -/
def frees (s : WaylandThreadState) : ThreadStep → Bool
  | .receive n => n.isClose && s.isVisible n.id
  | .dispatch e => s.dismisses e
  | .tick => s.expires

/-- A notification is added in one of these parts. -/
def addsLater : WaylandThreadState → List ThreadStep → Bool
  | _, [] => false
  | s, e :: es => s.adds e || (s.act e).addsLater es

/-- A slot that is freed while a notification waits is followed by a notification that is added. -/
def Refills : WaylandThreadState → List ThreadStep → Prop
  | _, [] => True
  | s, e :: es =>
    (s.frees e = true → s.queue ≠ [] → (s.act e).addsLater es = true) ∧ (s.act e).Refills es

instance decidableRefills : (s : WaylandThreadState) → (es : List ThreadStep) →
    Decidable (s.Refills es)
  | _, [] => inferInstanceAs (Decidable True)
  | s, e :: es =>
    haveI := decidableRefills (s.act e) es
    inferInstanceAs (Decidable (_ ∧ _))

/-! ## One part of a round -/

/-- Adding a notification fills the slots. -/
theorem act_adds (hs : s.visible.length ≤ maxVisible) (h : s.adds e = true) :
    (s.act e).Filled ∧ (s.act e).visible.length ≤ maxVisible := by
  cases e with
  | receive n =>
    obtain ⟨hclose, hvis⟩ : n.isClose = false ∧ s.isVisible n.id = false := by
      simpa [adds] using h
    have hact : s.act (.receive n) = s.enqueue n := receive_eq_enqueue hclose
    obtain ⟨hv, hq, -⟩ := enqueue_new hvis
    have hlen := congrArg List.length hv
    rw [length_notifs, List.length_append, length_notifs, List.length_take] at hlen
    rw [hact]
    refine ⟨fun hne => ?_, by omega⟩
    have hroom : maxVisible - s.visible.length < (s.queue ++ [n]).length := by
      rw [hq, ne_eq, List.drop_eq_nil_iff] at hne
      omega
    omega
  | dispatch e => cases h
  | tick => cases h

/-- Anything else leaves the queue, and closes what it closes. -/
theorem act_closes (h : s.adds e = false) :
    (s.act e).queue = s.queue ∧ (s.act e).visible.length ≤ s.visible.length ∧
      ((s.act e).visible.length = s.visible.length ↔ s.frees e = false) := by
  have hcloses : ∀ {t : WaylandThreadState} {cs : List Closing} {b : Bool}, s.Closes t cs →
      (cs = [] ↔ b = false) → t.queue = s.queue ∧ t.visible.length ≤ s.visible.length ∧
        (t.visible.length = s.visible.length ↔ b = false) := by
    intro t cs b hc hb
    have hlen := hc.length
    refine ⟨hc.queue, by omega, ?_⟩
    rw [← hb, ← List.length_eq_zero_iff]
    omega
  cases e with
  | receive n =>
    cases hclose : n.isClose with
    | true =>
      obtain ⟨cs, hc, hcs⟩ := receive_close (s := s) hclose
      exact hcloses hc (by simpa [frees, hclose] using hcs)
    | false =>
      have hvis : s.isVisible n.id = true := by simpa [adds, hclose] using h
      obtain ⟨i, hi, -, hv, hq, -⟩ := enqueue_visible hvis
      have hlen := congrArg List.length hv
      rw [length_notifs, List.length_set, length_notifs] at hlen
      have hact : s.act (.receive n) = s.enqueue n := receive_eq_enqueue hclose
      rw [hact, hlen]
      simp [hq, frees, hclose]
  | dispatch e =>
    obtain ⟨cs, hc, hcs⟩ := s.dispatch_closes e
    exact hcloses hc hcs
  | tick =>
    obtain ⟨cs, hc, hcs⟩ := s.tick_closes
    exact hcloses hc hcs

theorem act_bounded (hs : s.visible.length ≤ maxVisible) (e : ThreadStep) :
    (s.act e).visible.length ≤ maxVisible := by
  cases h : s.adds e with
  | true => exact (act_adds hs h).2
  | false => exact (act_closes h).2.1.trans hs

/-- Without a notification that is added, the slots stay filled if none is freed while one waits. -/
theorem filled_act_iff (hs : s.visible.length ≤ maxVisible) (h : s.adds e = false) :
    (s.act e).Filled ↔ s.Filled ∧ (s.frees e = true → s.queue = []) := by
  obtain ⟨hq, hle, hfrees⟩ := act_closes h
  unfold Filled
  rw [hq]
  cases hf : s.frees e with
  | true =>
    have hlt : (s.act e).visible.length ≠ s.visible.length := by rw [ne_eq, hfrees, hf]; simp
    have hnot : (s.act e).visible.length ≠ maxVisible := by omega
    constructor
    · intro hall
      have hnil : s.queue = [] := by
        by_contra hne
        exact hnot (hall hne)
      exact ⟨fun hne => absurd hnil hne, fun _ => hnil⟩
    · rintro ⟨-, hnil⟩ hne
      exact absurd (hnil rfl) hne
  | false =>
    rw [hfrees.mpr hf]
    simp

/-! ## A round -/

/-- **When the parts of a round leave nothing stranded.** -/
theorem filled_foldl_iff (hs : s.visible.length ≤ maxVisible) (es : List ThreadStep) :
    (es.foldl act s).Filled ↔ (s.addsLater es = false → s.Filled) ∧ s.Refills es := by
  induction es generalizing s with
  | nil => simp [addsLater, Refills]
  | cons e es ih =>
    rw [List.foldl_cons, ih (act_bounded hs e), addsLater, Refills]
    cases hlater : (s.act e).addsLater es with
    | true => simp
    | false =>
      cases hadds : s.adds e with
      | true =>
        have hnofree : s.frees e = false := by
          cases e with
          | receive n =>
            have hclose : n.isClose = false := by
              simp only [adds, Bool.and_eq_true, Bool.not_eq_true'] at hadds
              exact hadds.1
            simp [frees, hclose]
          | dispatch e => cases hadds
          | tick => cases hadds
        simp [hnofree, (act_adds hs hadds).1]
      | false =>
        simp only [Bool.or_false, forall_true_left, filled_act_iff hs hadds, and_assoc]
        refine and_congr_right fun _ => and_congr_left fun _ => ?_
        exact ⟨fun h hf hne => absurd (h hf) hne, fun h hf => by_contra fun hne => nomatch h hf hne⟩

theorem foldl_act_bounded (hs : s.visible.length ≤ maxVisible) (es : List ThreadStep) :
    (es.foldl act s).visible.length ≤ maxVisible := by
  induction es generalizing s with
  | nil => exact hs
  | cons e es ih => exact ih (act_bounded hs e)

end WaylandThreadState

/-! ## Runs -/

/-- The thread, round by round. -/
def waylandThread (failure : ℕ → Option String) (clock : ℕ → ℕ) :
    EventMachine WaylandThreadState Round where
  Init s := s = .new failure clock
  Enabled _ _ := True
  step s r := s.iterate r.messages r.events

/-- **When no notification is stranded.** After every round each slot is taken or nothing waits,
exactly if in each round a slot that is freed while a notification waits is followed by a message
that adds a notification. -/
theorem no_stranded_iff (failure : ℕ → Option String) (clock : ℕ → ℕ) {rs : List Round} :
    (waylandThread failure clock).Always WaylandThreadState.Filled (.new failure clock) rs ↔
      (waylandThread failure clock).EachStep (fun s r => s.Refills r.steps)
        (.new failure clock) rs := by
  have hlegal : (waylandThread failure clock).Legal (.new failure clock) rs :=
    EventMachine.legal_of_enabled (fun _ _ => trivial) _ rs
  refine EventMachine.always_iff_eachStep (I := fun s => s.visible.length ≤ maxVisible)
    (fun s r hs _ => ?_) (fun s r hs hfilled _ => ?_) (Nat.zero_le _) (fun h => absurd rfl h)
    hlegal
  · show (s.iterate r.messages r.events).visible.length ≤ maxVisible
    rw [s.iterate_eq r]
    exact WaylandThreadState.foldl_act_bounded hs _
  · show (s.iterate r.messages r.events).Filled ↔ s.Refills r.steps
    rw [s.iterate_eq r, WaylandThreadState.filled_foldl_iff hs]
    exact and_iff_right fun _ => hfilled

/-- The notification of the call that gets this id, with nothing but a summary. -/
def plain (id : UInt32) : Notif := ⟨id, "", "", "a", "", [], .normal, 5000, some (id.toNat - 1)⟩

/-- One notification more than there are slots, and a request to close the first. -/
def dismissed : List Round := [⟨[1, 2, 3, 4, 5, 6].map plain, []⟩, ⟨[.closeFor 1], []⟩]

/-- What is closed leaves a free slot, and a notification that waits. -/
theorem not_no_stranded :
    ¬ ∀ (failure : ℕ → Option String) (clock : ℕ → ℕ) (rs : List Round),
      (waylandThread failure clock).Always WaylandThreadState.Filled (.new failure clock) rs := by
  intro h
  exact absurd (h (fun _ => none) (fun _ => 0) dismissed).last (by decide)

end NxNotif

end Nullxes
