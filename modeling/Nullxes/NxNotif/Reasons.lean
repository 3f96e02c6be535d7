import Nullxes.NxNotif.Delivery

/-!
# The reasons that are signalled

What is closed goes over `tx_closed` as an id, and the relay signals reason 1 for every one. So a
signal tells the truth as long as the notification it is about expired.

## Main definitions

* `Cause.reason` — the reason that the documentation of the signal gives for a cause
* `Truthful`, `OnlyExpired` — what should hold of the signals, and of what the relay passes on

## Main results

* `reasons_truthful_iff`
-/

namespace Nullxes

namespace NxNotif

/-- 1 is for what expired, 2 for what was dismissed and 3 for what was closed by a call. What was
taken for such a call is none of these. -/
def Cause.reason : Cause → Option UInt32
  | .timeout => some 1
  | .compositor => some 2
  | .request => some 3
  | .misread => none

/-- Every signal carries the reason that its notification was closed for. -/
def Truthful (d : Daemon) : Prop :=
  ∀ sig ∈ d.signals, ∀ reason ∈ sig.closing.cause.reason, sig.reason = reason

/-- What the relay passes on, and is not told that it has missed, expired or has no reason. -/
def OnlyExpired (d : Daemon) : DaemonEvent → Prop
  | .relay => d.thread.txClosed.length ≤ d.received + closedCapacity →
    ∀ c ∈ d.thread.txClosed[d.received]?, c.cause = .timeout ∨ c.cause = .misread
  | _ => True

/-- The reason that is always sent is the right one for what expired, and for nothing else. -/
theorem reason_one_iff (cause : Cause) :
    (∀ reason ∈ cause.reason, 1 = reason) ↔ cause = .timeout ∨ cause = .misread := by
  cases cause <;> simp [Cause.reason]

/-- One more signal with reason 1. -/
theorem truthful_concat_iff {d : Daemon} (h : Truthful d) {received : ℕ} {c : Closing} :
    Truthful { d with received := received, signals := d.signals ++ [⟨c, 1⟩] } ↔
      ∀ reason ∈ c.cause.reason, 1 = reason := by
  constructor
  · intro hall
    exact hall ⟨c, 1⟩ (List.mem_append_right _ (List.mem_singleton.mpr rfl))
  · intro hc sig hsig
    rcases List.mem_append.mp hsig with hsig | hsig
    · exact h sig hsig
    · rw [List.mem_singleton.mp hsig]
      exact hc

/-- **A step keeps the signals truthful** exactly if the relay passes on what expired. -/
theorem truthful_step_iff {d : Daemon} (h : Truthful d) (e : DaemonEvent) :
    Truthful (d.step e) ↔ OnlyExpired d e := by
  have hsame : ∀ {d' : Daemon}, d'.signals = d.signals → Truthful d' := by
    intro d' heq
    unfold Truthful
    rw [heq]
    exact h
  cases e with
  | relay =>
    show Truthful d.relay ↔ _
    rcases d.relay_cases with ⟨hlag, heq⟩ | ⟨hle, ⟨heq, hdone⟩ | ⟨c, hc, heq⟩⟩
    · rw [heq]
      exact iff_of_true (hsame rfl) fun hle => absurd hlag (Nat.not_lt_of_le hle)
    · have hnone : d.thread.txClosed[d.received]? = none := List.getElem?_eq_none_iff.mpr hdone
      rw [heq]
      refine iff_of_true h fun _ c hc => ?_
      rw [hnone] at hc
      cases hc
    · rw [heq, truthful_concat_iff h, reason_one_iff]
      simp only [OnlyExpired, hle, forall_true_left, hc, Option.mem_def, Option.some.injEq,
        forall_eq']
  | send i => exact iff_of_true (hsame (d.signals_send i)) trivial
  | receive => exact iff_of_true (hsame d.signals_receive) trivial
  | _ => exact iff_of_true (hsame rfl) trivial

/-- **When the reasons are truthful**: in the runs in which the relay passes on only what expired,
or was taken for a close request. -/
theorem reasons_truthful_iff (failure : ℕ → Option String) (clock : ℕ → ℕ)
    {es : List DaemonEvent} (h : (daemon failure clock).Legal (.new failure clock) es) :
    (daemon failure clock).Always Truthful (.new failure clock) es ↔
      (daemon failure clock).EachStep OnlyExpired (.new failure clock) es :=
  EventMachine.always_iff_eachStep (I := fun _ => True) (fun _ _ _ _ => trivial)
    (fun _ e _ hd _ => truthful_step_iff hd e) trivial nofun h

theorem reasons_truthful_iff_expired :
    (daemon (fun _ => none) fun n => n * 10000000000).Always Truthful
        (.new (fun _ => none) fun n => n * 10000000000) expired ↔
      (daemon (fun _ => none) fun n => n * 10000000000).EachStep OnlyExpired
        (.new (fun _ => none) fun n => n * 10000000000) expired :=
  reasons_truthful_iff (fun _ => none) (fun n => n * 10000000000) (by decide)

/-- A toast that is closed by a call is signalled to have expired. -/
theorem not_reasons_truthful :
    ¬ ∀ (failure : ℕ → Option String) (clock : ℕ → ℕ) (es : List DaemonEvent),
      (daemon failure clock).Legal (.new failure clock) es →
      (daemon failure clock).Always Truthful (.new failure clock) es := by
  intro h
  have hall := h (fun _ => none) (fun _ => 0)
    (delivered (say 0) ++ [.closeNotification 1, .send 0, .receive, .relay]) (by decide)
  have hreason := hall.last _ (List.mem_singleton.mpr rfl) 3 rfl
  exact absurd hreason (by decide)

end NxNotif

end Nullxes
