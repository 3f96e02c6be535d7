import Nullxes.Library.EventMachine

/-!
# Two runs side by side

Two runs of one machine, event by event: `E` says which event may stand for which where the first
run has come to. A relation of the states that every such pair of events keeps holds of where the
runs end, and what the first run may do the second one may do as well.

## Main results

* `EventMachine.SideBySide.run` — the rule of the relational invariant
-/

universe u v

namespace EventMachine

variable {σ : Type u} {ε : Type v} (M : EventMachine σ ε)

/-- Two runs of the same length, each event of the first one with one that may stand for it. -/
def SideBySide (E : σ → ε → ε → Prop) : σ → List ε → List ε → Prop
  | _, [], [] => True
  | s, e :: es, f :: fs => E s e f ∧ SideBySide E (M.step s e) es fs
  | _, _, _ => False

variable {M} {E : σ → ε → ε → Prop} {R : σ → σ → Prop}

/-- **The rule of the relational invariant.** -/
theorem SideBySide.run
    (hstep : ∀ s t e f, R s t → M.Enabled s e → E s e f →
      M.Enabled t f ∧ R (M.step s e) (M.step t f))
    {s t : σ} {es fs : List ε} (h : M.SideBySide E s es fs) (hR : R s t) (hl : M.Legal s es) :
    M.Legal t fs ∧ R (M.run s es) (M.run t fs) := by
  induction es generalizing s t fs with
  | nil =>
    cases fs with
    | nil => exact ⟨trivial, hR⟩
    | cons f fs => cases h
  | cons e es ih =>
    cases fs with
    | nil => cases h
    | cons f fs =>
      obtain ⟨hef, hrest⟩ := h
      obtain ⟨henabled, hnext⟩ := hstep s t e f hR hl.1 hef
      obtain ⟨hlegal, hlast⟩ := ih hrest hnext hl.2
      exact ⟨⟨henabled, hlegal⟩, hlast⟩

end EventMachine
