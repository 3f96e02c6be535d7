/-!
# A part of a state that is kept apart

A compartment of a state can be read and replaced. Two states are alike if they differ in it at
most, and what is in the one compartment is related to what is in the other. What neither looks at a
compartment nor changes it is blind to it, and keeps states alike whatever the relation is; what
does look at it has to be argued about.

## Main results

* `Compartment.Blind.alike` — what is blind keeps states alike
* `Compartment.Alike.congr` — what is read elsewhere is the same in alike states
-/

universe u v w

/-- A part of a state. -/
structure Compartment (σ : Type u) (κ : Type v) where
  get : σ → κ
  put : σ → κ → σ
  get_put : ∀ s k, get (put s k) = k
  put_get : ∀ s, put s (get s) = s

namespace Compartment

variable {σ : Type u} {κ : Type v} (L : Compartment σ κ)

/-- The two states differ in the compartment at most, and there they are related. -/
def Alike (R : κ → κ → Prop) (s s' : σ) : Prop := ∃ k, s' = L.put s k ∧ R (L.get s) k

/-- What is done neither looks at the compartment nor changes it. -/
def Blind (f : σ → σ) : Prop := ∀ s k, f (L.put s k) = L.put (f s) k

variable {L} {R : κ → κ → Prop} {s s' : σ} {f : σ → σ}

theorem Blind.get_eq (hf : L.Blind f) (s : σ) : L.get (f s) = L.get s := by
  have hself : f s = L.put (f s) (L.get s) := by
    rw [← hf, L.put_get]
  rw [hself, L.get_put]

/-- **What is blind keeps states alike.** -/
theorem Blind.alike (hf : L.Blind f) (h : L.Alike R s s') : L.Alike R (f s) (f s') := by
  obtain ⟨k, rfl, hk⟩ := h
  exact ⟨k, hf s k, (hf.get_eq s).symm ▸ hk⟩

namespace Alike

theorem refl (hR : ∀ k, R k k) (s : σ) : L.Alike R s s := ⟨L.get s, (L.put_get s).symm, hR _⟩

/-- What is read elsewhere is the same. -/
theorem congr {β : Type w} (h : L.Alike R s s') (g : σ → β) (hg : ∀ s k, g (L.put s k) = g s) :
    g s' = g s := by
  obtain ⟨k, rfl, -⟩ := h
  exact hg s k

theorem rel (h : L.Alike R s s') : R (L.get s) (L.get s') := by
  obtain ⟨k, rfl, hk⟩ := h
  rwa [L.get_put]

theorem ite {c : Prop} [Decidable c] {a a' b b' : σ} (ha : L.Alike R a a') (hb : L.Alike R b b') :
    L.Alike R (if c then a else b) (if c then a' else b') := by
  split
  · exact ha
  · exact hb

theorem foldl {α : Type w} {f : σ → α → σ}
    (hf : ∀ {s s'} a, L.Alike R s s' → L.Alike R (f s a) (f s' a)) (h : L.Alike R s s')
    (l : List α) : L.Alike R (l.foldl f s) (l.foldl f s') := by
  induction l generalizing s s' with
  | nil => exact h
  | cons a l ih => exact ih (hf a h)

end Alike

end Compartment
