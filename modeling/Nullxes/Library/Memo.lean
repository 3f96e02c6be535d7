import Mathlib.Data.List.AList

/-!
# Memo tables

A table that is asked for the value at a key: what it remembers, it returns; what it does not, is
computed, remembered and returned. The value that is computed is passed in, so it may depend on more
than the key, and that it does not is the soundness of the table.

## Main definitions

* `Memo.ask` — one question
* `Memo.Sound` — what is remembered is what a function of the key says

## Main results

* `Memo.Sound.ask_fst`, `Memo.Sound.ask_snd` — a sound table answers as the function, and stays
  sound
-/

universe u v

namespace Memo

variable {κ : Type u} {β : Type v} [DecidableEq κ] {f : κ → β} {t : AList fun _ : κ => β}

/-- What is remembered, or else computed and remembered. -/
def ask (t : AList fun _ : κ => β) (k : κ) (v : β) : β × AList fun _ : κ => β :=
  match t.lookup k with
  | some b => (b, t)
  | none => (v, t.insert k v)

theorem ask_of_some {k : κ} {b : β} (h : t.lookup k = some b) (v : β) : ask t k v = (b, t) := by
  rw [ask, h]

theorem ask_of_none {k : κ} (h : t.lookup k = none) (v : β) :
    ask t k v = (v, t.insert k v) := by
  rw [ask, h]

/-- What is remembered is what `f` says. -/
def Sound (f : κ → β) (t : AList fun _ : κ => β) : Prop := ∀ k b, t.lookup k = some b → b = f k

theorem sound_empty (f : κ → β) : Sound f ∅ := by
  intro k b h
  rw [AList.lookup_empty] at h
  cases h

/-- A sound table answers as the function. -/
theorem Sound.ask_fst (h : Sound f t) (k : κ) : (ask t k (f k)).1 = f k := by
  cases hlookup : t.lookup k with
  | none => rw [ask_of_none hlookup]
  | some b =>
    rw [ask_of_some hlookup]
    exact h k b hlookup

/-- **A question keeps the table sound.** -/
theorem Sound.ask_snd (h : Sound f t) (k : κ) : Sound f (ask t k (f k)).2 := by
  cases hlookup : t.lookup k with
  | none =>
    rw [ask_of_none hlookup]
    intro k' b hb
    by_cases hk : k' = k
    · subst hk
      rw [AList.lookup_insert] at hb
      exact (Option.some.inj hb).symm
    · rw [AList.lookup_insert_ne hk] at hb
      exact h k' b hb
  | some b =>
    rw [ask_of_some hlookup]
    exact h

end Memo
