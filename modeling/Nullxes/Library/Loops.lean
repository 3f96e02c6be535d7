import Mathlib.Data.Nat.Notation

/-!
# Computations that may panic

A computation that stops where an index is out of range is an `Option`: `none` is the panic.
`Yields` says that there is none, and what holds of the result. The rules are those of a program
logic: one for each way to continue, and for a loop the invariant rule.

Two computations are compared by `Option.Rel`: both panic, or neither does and their results are
related. Its rules are the same ones, over pairs.

## Main results

* `Loops.Yields.bind`, `Loops.yields_foldlM` — a sequence, and a loop
* `Loops.yields_foldlM_trace` — a loop, with what each of its rounds did
* `Loops.rel_bind`, `Loops.rel_foldlM`, `Loops.rel_foldlM_range'` — two sequences, and two loops,
  where the relation may depend on the round
-/

universe u v

namespace Loops

variable {σ : Type u} {τ : Type v} {α : Type v} {P : σ → Prop} {Q : τ → Prop} {c : Option σ}

/-- The computation does not panic, and what it returns is as `P` says. -/
def Yields (P : σ → Prop) (c : Option σ) : Prop := ∃ s, c = some s ∧ P s

theorem yields_some {s : σ} (h : P s) : Yields P (some s) := ⟨s, rfl, h⟩

theorem Yields.bind (h : Yields P c) {f : σ → Option τ} (hf : ∀ s, P s → Yields Q (f s)) :
    Yields Q (c.bind f) := by
  obtain ⟨s, rfl, hs⟩ := h
  exact hf s hs

theorem Yields.of_eq_some (h : Yields P c) {s : σ} (hc : c = some s) : P s := by
  obtain ⟨s', hs', hP⟩ := h
  obtain rfl := Option.some.inj (hs'.symm.trans hc)
  exact hP

/-- **The loop rule.** What each round keeps, the loop keeps. -/
theorem yields_foldlM {f : σ → α → Option σ} {l : List α}
    (hf : ∀ s, P s → ∀ a ∈ l, Yields P (f s a)) {s : σ} (hs : P s) :
    Yields P (l.foldlM f s) := by
  induction l generalizing s with
  | nil => exact yields_some hs
  | cons a l ih =>
    rw [List.foldlM_cons]
    refine (hf s hs a List.mem_cons_self).bind fun s' hs' => ?_
    exact ih (fun t ht b hb => hf t ht b (List.mem_cons_of_mem _ hb)) hs'

/-- **The loop rule with a trace.** If a relation between two states records what was done, the
last in front, that of a loop is what its rounds did. -/
theorem yields_foldlM_trace {ε : Type v} {R : List ε → σ → σ → Prop} (hnil : ∀ s, R [] s s)
    (happend : ∀ {es fs : List ε} {s t u : σ}, R es s t → R fs t u → R (fs ++ es) s u)
    {f : σ → α → Option σ} {es : α → List ε} {l : List α}
    (hf : ∀ s, ∀ a ∈ l, Yields (R (es a) s) (f s a)) (s : σ) :
    Yields (R (l.reverse.flatMap es) s) (l.foldlM f s) := by
  induction l generalizing s with
  | nil => exact yields_some (hnil s)
  | cons a l ih =>
    rw [List.foldlM_cons]
    refine (hf s a List.mem_cons_self).bind fun t ht => ?_
    obtain ⟨u, hu, htu⟩ := ih (fun t b hb => hf t b (List.mem_cons_of_mem _ hb)) t
    refine ⟨u, hu, ?_⟩
    have htrace : (a :: l).reverse.flatMap es = l.reverse.flatMap es ++ es a := by
      rw [List.reverse_cons, List.flatMap_append, List.flatMap_singleton]
    rw [htrace]
    exact happend ht htu

/-! ## Two computations -/

section

variable {σ' : Type u} {τ' : Type v} {R : σ → σ' → Prop} {S : τ → τ' → Prop} {c' : Option σ'}

theorem rel_bind (h : Option.Rel R c c') {f : σ → Option τ} {g : σ' → Option τ'}
    (hfg : ∀ s s', R s s' → Option.Rel S (f s) (g s')) : Option.Rel S (c.bind f) (c'.bind g) := by
  cases h with
  | none => exact .none
  | some hs => exact hfg _ _ hs

theorem rel_map (h : Option.Rel R c c') {f : σ → τ} {g : σ' → τ'}
    (hfg : ∀ s s', R s s' → S (f s) (g s')) : Option.Rel S (c.map f) (c'.map g) := by
  cases h with
  | none => exact .none
  | some hs => exact .some (hfg _ _ hs)

/-- **The loop rule for two loops** that go through the same list. -/
theorem rel_foldlM {f : σ → α → Option σ} {g : σ' → α → Option σ'} {l : List α}
    (hfg : ∀ s s', R s s' → ∀ a ∈ l, Option.Rel R (f s a) (g s' a)) {s : σ} {s' : σ'}
    (hs : R s s') : Option.Rel R (l.foldlM f s) (l.foldlM g s') := by
  induction l generalizing s s' with
  | nil => exact .some hs
  | cons a l ih =>
    rw [List.foldlM_cons, List.foldlM_cons]
    refine rel_bind (hfg s s' hs a List.mem_cons_self) fun t t' ht => ?_
    exact ih (fun u u' hu b hb => hfg u u' hu b (List.mem_cons_of_mem _ hb)) ht

/-- **The loop rule for two counting loops**, whose relation is that of the round. -/
theorem rel_foldlM_range' {R : ℕ → σ → σ' → Prop} {f : σ → ℕ → Option σ} {g : σ' → ℕ → Option σ'}
    {a n : ℕ}
    (hfg : ∀ k, a ≤ k → k < a + n → ∀ s s', R k s s' → Option.Rel (R (k + 1)) (f s k) (g s' k))
    {s : σ} {s' : σ'} (hs : R a s s') :
    Option.Rel (R (a + n)) ((List.range' a n).foldlM f s) ((List.range' a n).foldlM g s') := by
  induction n generalizing a s s' with
  | zero => exact .some hs
  | succ n ih =>
    rw [List.range'_succ, List.foldlM_cons, List.foldlM_cons]
    refine rel_bind (hfg a (Nat.le_refl a) (by omega) s s' hs) fun t t' ht => ?_
    have hrest := ih (fun k hk hlt => hfg k (by omega) (by omega)) ht
    rwa [show a + 1 + n = a + (n + 1) by omega] at hrest

end

end Loops
