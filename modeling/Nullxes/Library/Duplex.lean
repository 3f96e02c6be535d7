import Nullxes.Library.EventMachine

/-!
# Two parties joined by two channels

A party is a program that takes messages when it is ready for them, acts on its own account in
between, and sends messages in answer to either. Two parties joined by a pair of in-order channels
that lose nothing are an event machine, so its runs are the interleavings.

## Main results

* `Duplex.assume_guarantee` — two contracts, each relying on what the other guarantees, hold
  together
-/

universe u v

/-- A program that receives messages `ι`, sends messages `o` and acts by itself as `α`. -/
structure Party (σ : Type u) (ι o α : Type v) where
  /-- The states it starts in. -/
  Init : σ → Prop
  /-- It takes the next message, if there is one. -/
  Ready : σ → Prop
  /-- What it becomes and sends when it takes a message. -/
  receive : σ → ι → σ × List o
  /-- It can act so. -/
  Enabled : σ → α → Prop
  /-- What it becomes and sends when it acts. -/
  act : σ → α → σ × List o

namespace Party

variable {σ : Type u} {ι o α : Type v}

/-- As long as every message it takes satisfies `Q`, its states satisfy `I` and what it sends
satisfies `P`. -/
structure Contract (A : Party σ ι o α) (I : σ → Prop) (Q : ι → Prop) (P : o → Prop) : Prop where
  init : ∀ s, A.Init s → I s
  receive : ∀ s m, I s → A.Ready s → Q m →
    I (A.receive s m).1 ∧ ∀ m' ∈ (A.receive s m).2, P m'
  act : ∀ s a, I s → A.Enabled s a → I (A.act s a).1 ∧ ∀ m' ∈ (A.act s a).2, P m'

end Party

namespace Duplex

/-- The two parties and the messages under way, oldest first. -/
structure State (σ τ : Type u) (ι o : Type v) where
  near : σ
  far : τ
  toNear : List ι
  toFar : List o

/-- A party acts, or takes the oldest message addressed to it. -/
inductive Event (α β : Type v)
  | nearAct (a : α)
  | farAct (b : β)
  | nearReceive
  | farReceive

variable {σ τ : Type u} {ι o α β : Type v}

/-- Nothing is under way. -/
def State.Quiet (s : State σ τ ι o) : Prop := s.toNear = [] ∧ s.toFar = []

instance (s : State σ τ ι o) : Decidable s.Quiet :=
  inferInstanceAs (Decidable (_ ∧ _))

/-- The near party has become and sent this. -/
def State.putNear (s : State σ τ ι o) (r : σ × List o) : State σ τ ι o :=
  { s with near := r.1, toFar := s.toFar ++ r.2 }

/-- The far party has become and sent this. -/
def State.putFar (s : State σ τ ι o) (r : τ × List ι) : State σ τ ι o :=
  { s with far := r.1, toNear := s.toNear ++ r.2 }

variable (A : Party σ ι o α) (B : Party τ o ι β)

/-- Two parties joined by two channels. -/
def machine : EventMachine (State σ τ ι o) (Event α β) where
  Init s := A.Init s.near ∧ B.Init s.far ∧ s.Quiet
  Enabled s
    | .nearAct a => A.Enabled s.near a
    | .farAct b => B.Enabled s.far b
    | .nearReceive => s.toNear ≠ [] ∧ A.Ready s.near
    | .farReceive => s.toFar ≠ [] ∧ B.Ready s.far
  step s
    | .nearAct a => s.putNear (A.act s.near a)
    | .farAct b => s.putFar (B.act s.far b)
    | .nearReceive =>
      match s.toNear with
      | [] => s
      | m :: rest => { s with toNear := rest }.putNear (A.receive s.near m)
    | .farReceive =>
      match s.toFar with
      | [] => s
      | m :: rest => { s with toFar := rest }.putFar (B.receive s.far m)

instance [DecidablePred A.Ready] [DecidablePred B.Ready] [∀ s a, Decidable (A.Enabled s a)]
    [∀ s b, Decidable (B.Enabled s b)] (s : State σ τ ι o) (e : Event α β) :
    Decidable ((machine A B).Enabled s e) :=
  match e with
  | .nearAct a => inferInstanceAs (Decidable (A.Enabled s.near a))
  | .farAct b => inferInstanceAs (Decidable (B.Enabled s.far b))
  | .nearReceive => inferInstanceAs (Decidable (s.toNear ≠ [] ∧ A.Ready s.near))
  | .farReceive => inferInstanceAs (Decidable (s.toFar ≠ [] ∧ B.Ready s.far))

/-- Two contracts hold of a state: of each party, and of what is under way. -/
structure Holds (I : σ → Prop) (J : τ → Prop) (Q : ι → Prop) (P : o → Prop)
    (s : State σ τ ι o) : Prop where
  near : I s.near
  far : J s.far
  toNear : ∀ m ∈ s.toNear, Q m
  toFar : ∀ m ∈ s.toFar, P m

variable {A B} {I : σ → Prop} {J : τ → Prop} {Q : ι → Prop} {P : o → Prop} {s : State σ τ ι o}

namespace Holds

theorem putNear (h : Holds I J Q P s) {r : σ × List o} (hr : I r.1 ∧ ∀ m ∈ r.2, P m) :
    Holds I J Q P (s.putNear r) where
  near := hr.1
  far := h.far
  toNear := h.toNear
  toFar m hm := (List.mem_append.mp hm).elim (h.toFar m) (hr.2 m)

theorem putFar (h : Holds I J Q P s) {r : τ × List ι} (hr : J r.1 ∧ ∀ m ∈ r.2, Q m) :
    Holds I J Q P (s.putFar r) where
  near := h.near
  far := hr.1
  toNear m hm := (List.mem_append.mp hm).elim (h.toNear m) (hr.2 m)
  toFar := h.toFar

theorem step (hA : A.Contract I Q P) (hB : B.Contract J P Q) (h : Holds I J Q P s)
    {e : Event α β} (he : (machine A B).Enabled s e) :
    Holds I J Q P ((machine A B).step s e) := by
  cases e with
  | nearAct a => exact h.putNear (hA.act s.near a h.near he)
  | farAct b => exact h.putFar (hB.act s.far b h.far he)
  | nearReceive =>
    obtain ⟨near, far, toNear, toFar⟩ := s
    cases toNear with
    | nil => exact h
    | cons m rest =>
      have hpop : Holds I J Q P (⟨near, far, rest, toFar⟩ : State σ τ ι o) :=
        ⟨h.near, h.far, fun m' hm' => h.toNear m' (List.mem_cons_of_mem m hm'), h.toFar⟩
      exact hpop.putNear (hA.receive near m h.near he.2 (h.toNear m List.mem_cons_self))
  | farReceive =>
    obtain ⟨near, far, toNear, toFar⟩ := s
    cases toFar with
    | nil => exact h
    | cons m rest =>
      have hpop : Holds I J Q P (⟨near, far, toNear, rest⟩ : State σ τ ι o) :=
        ⟨h.near, h.far, h.toNear, fun m' hm' => h.toFar m' (List.mem_cons_of_mem m hm')⟩
      exact hpop.putFar (hB.receive far m h.far he.2 (h.toFar m List.mem_cons_self))

end Holds

/-- **Assume-guarantee.** Each party keeps its contract as long as the other one does; so both
do. -/
theorem assume_guarantee (hA : A.Contract I Q P) (hB : B.Contract J P Q)
    (h : (machine A B).Reachable s) : Holds I J Q P s := by
  refine h.invariant (I := Holds I J Q P) ?_ fun _ _ hs he => hs.step hA hB he
  rintro s ⟨hnear, hfar, htoNear, htoFar⟩
  refine ⟨hA.init _ hnear, hB.init _ hfar, ?_, ?_⟩
  · rw [htoNear]
    simp
  · rw [htoFar]
    simp

end Duplex
