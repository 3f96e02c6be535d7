import Nullxes.Library.EventMachine

/-!
# Threads that sleep on one source

A thread handles the messages of a queue, and sleeps when it has seen to them and there are no more.
What other threads have for it they leave in its state, and that does not wake it: it looks there
only after it has handled a message, before it sleeps again. So whatever they leave while it sleeps
stays where it is until a message comes.

## Main definitions

* `EventLoop` — the thread, and what other threads do to its state
* `EventLoop.machine` — the thread with what has arrived for it
* `EventLoop.State.Asleep` — it sleeps, and there is nothing to wake it

## Main results

* `EventLoop.asleep_run` — while nothing arrives, only the other threads act
* `EventLoop.reachable_main` — what the thread and the others keep, in every state
-/

universe u v w

/-- A thread that handles the messages of a queue. -/
structure EventLoop (σ : Type u) (ε : Type v) (δ : Type w) where
  Start : σ → Prop
  /-- What it does with a message. -/
  handle : σ → ε → σ
  /-- What it does before it sleeps. -/
  poll : σ → σ
  /-- It does not read again. -/
  ends : σ → Bool
  /-- What another thread can do. -/
  CanSide : σ → δ → Prop
  side : σ → δ → σ

namespace EventLoop

/-- The state of the thread, what has arrived and was not handled, and whether it is awake. -/
structure State (σ : Type u) (ε : Type v) where
  main : σ
  arrived : List ε
  awake : Bool

inductive Event (ε : Type v) (δ : Type w)
  /-- A message comes. -/
  | arrive (e : ε)
  /-- The first message is handled. -/
  | handle
  | poll
  /-- Another thread acts. -/
  | side (d : δ)

variable {σ : Type u} {ε : Type v} {δ : Type w} (L : EventLoop σ ε δ)

/-- The thread sleeps, and nothing has arrived. -/
structure State.Asleep (s : State σ ε) : Prop where
  awake : s.awake = false
  arrived : s.arrived = []

/-- What can happen. The thread sleeps until there is a message, and handles as many as it likes
before it sleeps again. -/
def CanStep (s : State σ ε) : Event ε δ → Prop
  | .arrive _ => True
  | .handle => s.arrived.isEmpty = false ∧ (s.awake = true ∨ L.ends s.main = false)
  | .poll => s.awake = true
  | .side d => L.CanSide s.main d

/-- What happens. -/
def step (s : State σ ε) : Event ε δ → State σ ε
  | .arrive e => { s with arrived := s.arrived ++ [e] }
  | .handle =>
    match s.arrived with
    | [] => s
    | e :: rest => ⟨L.handle s.main e, rest, true⟩
  | .poll => { s with main := L.poll s.main, awake := false }
  | .side d => { s with main := L.side s.main d }

/-- The thread with its queue. -/
def machine : EventMachine (State σ ε) (Event ε δ) where
  Init s := L.Start s.main ∧ s.arrived = [] ∧ s.awake = false
  Enabled := L.CanStep
  step := L.step

instance [∀ s d, Decidable (L.CanSide s d)] (s : State σ ε) (e : Event ε δ) :
    Decidable (L.machine.Enabled s e) :=
  match e with
  | .arrive _ => inferInstanceAs (Decidable True)
  | .handle => inferInstanceAs (Decidable (_ ∧ _))
  | .poll => inferInstanceAs (Decidable (s.awake = true))
  | .side d => inferInstanceAs (Decidable (L.CanSide s.main d))

/-- What the other threads do in a run. -/
def sides : List (Event ε δ) → List δ
  | [] => []
  | .side d :: es => d :: sides es
  | _ :: es => sides es

/-- Nothing arrives. -/
def Event.Quiet : Event ε δ → Prop
  | .arrive _ => False
  | _ => True

variable {L} {s : State σ ε} {es : List (Event ε δ)}

/-- **While nothing arrives, only the other threads act**, and the thread stays asleep. -/
theorem asleep_run (hs : s.Asleep) (hl : L.machine.Legal s es) (hq : ∀ e ∈ es, e.Quiet) :
    L.machine.run s es = ⟨(sides es).foldl L.side s.main, [], false⟩ := by
  obtain ⟨main, arrived, awake⟩ := s
  obtain ⟨rfl, rfl⟩ := hs
  induction es generalizing main with
  | nil => rfl
  | cons e es ih =>
    have hrest := ih fun e he => hq e (List.mem_cons_of_mem _ he)
    cases e with
    | arrive e => exact (hq _ List.mem_cons_self).elim
    | handle => cases hl.1.1
    | poll => cases hl.1
    | side d => exact hrest (L.side main d) hl.2

/-- A property of the thread's state that it and the others keep. -/
structure Keeps (L : EventLoop σ ε δ) (I : σ → Prop) : Prop where
  handle : ∀ m e, I m → I (L.handle m e)
  poll : ∀ m, I m → I (L.poll m)
  side : ∀ m d, I m → L.CanSide m d → I (L.side m d)

theorem Keeps.step {I : σ → Prop} (hI : L.Keeps I) {e : Event ε δ} (hs : I s.main)
    (he : L.machine.Enabled s e) : I (L.machine.step s e).main := by
  cases e with
  | arrive e => exact hs
  | handle =>
    obtain ⟨main, _ | ⟨e, rest⟩, awake⟩ := s
    · exact hs
    · exact hI.handle main e hs
  | poll => exact hI.poll _ hs
  | side d => exact hI.side _ d hs he

/-- **What is kept holds in every state.** -/
theorem reachable_main {I : σ → Prop} (hI : L.Keeps I) (h0 : ∀ m, L.Start m → I m)
    (hs : L.machine.Reachable s) : I s.main :=
  hs.invariant (fun _ h => h0 _ h.1) fun _ _ h he => hI.step h he

end EventLoop
