import Nullxes.NxGreet.State
import Mathlib.Tactic.Set

/-!
# What a redraw does

`redraw` in one equation: it changes the pool and the `wl_shm` global, and requests what the pool
requests and at most one commit. Everything that keys do ends in one, or leaves the surface alone.
-/

namespace Nullxes

namespace NxGreet

open Wlcommon

namespace GreetState

variable (s : GreetState)

/-- The state with another pool, and after these requests. -/
def redrawn (shm : Shm) (buffer : Option (ShmDoubleBuffer (Option Picture)))
    (made : List ShmRequest) (commit : List WlRequest) : GreetState :=
  { s with
    shm := { shm with sent := [] }, buffer := buffer, sent := s.sent ++ made.map .shm ++ commit }

/-- The pool that there is or that is made is drawn into, and what was drawn is committed. -/
structure Draws (buffer : Option (ShmDoubleBuffer (Option Picture))) (commit : List WlRequest)
    (pool pool' : ShmDoubleBuffer (Option Picture)) (drawn : DrawnBuffer (Option Picture)) :
    Prop where
  had : s.pool.1 = some pool
  draw : ∃ shm shm', pool.draw shm s.paint = (.ok (pool', drawn), shm')
  buffer : buffer = some pool'
  commit : commit = if s.surface then [.attachAndCommit drawn] else []

/-- **What `redraw` does.** Nothing before the first configure. -/
theorem redraw_cases :
    s.redraw = s ∨
      ∃ shm buffer made commit, s.configured = true ∧
        s.redraw = s.redrawn shm buffer made commit ∧
        ((buffer = s.pool.1 ∧ commit = []) ∨
          ∃ pool pool' drawn, s.Draws buffer commit pool pool' drawn) := by
  cases hc : s.configured with
  | false =>
    left
    rw [redraw, hc]
    rfl
  | true =>
    right
    match hp : s.pool with
    | (none, shm) =>
      refine ⟨shm, none, shm.sent, [], rfl, ?_, .inl ⟨rfl, rfl⟩⟩
      rw [redraw]
      simp [hc, hp, redrawn, setShm]
    | (some pool, shm) =>
      set t := { s.setShm shm with buffer := some pool }
      match hd : pool.draw t.shm t.paint with
      | (.error e, shm') =>
        refine ⟨shm', some pool, shm.sent ++ shm'.sent, [], rfl, ?_, .inl ⟨rfl, rfl⟩⟩
        rw [redraw]
        dsimp only
        rw [if_neg (by rw [hc]; decide), hp]
        dsimp only
        rw [hd]
        simp [redrawn, setShm]
      | (.ok (pool', drawn), shm') =>
        refine ⟨shm', some pool', shm.sent ++ shm'.sent, _, rfl, ?_,
          .inr ⟨pool, pool', drawn, hp ▸ rfl, ⟨t.shm, shm', hd⟩, rfl, rfl⟩⟩
        rw [redraw]
        dsimp only
        rw [if_neg (by rw [hc]; decide), hp]
        dsimp only
        rw [hd]
        cases hs : s.surface <;> simp [redrawn, setShm, request, hs]

end GreetState

end NxGreet

end Nullxes
