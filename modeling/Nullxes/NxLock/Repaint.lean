import Mathlib.Tactic.Set
import Nullxes.NxLock.State

/-!
# What a repaint does

`repaint_output` in one equation: it changes the output's pool and the `wl_shm` global, and requests
what the pool requests and at most one commit. Everything proved about a repaint is proved from
`LockState.repaintOutput_cases`.
-/

namespace Nullxes

namespace NxLock

open Wlcommon

namespace LockState

variable (s : LockState)

/-- The state with another pool for the output, and after these requests. -/
def repainted (i : ℕ) (out : LockOutput) (shm : Shm)
    (buffer : Option (ShmDoubleBuffer (Option Picture))) (made : List ShmRequest)
    (commit : List Request) : LockState :=
  { s with
    shm := { shm with sent := [] }
    outputs := s.outputs.set i { out with buffer := buffer }
    sent := s.sent ++ made.map .shm ++ commit }

/-- The pool that an output has or gets is drawn into, and what was drawn is committed to the
output's surface. -/
structure Draws (out : LockOutput) (buffer : Option (ShmDoubleBuffer (Option Picture)))
    (commit : List Request) (pool pool' : ShmDoubleBuffer (Option Picture))
    (drawn : DrawnBuffer (Option Picture)) : Prop where
  had : (s.pool out).1 = some pool
  draw : ∃ shm shm', pool.draw shm s.paint = (.ok (pool', drawn), shm')
  buffer : buffer = some pool'
  commit : commit = out.surface.toList.map fun surface => .attachAndCommit surface drawn

/-- **What `repaint_output` does.** Nothing to an output that is not configured. -/
theorem repaintOutput_cases (i : ℕ) :
    s.repaintOutput i = s ∨
      ∃ out shm buffer made commit, s.outputs[i]? = some out ∧ out.configured = true ∧
        s.repaintOutput i = s.repainted i out shm buffer made commit ∧
        ((buffer = (s.pool out).1 ∧ commit = []) ∨
          ∃ pool pool' drawn, s.Draws out buffer commit pool pool' drawn) := by
  cases hout : s.outputs[i]? with
  | none =>
    left
    rw [repaintOutput, hout]
  | some out =>
    cases hc : out.configured with
    | false =>
      left
      rw [repaintOutput, hout]
      simp [hc]
    | true =>
      right
      match hp : s.pool out with
      | (none, shm) =>
        refine ⟨out, shm, none, shm.sent, [], rfl, hc, ?_, .inl ⟨by rw [hp], rfl⟩⟩
        rw [repaintOutput, hout]
        simp [hc, hp, repainted, setShm]
      | (some pool, shm) =>
        set t := { s.setShm shm with outputs := s.outputs.set i { out with buffer := some pool } }
        match hd : pool.draw t.shm t.paint with
        | (.error e, shm') =>
          refine ⟨out, shm', some pool, shm.sent ++ shm'.sent, [], rfl, hc, ?_,
            .inl ⟨by rw [hp], rfl⟩⟩
          rw [repaintOutput, hout]
          dsimp only
          rw [if_neg (by rw [hc]; decide), hp]
          dsimp only
          rw [hd]
          simp [repainted, setShm]
        | (.ok (pool', drawn), shm') =>
          refine ⟨out, shm', some pool', shm.sent ++ shm'.sent, _, rfl, hc, ?_,
            .inr ⟨pool, pool', drawn, by rw [hp], ⟨t.shm, shm', hd⟩, rfl, rfl⟩⟩
          rw [repaintOutput, hout]
          dsimp only
          rw [if_neg (by rw [hc]; decide), hp]
          dsimp only
          rw [hd]
          cases hs : out.surface with
          | none =>
            simp only [repainted, setShm, List.set_set, List.map_append, Option.toList_none,
              List.map_nil, List.append_nil, List.append_assoc]
            rw [hs]
          | some surface =>
            simp only [repainted, setShm, request, List.set_set, List.map_append,
              Option.toList_some, List.map_singleton, List.append_assoc]
            rw [hs]

end LockState

end NxLock

end Nullxes
