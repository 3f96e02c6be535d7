import Nullxes.Library.Logs
import Nullxes.NxLock.Auth
import Nullxes.Wlcommon.Pool

/-!
# What the lock client commits

The sizes of what the lock client commits, against the sizes it acknowledged. The pool of an output
is made at its first repaint, of the size the output has then, and no later configure changes it; so
a commit has the configured size as long as no configure asks for another one once there is a pool,
and no mode of the output comes between the configure and the pool.

## Main definitions

* `PaintEntry`, `paintLaw` — configures and requests, and what may be committed
* `Painter`, `painter` — the lock client with that log
* `Steady` — the steps that leave the sizes as they are

## Main results

* `LockState.repaintAll_paints` — what a repaint commits
* `paint_lawful` — every commit of a steady run has the size of the last configure
-/

namespace Nullxes

namespace NxLock

open Wlcommon

/-! ## The log -/

/-- A configure that is acknowledged, or a request. -/
inductive PaintEntry
  | configured (lockSurface : Proxy) (width height : UInt32)
  | request (r : Request)
  deriving DecidableEq, Repr

/-- The size of a configure of this lock surface. -/
def PaintEntry.sizeOf (ls : Proxy) : PaintEntry → Option (UInt32 × UInt32)
  | .configured ls' w h => if ls' = ls then some (w, h) else none
  | .request _ => none

/-- The size of the last configure of a lock surface. -/
def lastConfigure (log : List PaintEntry) (ls : Proxy) : Option (UInt32 × UInt32) :=
  (log.filterMap (PaintEntry.sizeOf ls)).getLast?

/-- **The law.** What is committed to the surface of a lock surface has the size of the lock
surface's last configure. -/
def paintLaw (past : List PaintEntry) : PaintEntry → Prop
  | .request (.attachAndCommit surface drawn) =>
    ∃ ls, (∃ lock output, .request (.getLockSurface lock ls surface output) ∈ past) ∧
      lastConfigure past ls = some (drawn.w, drawn.h)
  | _ => True

/-- The lock surfaces that a surface was given. -/
def roles (log : List PaintEntry) (surface : Proxy) : List Proxy :=
  log.filterMap fun
    | .request (.getLockSurface _ ls surface' _) => if surface' = surface then some ls else none
    | _ => none

theorem mem_roles {log : List PaintEntry} {surface ls : Proxy} :
    ls ∈ roles log surface ↔
      ∃ lock output, .request (.getLockSurface lock ls surface output) ∈ log := by
  rw [roles, List.mem_filterMap]
  constructor
  · rintro ⟨e, he, heq⟩
    split at heq
    next lock ls' surface' output =>
      split at heq
      next hs =>
        cases heq
        exact ⟨lock, output, hs ▸ he⟩
      next => cases heq
    next => cases heq
  · rintro ⟨lock, output, he⟩
    exact ⟨_, he, if_pos rfl⟩

instance (past : List PaintEntry) (e : PaintEntry) : Decidable (paintLaw past e) := by
  unfold paintLaw
  split
  next surface drawn =>
    exact decidable_of_iff
      (∃ ls ∈ roles past surface, lastConfigure past ls = some (drawn.w, drawn.h)) <| by
        simp only [mem_roles]
  next => infer_instance

section Log

variable {log : List PaintEntry} {ls ls' : Proxy} {w h : UInt32}

theorem lastConfigure_configured_self :
    lastConfigure (log ++ [.configured ls w h]) ls = some (w, h) := by
  simp [lastConfigure, PaintEntry.sizeOf]

theorem lastConfigure_configured_of_ne (hne : ls ≠ ls') :
    lastConfigure (log ++ [.configured ls w h]) ls' = lastConfigure log ls' := by
  simp [lastConfigure, PaintEntry.sizeOf, hne]

@[simp] theorem lastConfigure_requests (rs : List Request) :
    lastConfigure (log ++ rs.map .request) ls = lastConfigure log ls := by
  have hnone : (rs.map PaintEntry.request).filterMap (PaintEntry.sizeOf ls) = [] := by
    simp [List.filterMap_map, PaintEntry.sizeOf, Function.comp_def]
  rw [lastConfigure, List.filterMap_append, hnone, List.append_nil, lastConfigure]

/-- More requests change nothing of what may be committed. -/
theorem paintLaw.mono {e : PaintEntry} (he : paintLaw log e) (rs : List Request) :
    paintLaw (log ++ rs.map .request) e := by
  cases e with
  | configured ls w h => trivial
  | request r =>
    cases r with
    | attachAndCommit surface drawn =>
      obtain ⟨ls, ⟨lock, output, hrole⟩, hlast⟩ := he
      exact ⟨ls, ⟨lock, output, List.mem_append_left _ hrole⟩, by simpa using hlast⟩
    | _ => trivial

theorem lawful_requests {rs : List Request} (hrs : ∀ r ∈ rs, paintLaw log (.request r)) :
    Logs.Lawful (fun pre => paintLaw (log ++ pre)) (rs.map .request) :=
  Logs.lawful_map hrs fun _ before hr => hr.mono before

end Log

/-! ## Lists of which one element changes -/

theorem map_set_of_eq {α β : Type} {g : α → β} {l : List α} {i : ℕ} {a b : α} (hi : l[i]? = some a)
    (hab : g b = g a) : (l.set i b).map g = l.map g := by
  obtain ⟨hlt, rfl⟩ := List.getElem?_eq_some_iff.mp hi
  rw [List.map_set, hab, ← List.getElem_map g (h := by simpa using hlt), List.set_getElem_self]

theorem map_modify_of_eq {α β : Type} {g : α → β} {f : α → α} (hf : ∀ a, g (f a) = g a)
    (l : List α) (i : ℕ) : (l.modify i f).map g = l.map g := by
  refine List.ext_getElem? fun j => ?_
  rw [List.getElem?_map, List.getElem?_map, List.getElem?_modify]
  cases l[j]? with
  | none => rfl
  | some a =>
    show some (g (if i = j then f a else a)) = some (g a)
    split
    · rw [hf]
    · rfl

theorem modify_eq_set_of_getElem? {α : Type} {f : α → α} {l : List α} {i : ℕ} {a : α}
    (hi : l[i]? = some a) : l.modify i f = l.set i (f a) := by
  refine List.ext_getElem? fun j => ?_
  rw [List.getElem?_modify]
  by_cases hij : i = j
  · subst hij
    rw [hi, List.getElem?_set_self (List.getElem?_eq_some_iff.mp hi).1]
    simp
  · rw [List.getElem?_set_ne hij]
    simp [hij]

theorem mem_modify {α : Type} {f : α → α} {l : List α} {i : ℕ} {b : α} (h : b ∈ l.modify i f) :
    ∃ j a, l[j]? = some a ∧ (j = i ∧ b = f a ∨ j ≠ i ∧ b = a) := by
  obtain ⟨j, hj⟩ := List.mem_iff_getElem?.mp h
  rw [List.getElem?_modify] at hj
  obtain ⟨a, ha, rfl⟩ := Option.map_eq_some_iff.mp hj
  refine ⟨j, a, ha, ?_⟩
  by_cases hij : i = j
  · exact .inl ⟨hij.symm, if_pos hij⟩
  · exact .inr ⟨Ne.symm hij, if_neg hij⟩

/-- A name stands in one place. -/
theorem index_eq_of_nodup_filterMap {α β : Type} {f : α → Option β} {l : List α} {i j : ℕ}
    {a b : α} {x : β} (h : (l.filterMap f).Nodup) (hi : l[i]? = some a) (hj : l[j]? = some b)
    (ha : f a = some x) (hb : f b = some x) : i = j := by
  have hpair := List.pairwise_filterMap.mp h
  obtain ⟨hi', rfl⟩ := List.getElem?_eq_some_iff.mp hi
  obtain ⟨hj', rfl⟩ := List.getElem?_eq_some_iff.mp hj
  rcases Nat.lt_trichotomy i j with hlt | heq | hlt
  · exact absurd rfl (List.pairwise_iff_getElem.mp hpair i j hi' hj' hlt x ha x hb)
  · exact heq
  · exact absurd rfl (List.pairwise_iff_getElem.mp hpair j i hj' hi' hlt x hb x ha)

/-- Exchanging an element without a name for one with a new name keeps the names apart. -/
theorem nodup_filterMap_set {α β : Type} {f : α → Option β} {l : List α} {i : ℕ} {a b : α} {x : β}
    (hl : (l.filterMap f).Nodup) (hi : l[i]? = some a) (ha : f a = none) (hb : f b = some x)
    (hx : ∀ a ∈ l, x ∉ f a) : ((l.set i b).filterMap f).Nodup := by
  obtain ⟨hlt, rfl⟩ := List.getElem?_eq_some_iff.mp hi
  have hsplit : l.filterMap f = (l.take i).filterMap f ++ (l.drop (i + 1)).filterMap f := by
    conv_lhs => rw [← List.take_append_drop i l, List.drop_eq_getElem_cons hlt]
    rw [List.filterMap_append, List.filterMap_cons_none ha]
  rw [List.set_eq_take_append_cons_drop, if_pos hlt, List.filterMap_append,
    List.filterMap_cons_some hb, List.nodup_middle, ← hsplit, List.nodup_cons]
  refine ⟨fun hmem => ?_, hl⟩
  obtain ⟨a, ha, hfa⟩ := List.mem_filterMap.mp hmem
  exact hx a ha hfa

/-! ## The outputs -/

/-- An output as the log has it. -/
structure LockOutput.Fitting (o : LockOutput) (log : List PaintEntry) : Prop where
  role : ∀ ls ∈ o.lockSurface, ∃ surface lock, o.surface = some surface ∧
    .request (.getLockSurface lock ls surface o.output) ∈ log
  unconfigured : o.configured = false → o.buffer = none
  configured : o.configured = true → ∃ ls w h, o.lockSurface = some ls ∧
    lastConfigure log ls = some (w, h) ∧
    ∀ pool ∈ o.buffer, pool.w = w ∧ pool.h = h ∧ ∀ b ∈ pool.buffers, b.w = pool.w ∧ b.h = pool.h

/-- The pool that a repaint would make has the configured size. -/
def LockOutput.Ready (o : LockOutput) (log : List PaintEntry) : Prop :=
  o.configured = true → o.buffer = none →
    ∀ ls ∈ o.lockSurface, lastConfigure log ls = some (o.width, o.height)

/-- A client as the log has it. -/
structure Fitting (s : LockState) (log : List PaintEntry) : Prop where
  made : ∀ o ∈ s.outputs, ∀ ls ∈ o.lockSurface, ls < s.nextProxy
  distinct : (s.outputs.filterMap LockOutput.lockSurface).Nodup
  each : ∀ o ∈ s.outputs, o.Fitting log

/-- What a repaint does to a client: every commit is within the law. -/
structure Paints (log : List PaintEntry) (s s' : LockState) : Prop where
  fitting : Fitting s' log
  ready : (∀ o ∈ s.outputs, o.Ready log) → ∀ o ∈ s'.outputs, o.Ready log
  sent : ∃ new, s'.sent = s.sent ++ new ∧ ∀ r ∈ new, paintLaw log (.request r)

theorem LockOutput.Fitting.mono {o : LockOutput} {log : List PaintEntry} (h : o.Fitting log)
    (rs : List Request) : o.Fitting (log ++ rs.map .request) where
  role ls hls := by
    obtain ⟨surface, lock, hs, hrole⟩ := h.role ls hls
    exact ⟨surface, lock, hs, List.mem_append_left _ hrole⟩
  unconfigured := h.unconfigured
  configured hc := by simpa using h.configured hc

/-- A configure of another lock surface. -/
theorem LockOutput.Fitting.configure_other {o : LockOutput} {log : List PaintEntry}
    (ho : o.Fitting log) {ls : Proxy} {w hgt : UInt32} (hne : o.lockSurface ≠ some ls) :
    o.Fitting (log ++ [.configured ls w hgt]) := by
  refine ⟨fun ls' hls' => ?_, ho.unconfigured, fun hc => ?_⟩
  · obtain ⟨surface, lock, hs, hrole⟩ := ho.role ls' hls'
    exact ⟨surface, lock, hs, List.mem_append_left _ hrole⟩
  · obtain ⟨ls', w', h', hls', hlast, hrest⟩ := ho.configured hc
    have hne' : ls ≠ ls' := fun heq => hne (heq ▸ hls')
    exact ⟨ls', w', h', hls', by rwa [lastConfigure_configured_of_ne hne'], hrest⟩

/-- A configure of its own lock surface, to the size that the pool has. -/
theorem LockOutput.Fitting.configure_own {o : LockOutput} {log : List PaintEntry}
    (ho : o.Fitting log) {ls : Proxy} {w hgt : UInt32} (hls : o.lockSurface = some ls)
    (hpool : ∀ pool ∈ o.buffer, pool.w = w ∧ pool.h = hgt) :
    LockOutput.Fitting { o with width := max w 1, height := max hgt 1, configured := true }
      (log ++ [.configured ls w hgt]) := by
  refine ⟨fun ls' hl => ?_, fun hno => absurd hno Bool.noConfusion, fun _ => ?_⟩
  · obtain ⟨surface, lock, hs, hrole⟩ := ho.role ls' hl
    exact ⟨surface, lock, hs, List.mem_append_left _ hrole⟩
  · refine ⟨ls, w, hgt, hls, lastConfigure_configured_self, fun pool hp => ?_⟩
    obtain ⟨hw, hh⟩ := hpool pool hp
    refine ⟨hw, hh, ?_⟩
    have hp' : o.buffer = some pool := hp
    cases hc : o.configured with
    | false =>
      rw [ho.unconfigured hc] at hp'
      cases hp'
    | true =>
      obtain ⟨_, _, _, _, _, hsize⟩ := ho.configured hc
      exact (hsize pool hp').2.2

theorem Fitting.mono {s : LockState} {log : List PaintEntry} (h : Fitting s log)
    (rs : List Request) : Fitting s (log ++ rs.map .request) :=
  ⟨h.made, h.distinct, fun o ho => (h.each o ho).mono rs⟩

theorem Fitting.congr {s s' : LockState} {log : List PaintEntry} (h : Fitting s log)
    (ho : s'.outputs = s.outputs) (hp : s'.nextProxy = s.nextProxy) : Fitting s' log :=
  ⟨by rw [ho, hp]; exact h.made, by rw [ho]; exact h.distinct, by rw [ho]; exact h.each⟩

/-- The outputs have the lock surfaces they had. -/
theorem Fitting.of_outputs {s s' : LockState} {log log' : List PaintEntry} (h : Fitting s log)
    (hls : s'.outputs.map LockOutput.lockSurface = s.outputs.map LockOutput.lockSurface)
    (hp : s'.nextProxy = s.nextProxy) (heach : ∀ o ∈ s'.outputs, o.Fitting log') :
    Fitting s' log' := by
  have hfilter : ∀ l : List LockOutput, l.filterMap LockOutput.lockSurface =
      (l.map LockOutput.lockSurface).filterMap id := by
    intro l
    rw [List.filterMap_map]
    rfl
  refine ⟨fun o ho ls ho' => ?_, ?_, heach⟩
  · have hmem : some ls ∈ s'.outputs.map LockOutput.lockSurface :=
      List.mem_map.mpr ⟨o, ho, ho'⟩
    rw [hls] at hmem
    obtain ⟨o', hmem', heq⟩ := List.mem_map.mp hmem
    rw [hp]
    exact h.made o' hmem' ls heq
  · rw [hfilter, hls, ← hfilter]
    exact h.distinct

/-- An output of the list is exchanged for one with the same lock surface. -/
theorem Fitting.set {s s' : LockState} {log : List PaintEntry} (h : Fitting s log) {i : ℕ}
    {out out' : LockOutput} (hout : s.outputs[i]? = some out) (hfit : out'.Fitting log)
    (hls : out'.lockSurface = out.lockSurface)
    (ho : s'.outputs = s.outputs.set i out') (hp : s'.nextProxy = s.nextProxy) :
    Fitting s' log := by
  refine h.of_outputs ?_ hp fun o ho' => ?_
  · rw [ho, map_set_of_eq hout hls]
  · rw [ho] at ho'
    rcases List.mem_or_eq_of_mem_set ho' with ho' | rfl
    · exact h.each o ho'
    · exact hfit

/-- A lock surface belongs to one output. -/
theorem Fitting.index_eq {s : LockState} {log : List PaintEntry} (h : Fitting s log) {i j : ℕ}
    {o o' : LockOutput} {ls : Proxy} (hi : s.outputs[i]? = some o) (hj : s.outputs[j]? = some o')
    (ho : o.lockSurface = some ls) (ho' : o'.lockSurface = some ls) : i = j :=
  index_eq_of_nodup_filterMap h.distinct hi hj ho ho'

namespace Paints

variable {log : List PaintEntry} {s s' s'' : LockState}

theorem refl (h : Fitting s log) : Paints log s s :=
  ⟨h, id, [], by rw [List.append_nil], nofun⟩

theorem trans (h : Paints log s s') (h' : Paints log s' s'') : Paints log s s'' := by
  obtain ⟨new, hnew, hn⟩ := h.sent
  obtain ⟨new', hnew', hn'⟩ := h'.sent
  refine ⟨h'.fitting, h'.ready ∘ h.ready, new ++ new', ?_, fun r hr => ?_⟩
  · rw [hnew', hnew, List.append_assoc]
  · exact (List.mem_append.mp hr).elim (hn r) (hn' r)

end Paints

/-! ## Repaints -/

namespace LockState

variable {log : List PaintEntry}

/-- The pool of an output, or a new one of the output's size. -/
theorem pool_cases (s : LockState) (out : LockOutput) {pool : ShmDoubleBuffer (Option Picture)}
    (h : (s.pool out).1 = some pool) : out.buffer = some pool ∨
      out.buffer = none ∧ pool.w = out.width ∧ pool.h = out.height ∧
        ∀ b ∈ pool.buffers, b.w = pool.w ∧ b.h = pool.h := by
  rw [LockState.pool] at h
  split at h
  next p hp => exact .inl (hp.trans h)
  next hnone =>
    split at h
    next b shm hnew =>
      cases h
      obtain ⟨hw, hh, hs⟩ := ShmDoubleBuffer.new_ok hnew
      exact .inr ⟨hnone, hw, hh, hs.size⟩
    next => cases h

/-- The pool that is painted into has the configured size. -/
theorem pool_size {s : LockState} {out : LockOutput} (hfit : out.Fitting log)
    (hready : out.Ready log) (hc : out.configured = true)
    {pool : ShmDoubleBuffer (Option Picture)} (h : (s.pool out).1 = some pool) :
    ∃ ls, out.lockSurface = some ls ∧ lastConfigure log ls = some (pool.w, pool.h) ∧
      ∀ b ∈ pool.buffers, b.w = pool.w ∧ b.h = pool.h := by
  obtain ⟨ls, w, h', hls, hlast, hpool⟩ := hfit.configured hc
  refine ⟨ls, hls, ?_⟩
  rcases s.pool_cases out h with hbuf | ⟨hbuf, hw, hh, hs⟩
  · obtain ⟨hw, hh, hs⟩ := hpool pool hbuf
    exact ⟨by rw [hlast, hw, hh], hs⟩
  · exact ⟨by rw [hready hc hbuf ls hls, hw, hh], hs⟩

/-- A pool that is not drawn in has the size of the last configure. -/
theorem pool_fits {s : LockState} {out : LockOutput} (hfit : out.Fitting log)
    (hready : out.Ready log) (hc : out.configured = true) {buffer}
    (hbuf : buffer = (s.pool out).1) :
    LockOutput.Fitting { out with buffer := buffer } log ∧
      LockOutput.Ready { out with buffer := buffer } log := by
  refine ⟨⟨hfit.role, fun hu => by simp [hc] at hu, fun _ => ?_⟩, fun _ hb => ?_⟩
  · obtain ⟨ls, w, h', hls, hlast, -⟩ := hfit.configured hc
    refine ⟨ls, w, h', hls, hlast, fun pool hpool => ?_⟩
    have hpool' : buffer = some pool := hpool
    obtain ⟨ls', hls', hlast', hs⟩ := pool_size hfit hready hc (hbuf ▸ hpool')
    rw [hls] at hls'
    cases hls'
    rw [hlast] at hlast'
    cases hlast'
    exact ⟨rfl, rfl, hs⟩
  · have hb' : buffer = none := hb
    refine hready hc ?_
    rw [hbuf] at hb'
    rw [LockState.pool] at hb'
    split at hb'
    next => cases hb'
    next hnone => exact hnone

/-- So has one that is drawn in, and nothing goes out but what was drawn. -/
theorem drawn_fits {s : LockState} {out : LockOutput} (hfit : out.Fitting log)
    (hready : out.Ready log) (hc : out.configured = true) {buffer commit pool pool' drawn}
    (hd : s.Draws out buffer commit pool pool' drawn) :
    LockOutput.Fitting { out with buffer := buffer } log ∧
      LockOutput.Ready { out with buffer := buffer } log ∧
        ∀ r ∈ commit, paintLaw log (.request r) := by
  obtain ⟨ls, hls, hlast, hs⟩ := pool_size hfit hready hc hd.had
  obtain ⟨shm₁, shm₂, hdraw⟩ := hd.draw
  obtain ⟨hw, hh, hs', hdw, hdh⟩ := ShmDoubleBuffer.draw_size hs hdraw
  refine ⟨⟨hfit.role, fun hu => by simp [hc] at hu, fun _ => ?_⟩, fun _ hb => ?_, ?_⟩
  · refine ⟨ls, pool.w, pool.h, hls, hlast, fun p hp => ?_⟩
    have hp' : buffer = some p := hp
    rw [hd.buffer] at hp'
    cases hp'
    exact ⟨hw, hh, hs'⟩
  · have hb' : buffer = none := hb
    rw [hd.buffer] at hb'
    cases hb'
  · rw [hd.commit]
    intro r hr
    obtain ⟨surface, hsurf, rfl⟩ := List.mem_map.mp hr
    obtain ⟨surface', lock, hsurf', hrole⟩ := hfit.role ls hls
    rw [hsurf', Option.toList_some, List.mem_singleton] at hsurf
    subst hsurf
    exact ⟨ls, ⟨lock, _, hrole⟩, by rw [hlast, hdw, hdh]⟩

/-- **What a repaint of an output commits.** -/
theorem repaintOutput_paints {s : LockState} (h : Fitting s log) {i : ℕ}
    (hr : ∀ o, s.outputs[i]? = some o → o.Ready log) : Paints log s (s.repaintOutput i) := by
  rcases s.repaintOutput_cases i with heq | ⟨out, shm, buffer, made, commit, hout, hc, heq, hcases⟩
  · rw [heq]
    exact .refl h
  rw [heq]
  have hfit := h.each out (List.mem_of_getElem? hout)
  have hready := hr out hout
  obtain ⟨hfit', hready', hcommit⟩ : LockOutput.Fitting { out with buffer := buffer } log ∧
      LockOutput.Ready { out with buffer := buffer } log ∧
      ∀ r ∈ commit, paintLaw log (.request r) := by
    rcases hcases with ⟨hbuf, hnone⟩ | ⟨pool, pool', drawn, hd⟩
    · obtain ⟨hfit', hready'⟩ := pool_fits hfit hready hc hbuf
      exact ⟨hfit', hready', by simp [hnone]⟩
    · exact drawn_fits hfit hready hc hd
  refine ⟨h.set hout hfit' rfl rfl rfl, fun hall o ho => ?_, made.map .shm ++ commit, ?_, ?_⟩
  · rcases List.mem_or_eq_of_mem_set ho with ho | rfl
    · exact hall o ho
    · exact hready'
  · exact List.append_assoc _ _ _
  · intro r hr
    rcases List.mem_append.mp hr with hr | hr
    · obtain ⟨q, -, rfl⟩ := List.mem_map.mp hr
      trivial
    · exact hcommit r hr

/-- **What a repaint commits.** -/
theorem repaintAll_paints {s : LockState} (h : Fitting s log)
    (hr : ∀ o ∈ s.outputs, o.Ready log) : Paints log s s.repaintAll := by
  have hfold : ∀ (l : List ℕ) (s : LockState), Fitting s log → (∀ o ∈ s.outputs, o.Ready log) →
      Paints log s (l.foldl repaintOutput s) := by
    intro l
    induction l with
    | nil => exact fun s h _ => .refl h
    | cons i l ih =>
      intro s h hr
      have hone : Paints log s (s.repaintOutput i) :=
        repaintOutput_paints h fun o ho => hr o (List.mem_of_getElem? ho)
      exact hone.trans (ih _ hone.fitting (hone.ready hr))
  exact hfold _ s h hr

/-! ## Lock surfaces -/

end LockState

/-- `attach` and `commit`. -/
def Request.isCommit : Request → Bool
  | .attachAndCommit .. => true
  | _ => false

theorem paintLaw_of_not_commit {log : List PaintEntry} {r : Request} (h : r.isCommit = false) :
    paintLaw log (.request r) := by
  cases r with
  | attachAndCommit surface drawn => cases h
  | _ => trivial

/-- A client that requests something on the way to another state, as the log has it then. -/
def Steps (log : List PaintEntry) (s s' : LockState) : Prop :=
  ∃ new, s'.sent = s.sent ++ new ∧ (∀ r ∈ new, paintLaw log (.request r)) ∧
    Fitting s' (log ++ new.map .request)

/-- Nothing is committed on the way. -/
def Binds (log : List PaintEntry) (s s' : LockState) : Prop :=
  ∃ new, s'.sent = s.sent ++ new ∧ (∀ r ∈ new, r.isCommit = false) ∧
    Fitting s' (log ++ new.map .request)

theorem Binds.steps {log : List PaintEntry} {s s' : LockState} (h : Binds log s s') :
    Steps log s s' := by
  obtain ⟨new, hnew, hn, hfit⟩ := h
  exact ⟨new, hnew, fun r hr => paintLaw_of_not_commit (hn r hr), hfit⟩

theorem Binds.of_fitting {log : List PaintEntry} {s s' : LockState} (h : Fitting s' log)
    (hs : s'.sent = s.sent) : Binds log s s' :=
  ⟨[], by rw [hs, List.append_nil], nofun, by simpa using h⟩

theorem Binds.trans {log : List PaintEntry} {s s' s'' : LockState} (h : Binds log s s')
    (h' : ∀ log', Fitting s' log' → Binds log' s' s'') : Binds log s s'' := by
  obtain ⟨new, hnew, hn, hfit⟩ := h
  obtain ⟨new', hnew', hn', hfit'⟩ := h' _ hfit
  refine ⟨new ++ new', by rw [hnew', hnew, List.append_assoc], fun r hr => ?_, ?_⟩
  · exact (List.mem_append.mp hr).elim (hn r) (hn' r)
  · rwa [List.map_append, ← List.append_assoc]

namespace LockState

variable {log : List PaintEntry}

theorem createLockSurfaceFor_binds {s : LockState} (h : Fitting s log) (i : ℕ) (lock : Proxy) :
    Binds log s (s.createLockSurfaceFor i lock) := by
  rw [createLockSurfaceFor]
  split
  · exact .of_fitting h rfl
  next out hout =>
  split
  · exact .of_fitting h rfl
  next hnone =>
  have hls : out.lockSurface = none := by simpa using hnone
  have hmem : out ∈ s.outputs := List.mem_of_getElem? hout
  have hconf : out.configured = false := by
    by_contra hc
    obtain ⟨ls, -, -, hsome, -⟩ := (h.each out hmem).configured (by simpa using hc)
    rw [hls] at hsome
    cases hsome
  refine ⟨_, rfl, by simp [Request.isCommit], ⟨fun o ho ls hls' => ?_, ?_, fun o ho => ?_⟩⟩
  · rcases List.mem_or_eq_of_mem_set ho with ho | rfl
    · exact (h.made o ho ls hls').trans (Nat.lt_add_of_pos_right Nat.two_pos)
    · cases hls'
      exact Nat.lt_succ_self _
  · refine nodup_filterMap_set h.distinct hout hls rfl fun o ho hname => ?_
    exact absurd (h.made o ho _ hname) (Nat.not_lt_of_le (Nat.le_succ _))
  · rcases List.mem_or_eq_of_mem_set ho with ho | rfl
    · exact (h.each o ho).mono _
    · refine ⟨fun ls hls' => ?_, fun _ => (h.each out hmem).unconfigured hconf, fun hc => ?_⟩
      · cases hls'
        exact ⟨_, lock, rfl, by simp⟩
      · rw [hconf] at hc
        cases hc

theorem dispatchLocked_binds {s : LockState} (h : Fitting s log) (lock : Proxy) :
    Binds log s (s.dispatchLocked lock) := by
  have hfold : ∀ (l : List ℕ) (s : LockState) (log : List PaintEntry), Fitting s log →
      Binds log s (l.foldl (fun s i => s.createLockSurfaceFor i lock) s) := by
    intro l
    induction l with
    | nil => exact fun s log h => .of_fitting h rfl
    | cons i l ih => exact fun s log h => (createLockSurfaceFor_binds h i lock).trans (ih _)
  have hlocked : Fitting { s with locked := true } log := h.congr rfl rfl
  exact hfold _ _ _ hlocked

theorem dispatchMode_binds {s : LockState} (h : Fitting s log) (output : Proxy)
    (width height : Int32) : Binds log s (s.dispatchMode output width height) := by
  obtain ⟨outputs, hout, hpick⟩ := s.dispatchMode_cases output width height
  have hfit : Fitting { s with outputs := outputs } log := by
    rcases hout with ⟨idx, -, rfl⟩ | ⟨-, rfl⟩
    · have hsized : ∀ o : LockOutput, o.Fitting log →
          LockOutput.Fitting { o with width := width.toUInt32, height := height.toUInt32 } log :=
        fun o ho => ⟨ho.role, ho.unconfigured, ho.configured⟩
      refine h.of_outputs ?_ rfl fun o ho => ?_
      · exact map_modify_of_eq (g := LockOutput.lockSurface) (by exact fun _ => rfl) _ _
      · obtain ⟨j, o', hj, ⟨-, rfl⟩ | ⟨-, rfl⟩⟩ := mem_modify ho
        · exact hsized o' (h.each o' (List.mem_of_getElem? hj))
        · exact h.each o (List.mem_of_getElem? hj)
    · refine ⟨fun o ho ls hls => ?_, ?_, fun o ho => ?_⟩
      · rcases List.mem_append.mp ho with ho | ho
        · exact h.made o ho ls hls
        · rw [List.mem_singleton.mp ho] at hls
          cases hls
      · show (List.filterMap _ (s.outputs ++ _)).Nodup
        rw [List.filterMap_append, List.filterMap_cons_none rfl, List.filterMap_nil,
          List.append_nil]
        exact h.distinct
      · rcases List.mem_append.mp ho with ho | ho
        · exact h.each o ho
        · rw [List.mem_singleton.mp ho]
          refine ⟨fun ls hls => ?_, fun _ => rfl, fun hc => ?_⟩
          · cases hls
          · cases hc
  have hsame : Binds log s { s with outputs := outputs } := .of_fitting hfit rfl
  rcases hpick with ⟨-, heq⟩ | ⟨lock, -, heq⟩
  · rwa [heq]
  · rw [heq]
    exact hsame.trans fun log' ht => createLockSurfaceFor_binds ht _ lock

theorem dispatchRelease_fitting {s : LockState} (h : Fitting s log) (wlBuf : ℕ) :
    Fitting (s.dispatchRelease wlBuf) log := by
  refine h.of_outputs ?_ rfl fun o ho => ?_
  · show (s.outputs.map _).map _ = _
    rw [List.map_map]
    rfl
  · obtain ⟨o', ho', rfl⟩ := List.mem_map.mp ho
    have hfit := h.each o' ho'
    refine ⟨hfit.role, fun hu => ?_, fun hc => ?_⟩
    · show o'.buffer.map _ = none
      rw [hfit.unconfigured hu]
      rfl
    · obtain ⟨ls, w, h', hls, hlast, hpool⟩ := hfit.configured hc
      refine ⟨ls, w, h', hls, hlast, fun pool hp => ?_⟩
      obtain ⟨pool', hp', rfl⟩ := Option.map_eq_some_iff.mp hp
      obtain ⟨hw, hh, hs⟩ := hpool pool' hp'
      exact ⟨hw, hh, ShmDoubleBuffer.markReleased_size hs wlBuf⟩

theorem max_one {w : UInt32} (h : w ≠ 0) : max w 1 = w := by
  show (if w ≤ 1 then 1 else w) = w
  split
  next hle =>
    rw [ne_eq, ← UInt32.toNat_inj] at h
    rw [UInt32.le_iff_toNat_le] at hle
    rw [← UInt32.toNat_inj]
    exact Nat.le_antisymm (Nat.one_le_iff_ne_zero.mpr h) hle
  next => rfl

/-- A configure of the size that the pool has, if there is one. -/
theorem dispatchConfigure_steps {s : LockState} (h : Fitting s log) {ls : Proxy} {w hgt : UInt32}
    (serial : UInt32) (hw : w ≠ 0) (hh : hgt ≠ 0)
    (hpool : ∀ o ∈ s.outputs, o.lockSurface = some ls → ∀ pool ∈ o.buffer,
      pool.w = w ∧ pool.h = hgt) :
    Steps (log ++ [.configured ls w hgt]) s (s.dispatchConfigure ls serial w hgt) := by
  rw [dispatchConfigure]
  split
  next hnone =>
    refine ⟨[.ackConfigure ls serial], rfl, fun r hr => ?_, Fitting.mono ?_ _⟩
    · rw [List.mem_singleton.mp hr]
      trivial
    · refine h.of_outputs rfl rfl fun o ho => (h.each o ho).configure_other ?_
      simpa using List.findIdx?_eq_none_iff.mp hnone o ho
  next idx hidx =>
    obtain ⟨hlt, hls, -⟩ := List.findIdx?_eq_some_iff_getElem.mp hidx
    have hout : s.outputs[idx]? = some s.outputs[idx] := List.getElem?_eq_getElem hlt
    have hls' : s.outputs[idx].lockSurface = some ls := of_decide_eq_true hls
    -- The configure reaches the one output that has the lock surface.
    have hfit : Fitting
        { s.request (.ackConfigure ls serial) with
          outputs := s.outputs.modify idx fun o =>
            { o with width := max w 1, height := max hgt 1, configured := true } }
        (log ++ [.configured ls w hgt]) := by
      refine h.of_outputs ?_ rfl fun o ho => ?_
      · exact map_modify_of_eq (g := LockOutput.lockSurface) (by exact fun _ => rfl) _ _
      obtain ⟨j, o', hj, ⟨rfl, rfl⟩ | ⟨hne, rfl⟩⟩ := mem_modify ho
      · rw [hout] at hj
        cases hj
        have hmem : s.outputs[j] ∈ s.outputs := List.getElem_mem hlt
        exact (h.each _ hmem).configure_own hls' (hpool _ hmem hls')
      · refine (h.each o (List.mem_of_getElem? hj)).configure_other fun hl => hne ?_
        exact h.index_eq hj hout hl hls'
    have hpaint := repaintOutput_paints (i := idx) hfit fun o ho => by
      rw [List.getElem?_modify_eq, hout] at ho
      cases ho
      intro _ _ ls' hl
      rw [hls'] at hl
      cases hl
      rw [lastConfigure_configured_self, max_one hw, max_one hh]
    obtain ⟨new, hnew, hn⟩ := hpaint.sent
    refine ⟨.ackConfigure ls serial :: new, hnew.trans (List.append_assoc _ _ _), fun r hr => ?_,
      hpaint.fitting.mono _⟩
    rcases List.mem_cons.mp hr with rfl | hr
    · trivial
    · exact hn r hr

/-- A state that differs in what is painted only. -/
theorem repaintAll_steps {s t : LockState} (h : Fitting s log) (hr : ∀ o ∈ s.outputs, o.Ready log)
    (ho : t.outputs = s.outputs) (hp : t.nextProxy = s.nextProxy) (hs : t.sent = s.sent) :
    Steps log s t.repaintAll := by
  have hpaint := repaintAll_paints (h.congr ho hp) (by rwa [ho])
  obtain ⟨new, hnew, hn⟩ := hpaint.sent
  exact ⟨new, by rw [hnew, hs], hn, hpaint.fitting.mono new⟩

theorem steps_of_eq {s t : LockState} (h : Fitting s log) (ho : t.outputs = s.outputs)
    (hp : t.nextProxy = s.nextProxy) (hs : t.sent = s.sent) : Steps log s t :=
  (Binds.of_fitting (h.congr ho hp) hs).steps

theorem dispatchKey_steps {s : LockState} (h : Fitting s log)
    (hr : ∀ o ∈ s.outputs, o.Ready log) (key : UInt32) (pressed : Bool) :
    Steps log s (s.dispatchKey key pressed) := by
  have hsame : Steps log s s := steps_of_eq h rfl rfl rfl
  rw [dispatchKey]
  split
  · cases s.keymap.processKey key with
    | action a =>
      cases a with
      | enter =>
        show Steps log s s.submitPassword
        rw [submitPassword]
        split
        · exact hsame
        · obtain ⟨new, hnew, hn, hfit⟩ : Steps log s { s with pending := true }.repaintAll :=
            repaintAll_steps (t := { s with pending := true }) h hr rfl rfl rfl
          exact ⟨new, hnew, hn, hfit.congr rfl rfl⟩
      | backspace => exact repaintAll_steps h hr rfl rfl rfl
      | escape => exact repaintAll_steps h hr rfl rfl rfl
      | _ => exact hsame
    | text t =>
      show Steps log s (s.handleText t)
      rw [handleText]
      split
      · exact repaintAll_steps h hr rfl rfl rfl
      · exact hsame
    | none => exact hsame
  · exact hsame

theorem tryRecv_steps {s : LockState} (h : Fitting s log) (hr : ∀ o ∈ s.outputs, o.Ready log) :
    Steps log s s.tryRecv := by
  rw [tryRecv]
  split
  · exact steps_of_eq h rfl rfl rfl
  next r rest _ =>
    cases r with
    | ok =>
      simp only [takeResult]
      split
      next lock _ =>
        exact ⟨[.unlockAndDestroy lock], rfl, by simp [paintLaw],
          (h.mono [.unlockAndDestroy lock]).congr rfl rfl⟩
      next => exact steps_of_eq h rfl rfl rfl
    | fail reason => exact repaintAll_steps h hr rfl rfl rfl

end LockState

/-! ## The client -/

/-- The lock client, with its configures and requests. -/
structure Painter where
  client : LockState
  log : List PaintEntry

/-- The configure that is acknowledged. -/
def acknowledged : Exchange ServerEvent → List PaintEntry
  | .dispatch (.configure ls _ w h) => [.configured ls w h]
  | _ => []

/-- What a step does to the client. -/
def LockState.exchange (s : LockState) (e : Exchange ServerEvent) : LockState :=
  ((⟨s, [], []⟩ : Session LockState).exchange e).state

/-- What a step adds to the log. -/
def Painter.entries (p : Painter) (e : Exchange ServerEvent) : List PaintEntry :=
  acknowledged e ++ ((p.client.exchange e).sent.drop p.client.sent.length).map .request

/-- The lock client from its loop on. -/
def painter (username : String) (failure : ℕ → Option String) :
    EventMachine Painter (Exchange ServerEvent) where
  Init p := p = ⟨(LockState.new username failure).engage,
    (LockState.new username failure).engage.sent.map .request⟩
  Enabled p e := Session.canExchange p.client.checking p.client.requests e
  step p e := ⟨p.client.exchange e, p.log ++ p.entries e⟩

/-- A configure asks for a proper size, and for that of the pool if there is one; what is painted
without a configure and has no pool yet still has its configured size. -/
def Steady (p : Painter) : Exchange ServerEvent → Prop
  | .dispatch (.configure ls _ w h) => w ≠ 0 ∧ h ≠ 0 ∧ ∀ o ∈ p.client.outputs,
    o.lockSurface = some ls → ∀ pool ∈ o.buffer, pool.w = w ∧ pool.h = h
  | .dispatch (.key ..) | .tryRecv => ∀ o ∈ p.client.outputs, o.Ready p.log
  | _ => True

instance (o : LockOutput) (log : List PaintEntry) : Decidable (o.Ready log) :=
  inferInstanceAs (Decidable (_ → _ → ∀ ls ∈ o.lockSurface,
    lastConfigure log ls = some (o.width, o.height)))

instance (p : Painter) (e : Exchange ServerEvent) : Decidable (Steady p e) := by
  unfold Steady
  split <;> infer_instance

theorem Painter.steps {p : Painter} (h : Fitting p.client p.log) {e : Exchange ServerEvent}
    (hs : Steady p e) : Steps (p.log ++ acknowledged e) p.client (p.client.exchange e) := by
  have hfit : Fitting p.client (p.log ++ []) := by rwa [List.append_nil]
  cases e with
  | dispatch ev =>
    cases ev with
    | configure ls serial w hgt =>
      exact LockState.dispatchConfigure_steps h serial hs.1 hs.2.1 hs.2.2
    | locked => exact (LockState.dispatchLocked_binds hfit _).steps
    | mode output w hgt => exact (LockState.dispatchMode_binds hfit output w hgt).steps
    | key key pressed =>
      refine LockState.dispatchKey_steps hfit ?_ key pressed
      rwa [List.append_nil]
    | release wlBuf =>
      exact (Binds.of_fitting (LockState.dispatchRelease_fitting hfit wlBuf) rfl).steps
    | capabilities keyboard =>
      show Steps _ _ (p.client.dispatchCapabilities keyboard)
      rw [LockState.dispatchCapabilities]
      split
      · exact ⟨[.getKeyboard], rfl, by simp [paintLaw], (hfit.mono [.getKeyboard]).congr rfl rfl⟩
      · exact LockState.steps_of_eq hfit rfl rfl rfl
    | keymap xkbV1 loaded =>
      show Steps _ _ (if xkbV1 then _ else _)
      split <;> exact LockState.steps_of_eq hfit rfl rfl rfl
    | _ => exact LockState.steps_of_eq hfit rfl rfl rfl
  | takeRequest =>
    show Steps _ _ (Process.takeRequest p.client)
    rw [Process.takeRequest]
    split <;> exact LockState.steps_of_eq hfit rfl rfl rfl
  | answer result => exact LockState.steps_of_eq hfit rfl rfl rfl
  | tryRecv =>
    refine LockState.tryRecv_steps hfit ?_
    show ∀ o ∈ p.client.outputs, o.Ready (p.log ++ [])
    rwa [List.append_nil]

/-- A steady step keeps within the law. -/
theorem Painter.step_steady {username : String} {failure : ℕ → Option String} {p : Painter}
    (h : Fitting p.client p.log ∧ Logs.Lawful paintLaw p.log) {e : Exchange ServerEvent}
    (hs : Steady p e) :
    Fitting ((painter username failure).step p e).client ((painter username failure).step p e).log ∧
      Logs.Lawful paintLaw ((painter username failure).step p e).log := by
  obtain ⟨new, hnew, hn, hfit⟩ := Painter.steps h.1 hs
  have hentries : p.log ++ p.entries e = p.log ++ acknowledged e ++ new.map .request := by
    rw [Painter.entries, hnew, List.drop_left, List.append_assoc]
  have hack : Logs.Lawful paintLaw (p.log ++ acknowledged e) := by
    rw [Logs.lawful_append]
    refine ⟨h.2, Logs.lawful_of_forall fun a ha pre => ?_⟩
    cases a with
    | configured ls w hgt => trivial
    | request r =>
      unfold acknowledged at ha
      split at ha <;> simp at ha
  show Fitting (p.client.exchange e) (p.log ++ p.entries e) ∧
    Logs.Lawful paintLaw (p.log ++ p.entries e)
  rw [hentries]
  exact ⟨hfit, Logs.lawful_append.mpr ⟨hack, lawful_requests hn⟩⟩

/-- **Every commit has the configured size.** Whatever the compositor says, however it is typed and
whatever PAM answers, in a run whose steps are all steady. -/
theorem paint_lawful (username : String) (failure : ℕ → Option String) {p : Painter}
    (hp : (painter username failure).Init p) {es : List (Exchange ServerEvent)}
    (h : (painter username failure).Legal p es)
    (hs : (painter username failure).EachStep Steady p es) :
    (painter username failure).Always (fun p => Logs.Lawful paintLaw p.log) p es := by
  subst hp
  refine (EventMachine.Always.of_eachStep
    (I := fun p => Fitting p.client p.log ∧ Logs.Lawful paintLaw p.log)
    (fun p e hI _ hC => Painter.step_steady hI hC) ?_ h hs).mono fun p hI => hI.2
  refine ⟨⟨nofun, List.nodup_nil, nofun⟩, Logs.lawful_of_forall fun a ha pre => ?_⟩
  obtain ⟨r, hr, rfl⟩ := List.mem_map.mp ha
  refine paintLaw_of_not_commit ?_
  simp only [LockState.engage, LockState.request, LockState.new, List.mem_append,
    List.mem_cons, List.not_mem_nil, or_false] at hr
  rcases hr with (rfl | rfl | rfl | rfl) | rfl <;> rfl

end NxLock

end Nullxes
