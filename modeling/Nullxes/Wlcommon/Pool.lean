import Mathlib.Data.List.Nodup
import Nullxes.Library.EventMachine
import Nullxes.Wlcommon.Shm

/-!
# What a buffer pool keeps

`ShmDoubleBuffer` in the hands of a client that draws, commits what was drawn and resizes, while the
compositor releases buffers, those that a resize discarded included.

## Main definitions

* `ShmDoubleBuffer.Sound` — the pool by itself: not too many buffers, all of its size, with names
  that were made before and only once
* `Holder`, `holder` — the pool with what the compositor holds of it
* `Proper` — no buffer is released between its drawing and its commit, and rows fit in a `u32`

## Main results

* `ShmDoubleBuffer.draw_cases`, `ShmDoubleBuffer.refilled_of_resize` — what `draw` and `resize` do
* `pool_safe` — nothing is painted into a buffer that the compositor holds, and the closure gets
  what it is promised
-/

namespace Nullxes

namespace Wlcommon

namespace ShmDoubleBuffer

variable {γ : Type}

/-- What holds of a pool by itself; `attempted` is the number of buffers that were attempted. -/
structure Sound (me : ShmDoubleBuffer γ) (attempted : ℕ) : Prop where
  bounded : me.buffers.length ≤ maxBuffers
  size : ∀ b ∈ me.buffers, b.w = me.w ∧ b.h = me.h
  made : ∀ b ∈ me.buffers, b.wlBuf < attempted
  nodup : (me.buffers.map ShmBuffer.wlBuf).Nodup

/-- The pool is the same, or has a new buffer that is free. -/
def Grows [Inhabited γ] (me : ShmDoubleBuffer γ) (shm : Shm) (pool : ShmDoubleBuffer γ)
    (shm' : Shm) : Prop :=
  pool = me ∧ shm' = shm ∨
    me.buffers.length < maxBuffers ∧ shm'.attempted = shm.attempted + 1 ∧
      pool = { me with
        buffers := me.buffers ++ [⟨shm.attempted, default, true, me.w, me.h⟩] }

/-- The bytes of a row, as long as they fit. -/
theorem toNat_mul_four {w : UInt32} (hw : 4 * w.toNat < UInt32.size) :
    (w * 4).toNat = 4 * w.toNat := by
  have hfour : (4 : UInt32).toNat = 4 := rfl
  rw [UInt32.toNat_mul, hfour, Nat.mul_comm]
  exact Nat.mod_eq_of_lt hw

namespace Grows

variable [Inhabited γ] {me pool : ShmDoubleBuffer γ} {shm shm' : Shm}

theorem w_eq (h : me.Grows shm pool shm') : pool.w = me.w := by
  rcases h with ⟨rfl, -⟩ | ⟨-, -, rfl⟩ <;> rfl

theorem h_eq (h : me.Grows shm pool shm') : pool.h = me.h := by
  rcases h with ⟨rfl, -⟩ | ⟨-, -, rfl⟩ <;> rfl

theorem attempted_le (h : me.Grows shm pool shm') : shm.attempted ≤ shm'.attempted := by
  rcases h with ⟨-, rfl⟩ | ⟨-, hatt, -⟩
  · exact le_rfl
  · omega

/-- A buffer of the pool is one it had or the new one. -/
theorem mem (h : me.Grows shm pool shm') {b : ShmBuffer γ} (hb : b ∈ pool.buffers) :
    b ∈ me.buffers ∨ b = ⟨shm.attempted, default, true, me.w, me.h⟩ := by
  rcases h with ⟨rfl, -⟩ | ⟨-, -, rfl⟩
  · exact .inl hb
  · exact (List.mem_append.mp hb).imp_right List.mem_singleton.mp

theorem fresh (h : me.Grows shm pool shm') {n : ℕ} (hme : ∀ b ∈ me.buffers, n ≤ b.wlBuf)
    (hn : n ≤ shm.attempted) : ∀ b ∈ pool.buffers, n ≤ b.wlBuf := by
  intro b hb
  rcases h.mem hb with hb | rfl
  · exact hme b hb
  · exact hn

end Grows

namespace Sound

variable {me : ShmDoubleBuffer γ} {n m : ℕ}

theorem empty (w h : UInt32) (n : ℕ) : (⟨[], w, h⟩ : ShmDoubleBuffer γ).Sound n where
  bounded := Nat.zero_le _
  size := nofun
  made := nofun
  nodup := List.nodup_nil

theorem mono (hs : me.Sound n) (h : n ≤ m) : me.Sound m :=
  ⟨hs.bounded, hs.size, fun b hb => (hs.made b hb).trans_le h, hs.nodup⟩

/-- Buffers that keep their names and sizes. -/
theorem map (hs : me.Sound n) {f : ShmBuffer γ → ShmBuffer γ}
    (hf : ∀ b, (f b).wlBuf = b.wlBuf ∧ (f b).w = b.w ∧ (f b).h = b.h) :
    Sound { me with buffers := me.buffers.map f } n where
  bounded := by simpa using hs.bounded
  size b hb := by
    obtain ⟨b', hb', rfl⟩ := List.mem_map.mp hb
    rw [(hf b').2.1, (hf b').2.2]
    exact hs.size b' hb'
  made b hb := by
    obtain ⟨b', hb', rfl⟩ := List.mem_map.mp hb
    rw [(hf b').1]
    exact hs.made b' hb'
  nodup := by
    have hnames : (me.buffers.map f).map ShmBuffer.wlBuf = me.buffers.map ShmBuffer.wlBuf := by
      rw [List.map_map]
      exact List.map_congr_left fun b _ => (hf b).1
    rw [hnames]
    exact hs.nodup

theorem markReleased (hs : me.Sound n) (wlBuf : ℕ) : (me.markReleased wlBuf).Sound n := by
  refine hs.map fun b => ?_
  split <;> exact ⟨rfl, rfl, rfl⟩

theorem set (hs : me.Sound n) (i : Fin me.buffers.length) {b : ShmBuffer γ}
    (hb : b.wlBuf = (me.buffers.get i).wlBuf ∧ b.w = (me.buffers.get i).w ∧
      b.h = (me.buffers.get i).h) : Sound { me with buffers := me.buffers.set i b } n := by
  have hget : me.buffers.get i ∈ me.buffers := List.get_mem _ _
  have hmem : ∀ b' ∈ me.buffers.set i b, b' ∈ me.buffers ∨ b' = b := fun b' hb' =>
    List.mem_or_eq_of_mem_set hb'
  refine ⟨by simpa using hs.bounded, fun b' hb' => ?_, fun b' hb' => ?_, ?_⟩
  · rcases hmem b' hb' with hb' | rfl
    · exact hs.size b' hb'
    · rw [hb.2.1, hb.2.2]
      exact hs.size _ hget
  · rcases hmem b' hb' with hb' | rfl
    · exact hs.made b' hb'
    · rw [hb.1]
      exact hs.made _ hget
  · have hnames : (me.buffers.set i b).map ShmBuffer.wlBuf = me.buffers.map ShmBuffer.wlBuf := by
      rw [List.map_set, hb.1]
      have hi : (i : ℕ) < (me.buffers.map ShmBuffer.wlBuf).length := by simp
      have hself := List.set_getElem_self hi
      simpa using hself
    rw [hnames]
    exact hs.nodup

variable [Inhabited γ] {shm shm' : Shm} {pool : ShmDoubleBuffer γ}

theorem grows (hs : me.Sound shm.attempted) (h : me.Grows shm pool shm') :
    pool.Sound shm'.attempted := by
  rcases h with ⟨rfl, rfl⟩ | ⟨hlen, hatt, rfl⟩
  · exact hs
  · rw [hatt]
    refine ⟨?_, fun b hb => ?_, fun b hb => ?_, ?_⟩
    · simpa using Nat.succ_le_of_lt hlen
    · rcases List.mem_append.mp hb with hb | hb
      · exact hs.size b hb
      · rw [List.mem_singleton.mp hb]
        exact ⟨rfl, rfl⟩
    · rcases List.mem_append.mp hb with hb | hb
      · exact (hs.made b hb).trans (Nat.lt_succ_self _)
      · rw [List.mem_singleton.mp hb]
        exact Nat.lt_succ_self _
    · rw [List.map_append, List.map_singleton, List.nodup_append]
      refine ⟨hs.nodup, List.nodup_singleton _, fun a ha b hb => ?_⟩
      obtain ⟨b', hb', rfl⟩ := List.mem_map.mp ha
      rw [List.mem_singleton.mp hb]
      exact (hs.made b' hb').ne

end Sound

section Draw

variable [Inhabited γ] (me : ShmDoubleBuffer γ) (shm : Shm)

/-- **What `allocate_one` does.** -/
theorem allocateOne_cases :
    (∃ e shm', me.allocateOne shm = (.error e, shm') ∧ shm.attempted ≤ shm'.attempted) ∨
      ∃ slot shm', me.allocateOne shm = (.ok slot, shm') ∧ me.Grows shm slot.pool shm' ∧
        (slot.pool.buffers.get slot.idx).released = true := by
  rw [allocateOne]
  split
  next => exact .inl ⟨_, _, rfl, le_rfl⟩
  next hlen =>
    dsimp only
    split
    · exact .inl ⟨_, _, rfl, Nat.le_succ _⟩
    · refine .inr ⟨_, _, rfl, .inr ⟨Nat.lt_of_not_le hlen, rfl, rfl⟩, ?_⟩
      simp [push]

/-- **What `find_free_or_grow` does.** -/
theorem findFreeOrGrow_cases :
    (∃ e shm', me.findFreeOrGrow shm = (.error e, shm') ∧ shm.attempted ≤ shm'.attempted) ∨
      ∃ slot shm', me.findFreeOrGrow shm = (.ok slot, shm') ∧ me.Grows shm slot.pool shm' ∧
        (slot.pool.buffers.get slot.idx).released = true := by
  rw [findFreeOrGrow]
  split
  next i hi =>
    exact .inr ⟨⟨me, i⟩, shm, rfl, .inl ⟨rfl, rfl⟩, (List.findFinIdx?_eq_some_iff.mp hi).1⟩
  next => exact me.allocateOne_cases shm

/-- **What `draw` does.** It fails without touching the pool, or paints a free buffer. -/
theorem draw_cases (paint : γ → ℕ → UInt32 → UInt32 → γ) :
    (∃ e shm', me.draw shm paint = (.error e, shm') ∧ shm.attempted ≤ shm'.attempted) ∨
      ∃ (slot : Slot γ) (shm' : Shm) (buf : ShmBuffer γ), me.Grows shm slot.pool shm' ∧
        slot.pool.buffers.get slot.idx = buf ∧ buf.released = true ∧
        me.draw shm paint =
          (.ok ({ slot.pool with
              buffers := slot.pool.buffers.set slot.idx
                { buf with
                  pixels := paint buf.pixels (slot.pool.w * 4).toNat buf.w buf.h
                  released := false } },
            ⟨buf.wlBuf, buf.w, buf.h, paint buf.pixels (slot.pool.w * 4).toNat buf.w buf.h⟩),
          shm') := by
  rcases me.findFreeOrGrow_cases shm with ⟨e, shm', h, hle⟩ | ⟨slot, shm', h, hg, hfree⟩
  · refine .inl ⟨e, shm', ?_, hle⟩
    rw [draw, h]
  · refine .inr ⟨slot, shm', _, hg, rfl, hfree, ?_⟩
    rw [draw, h]

/-- Asked for the size it has, the pool stays. -/
theorem resize_same {w h : UInt32} (heq : w = me.w ∧ h = me.h) :
    me.resize shm w h = (.ok (), me, shm) := by
  rw [resize, if_pos heq]

/-- Two buffers are allocated for a pool of this size that has none, until one fails. -/
inductive Refilled (w h : UInt32) (shm : Shm) :
    Except ClientError Unit → ShmDoubleBuffer γ → Shm → Prop
  | none {e : ClientError} {shm₁ : Shm}
      (first : (⟨[], w, h⟩ : ShmDoubleBuffer γ).allocateOne shm = (.error e, shm₁)) :
      Refilled w h shm (.error e) ⟨[], w, h⟩ shm₁
  | one {slot : Slot γ} {e : ClientError} {shm₁ shm₂ : Shm}
      (first : (⟨[], w, h⟩ : ShmDoubleBuffer γ).allocateOne shm = (.ok slot, shm₁))
      (second : slot.pool.allocateOne shm₁ = (.error e, shm₂)) :
      Refilled w h shm (.error e) slot.pool shm₂
  | two {slot slot' : Slot γ} {shm₁ shm₂ : Shm}
      (first : (⟨[], w, h⟩ : ShmDoubleBuffer γ).allocateOne shm = (.ok slot, shm₁))
      (second : slot.pool.allocateOne shm₁ = (.ok slot', shm₂)) :
      Refilled w h shm (.ok ()) slot'.pool shm₂

/-- **What `new` does** when it succeeds. -/
theorem refilled_of_new {shm' : Shm} {w h : UInt32} {pool : ShmDoubleBuffer γ}
    (hnew : new shm w h = (.ok pool, shm')) : Refilled w h shm (.ok ()) pool shm' := by
  rw [new] at hnew
  split at hnew
  next => cases hnew
  next h₁ =>
    split at hnew
    next => cases hnew
    next h₂ =>
      cases hnew
      exact .two h₁ h₂

/-- **What `resize` does** when the size is another. -/
theorem refilled_of_resize {w h : UInt32} (hne : ¬ (w = me.w ∧ h = me.h)) :
    ∃ r pool shm', me.resize shm w h = (r, pool, shm') ∧ Refilled w h shm r pool shm' := by
  rw [resize, if_neg hne]
  dsimp only
  split
  next h₁ => exact ⟨_, _, _, rfl, .none h₁⟩
  next h₁ =>
    split
    next h₂ => exact ⟨_, _, _, rfl, .one h₁ h₂⟩
    next h₂ => exact ⟨_, _, _, rfl, .two h₁ h₂⟩

theorem allocateOne_grows {me : ShmDoubleBuffer γ} {shm shm' : Shm} {slot : Slot γ}
    (h : me.allocateOne shm = (.ok slot, shm')) : me.Grows shm slot.pool shm' := by
  rcases me.allocateOne_cases shm with ⟨e, shm₁, herr, -⟩ | ⟨slot₁, shm₁, hok, hg, -⟩
  · cases herr.symm.trans h
  · cases hok.symm.trans h
    exact hg

theorem attempted_allocateOne {me : ShmDoubleBuffer γ} {shm shm' : Shm} {e : ClientError}
    (h : me.allocateOne shm = (.error e, shm')) : shm.attempted ≤ shm'.attempted := by
  rcases me.allocateOne_cases shm with ⟨e₁, shm₁, herr, hle⟩ | ⟨slot₁, shm₁, hok, -⟩
  · cases herr.symm.trans h
    exact hle
  · cases hok.symm.trans h

/-- The pool has the new size and none of its buffers, also when it fails. -/
theorem Refilled.pool {shm shm' : Shm} {w h : UInt32} {r : Except ClientError Unit}
    {pool : ShmDoubleBuffer γ} (hr : Refilled w h shm r pool shm') :
    pool.w = w ∧ pool.h = h ∧ pool.Sound shm'.attempted ∧ shm.attempted ≤ shm'.attempted ∧
      ∀ b ∈ pool.buffers, shm.attempted ≤ b.wlBuf := by
  have hempty := Sound.empty (γ := γ) w h
  cases hr with
  | none h₁ => exact ⟨rfl, rfl, hempty _, attempted_allocateOne h₁, nofun⟩
  | one h₁ h₂ =>
    have hg₁ := allocateOne_grows h₁
    have hle₂ := attempted_allocateOne h₂
    exact ⟨hg₁.w_eq, hg₁.h_eq, ((hempty _).grows hg₁).mono hle₂, hg₁.attempted_le.trans hle₂,
      hg₁.fresh nofun le_rfl⟩
  | two h₁ h₂ =>
    have hg₁ := allocateOne_grows h₁
    have hg₂ := allocateOne_grows h₂
    have hfresh := hg₂.fresh (hg₁.fresh nofun le_rfl) hg₁.attempted_le
    exact ⟨hg₂.w_eq.trans hg₁.w_eq, hg₂.h_eq.trans hg₁.h_eq, ((hempty _).grows hg₁).grows hg₂,
      hg₁.attempted_le.trans hg₂.attempted_le, hfresh⟩

/-- **What `resize` leaves**: a pool of the new size without any of its buffers, also when it
fails. -/
theorem exists_resize {w h : UInt32} (hne : ¬ (w = me.w ∧ h = me.h)) :
    ∃ r pool shm', me.resize shm w h = (r, pool, shm') ∧ pool.w = w ∧ pool.h = h ∧
      pool.Sound shm'.attempted ∧ shm.attempted ≤ shm'.attempted ∧
      ∀ b ∈ pool.buffers, shm.attempted ≤ b.wlBuf := by
  obtain ⟨r, pool, shm', heq, hr⟩ := me.refilled_of_resize shm hne
  exact ⟨r, pool, shm', heq, hr.pool⟩

/-- What is drawn has the size of the pool, if all buffers of the pool do. -/
theorem draw_size {me : ShmDoubleBuffer γ} (hme : ∀ b ∈ me.buffers, b.w = me.w ∧ b.h = me.h)
    {shm shm' : Shm} {paint : γ → ℕ → UInt32 → UInt32 → γ} {pool : ShmDoubleBuffer γ}
    {drawn : DrawnBuffer γ} (hd : me.draw shm paint = (.ok (pool, drawn), shm')) :
    pool.w = me.w ∧ pool.h = me.h ∧ (∀ b ∈ pool.buffers, b.w = pool.w ∧ b.h = pool.h) ∧
      drawn.w = me.w ∧ drawn.h = me.h := by
  rcases me.draw_cases shm paint with ⟨e, shm₁, herr, -⟩ | ⟨slot, shm₁, buf, hg, hbuf, -, hok⟩
  · rw [herr] at hd
    cases hd
  · rw [hok] at hd
    cases hd
    have hsize : ∀ b ∈ slot.pool.buffers, b.w = me.w ∧ b.h = me.h := by
      intro b hb
      rcases hg.mem hb with hb | rfl
      · exact hme b hb
      · exact ⟨rfl, rfl⟩
    obtain ⟨hw, hh⟩ := hsize buf (by rw [← hbuf]; exact List.get_mem _ _)
    refine ⟨hg.w_eq, hg.h_eq, fun b hb => ?_, hw, hh⟩
    show b.w = slot.pool.w ∧ b.h = slot.pool.h
    rw [hg.w_eq, hg.h_eq]
    rcases List.mem_or_eq_of_mem_set hb with hb | rfl
    · exact hsize b hb
    · exact ⟨hw, hh⟩

/-- **What `draw` paints.** A free buffer of the pool or a new one, in rows of the pool's width. -/
theorem draw_paints {me : ShmDoubleBuffer γ} (hme : ∀ b ∈ me.buffers, b.w = me.w ∧ b.h = me.h)
    (hrow : 4 * me.w.toNat < UInt32.size) {shm shm' : Shm} {paint : γ → ℕ → UInt32 → UInt32 → γ}
    {pool : ShmDoubleBuffer γ} {drawn : DrawnBuffer γ}
    (hd : me.draw shm paint = (.ok (pool, drawn), shm')) :
    ∃ buf : ShmBuffer γ, (buf ∈ me.buffers ∨ buf = ⟨shm.attempted, default, true, me.w, me.h⟩) ∧
      buf.released = true ∧
      drawn = ⟨buf.wlBuf, me.w, me.h, paint buf.pixels (4 * me.w.toNat) me.w me.h⟩ := by
  rcases me.draw_cases shm paint with ⟨e, shm₁, herr, -⟩ | ⟨slot, shm₁, buf, hg, hbuf, hfree, hok⟩
  · rw [herr] at hd
    cases hd
  rw [hok] at hd
  cases hd
  have hmem : buf ∈ slot.pool.buffers := by
    rw [← hbuf]
    exact List.get_mem _ _
  have hbuf' := hg.mem hmem
  have hsize : buf.w = me.w ∧ buf.h = me.h := by
    rcases hbuf' with hold | hnew
    · exact hme buf hold
    · rw [hnew]
      exact ⟨rfl, rfl⟩
  refine ⟨buf, hbuf', hfree, ?_⟩
  rw [hg.w_eq, toNat_mul_four hrow, hsize.1, hsize.2]

omit [Inhabited γ] in
/-- A release changes no size. -/
theorem markReleased_size {me : ShmDoubleBuffer γ}
    (hme : ∀ b ∈ me.buffers, b.w = me.w ∧ b.h = me.h) (wlBuf : ℕ) :
    ∀ b ∈ (me.markReleased wlBuf).buffers, b.w = me.w ∧ b.h = me.h := by
  intro b hb
  obtain ⟨b', hb', rfl⟩ := List.mem_map.mp hb
  have hsize := hme b' hb'
  split <;> exact hsize

/-- A new pool has the size it was asked for. -/
theorem new_ok {shm shm' : Shm} {w h : UInt32} {pool : ShmDoubleBuffer γ}
    (hnew : new shm w h = (.ok pool, shm')) :
    pool.w = w ∧ pool.h = h ∧ pool.Sound shm'.attempted := by
  obtain ⟨hw, hh, hs, -, -⟩ := (refilled_of_new shm hnew).pool
  exact ⟨hw, hh, hs⟩

end Draw

end ShmDoubleBuffer

/-! ## The pool and the compositor -/

/-- A client's pool, with what was drawn and not committed yet, and the buffers that were committed
and not released since. -/
structure Holder (γ : Type) where
  pool : ShmDoubleBuffer γ
  shm : Shm
  drawn : Option (DrawnBuffer γ)
  busy : List ℕ

/-- What the client and the compositor do. -/
inductive Use (γ : Type)
  | draw (paint : γ → ℕ → UInt32 → UInt32 → γ)
  /-- `attach_and_commit` of what was drawn. -/
  | commit
  | resize (w h : UInt32)
  /-- `wl_buffer.release`. -/
  | release (wlBuf : ℕ)

/-- The bytes of a buffer are below `2^31`. -/
def Fits (w h : UInt32) : Prop := 4 * w.toNat * h.toNat < 2147483648

instance (w h : UInt32) : Decidable (Fits w h) := inferInstanceAs (Decidable (_ < _))

namespace Holder

variable {γ : Type} [Inhabited γ]

/-- What a use does. What was drawn borrows the pool: it is gone when the pool is used again. -/
def use (s : Holder γ) : Use γ → Holder γ
  | .draw paint =>
    match s.pool.draw s.shm paint with
    | (.error _, shm) => { s with shm := shm, drawn := none }
    | (.ok (pool, drawn), shm) => { s with pool := pool, shm := shm, drawn := some drawn }
  | .commit =>
    match s.drawn with
    | none => s
    | some drawn => { s with drawn := none, busy := drawn.wlBuf :: s.busy }
  | .resize w h =>
    let (_, pool, shm) := s.pool.resize s.shm w h
    { s with pool := pool, shm := shm, drawn := none }
  | .release wlBuf =>
    { s with pool := s.pool.markReleased wlBuf, busy := s.busy.filter (· ≠ wlBuf) }

/-- Sizes fit, what is committed was drawn, and what is released was created. -/
def CanUse (s : Holder γ) : Use γ → Prop
  | .draw _ => True
  | .commit => s.drawn.isSome = true
  | .resize w h => Fits w h
  | .release wlBuf => wlBuf < s.shm.attempted

/-- The pool is not too large and all of its buffers have its size. -/
def Bounded (s : Holder γ) : Prop :=
  s.pool.buffers.length ≤ maxBuffers ∧ ∀ b ∈ s.pool.buffers, b.w = s.pool.w ∧ b.h = s.pool.h

/-- What `draw` is to do: it paints a buffer that the compositor does not hold, from the pixels that
are in it, in rows of the pool's width. -/
def Draws (s : Holder γ) : Use γ → Prop
  | .draw paint => ∀ pool drawn shm, s.pool.draw s.shm paint = (.ok (pool, drawn), shm) →
    drawn.wlBuf ∉ s.busy ∧ drawn.w = s.pool.w ∧ drawn.h = s.pool.h ∧
      ∃ pixels, drawn.pixels = paint pixels (4 * s.pool.w.toNat) s.pool.w s.pool.h ∧
        ((∃ b ∈ s.pool.buffers, b.wlBuf = drawn.wlBuf ∧ b.pixels = pixels) ∨
          drawn.wlBuf = s.shm.attempted ∧ pixels = default)
  | _ => True

/-- No buffer is released between its drawing and its commit, and a row fits in a `u32`. -/
def Proper (s : Holder γ) : Use γ → Prop
  | .resize w _ => 4 * w.toNat < UInt32.size
  | .release wlBuf => ∀ drawn ∈ s.drawn, drawn.wlBuf ≠ wlBuf
  | _ => True

instance (s : Holder γ) (e : Use γ) : Decidable (s.CanUse e) := by
  cases e <;> unfold CanUse <;> infer_instance

instance (s : Holder γ) (e : Use γ) : Decidable (s.Proper e) := by
  cases e <;> unfold Proper <;> infer_instance

end Holder

/-- A pool in use, from its making on. -/
def holder (γ : Type) [Inhabited γ] : EventMachine (Holder γ) (Use γ) where
  Init s := s.drawn = none ∧ s.busy = [] ∧
    ∃ shm w h, Fits w h ∧ ShmDoubleBuffer.new shm w h = (.ok s.pool, s.shm)
  Enabled := Holder.CanUse
  step := Holder.use

instance {γ : Type} [Inhabited γ] (s : Holder γ) (e : Use γ) :
    Decidable ((holder γ).Enabled s e) :=
  inferInstanceAs (Decidable (s.CanUse e))

namespace Holder

variable {γ : Type} [Inhabited γ] {s : Holder γ}

/-- What the compositor holds is not free, and neither is what is about to be committed. -/
structure Sound (s : Holder γ) : Prop where
  pool : s.pool.Sound s.shm.attempted
  rows : 4 * s.pool.w.toNat < UInt32.size
  made : ∀ n ∈ s.busy, n < s.shm.attempted
  busy : ∀ b ∈ s.pool.buffers, b.wlBuf ∈ s.busy → b.released = false
  drawn : ∀ d ∈ s.drawn, d.wlBuf < s.shm.attempted ∧
    ∀ b ∈ s.pool.buffers, b.wlBuf = d.wlBuf → b.released = false

namespace Sound

/-- A buffer of the grown pool that the compositor holds is not free. -/
theorem busy_grows (h : s.Sound) {pool : ShmDoubleBuffer γ} {shm : Shm}
    (hg : s.pool.Grows s.shm pool shm) {b : ShmBuffer γ} (hb : b ∈ pool.buffers)
    (hbusy : b.wlBuf ∈ s.busy) : b.released = false := by
  rcases hg.mem hb with hb | rfl
  · exact h.busy b hb hbusy
  · exact absurd (h.made _ hbusy) (Nat.lt_irrefl _)

theorem draws (h : s.Sound) (e : Use γ) : s.Draws e := by
  cases e with
  | draw paint =>
    intro pool drawn shm hd
    obtain ⟨buf, hbuf, hfree, rfl⟩ := ShmDoubleBuffer.draw_paints h.pool.size h.rows hd
    refine ⟨fun hbusy => ?_, rfl, rfl, buf.pixels, rfl, ?_⟩
    · -- a buffer that is held is not free, and a new one is not held
      rcases hbuf with hold | rfl
      · have hbusy' := h.busy buf hold hbusy
        rw [hfree] at hbusy'
        cases hbusy'
      · exact Nat.lt_irrefl _ (h.made _ hbusy)
    · rcases hbuf with hold | rfl
      · exact .inl ⟨buf, hold, rfl, rfl⟩
      · exact .inr ⟨rfl, rfl⟩
  | _ => trivial

theorem draw (h : s.Sound) (paint : γ → ℕ → UInt32 → UInt32 → γ) :
    (s.use (.draw paint)).Sound := by
  rcases s.pool.draw_cases s.shm paint with
    ⟨e, shm', herr, hle⟩ | ⟨slot, shm', buf, hg, hbuf, hfree, hok⟩
  · simp only [use, herr]
    exact ⟨h.pool.mono hle, h.rows, fun n hn => (h.made n hn).trans_le hle, h.busy, nofun⟩
  · simp only [use, hok]
    have hpool := h.pool.grows hg
    have hmem : buf ∈ slot.pool.buffers := by
      rw [← hbuf]
      exact List.get_mem _ _
    have hset := hpool.set slot.idx (b := { buf with
      pixels := paint buf.pixels (slot.pool.w * 4).toNat buf.w buf.h
      released := false }) (by rw [hbuf]; exact ⟨rfl, rfl, rfl⟩)
    refine ⟨hset, ?_, ?_, ?_, ?_⟩
    · rw [hg.w_eq]
      exact h.rows
    · exact fun n hn => (h.made n hn).trans_le hg.attempted_le
    · intro b hb hbusy
      rcases List.mem_or_eq_of_mem_set hb with hb | rfl
      · exact h.busy_grows hg hb hbusy
      · rfl
    · rintro d hd
      cases hd
      refine ⟨hpool.made buf hmem, fun b hb hname => ?_⟩
      have hnew := List.mem_set slot.idx.isLt { buf with
        pixels := paint buf.pixels (slot.pool.w * 4).toNat buf.w buf.h
        released := false }
      rw [List.inj_on_of_nodup_map hset.nodup hb hnew hname]

theorem commit (h : s.Sound) : (s.use .commit).Sound := by
  rw [use]
  split
  · exact h
  next d hd =>
    obtain ⟨hmade, hfree⟩ := h.drawn d hd
    refine ⟨h.pool, h.rows, fun n hn => ?_, fun b hb hbusy => ?_, nofun⟩
    · rcases List.mem_cons.mp hn with rfl | hn
      · exact hmade
      · exact h.made n hn
    · rcases List.mem_cons.mp hbusy with hname | hbusy
      · exact hfree b hb hname
      · exact h.busy b hb hbusy

theorem resize (h : s.Sound) {w : UInt32} (hw : 4 * w.toNat < UInt32.size) (height : UInt32) :
    (s.use (.resize w height)).Sound := by
  by_cases hsame : w = s.pool.w ∧ height = s.pool.h
  · simp only [use, ShmDoubleBuffer.resize_same s.pool s.shm hsame]
    exact ⟨h.pool, h.rows, h.made, h.busy, nofun⟩
  · obtain ⟨r, pool, shm, hr, hpw, -, hs, hle, hfresh⟩ := s.pool.exists_resize s.shm hsame
    simp only [use, hr]
    refine ⟨hs, by rwa [hpw], fun n hn => (h.made n hn).trans_le hle, fun b hb hbusy => ?_, nofun⟩
    exact absurd (h.made _ hbusy) (Nat.not_lt_of_le (hfresh b hb))

theorem release (h : s.Sound) {wlBuf : ℕ} (hd : ∀ d ∈ s.drawn, d.wlBuf ≠ wlBuf) :
    (s.use (.release wlBuf)).Sound := by
  have hkept : ∀ b ∈ (s.pool.markReleased wlBuf).buffers, b.wlBuf ≠ wlBuf → b ∈ s.pool.buffers := by
    intro b hb hne
    obtain ⟨b', hb', rfl⟩ := List.mem_map.mp hb
    split at hne
    next heq => exact absurd heq hne
    next hne' =>
      rw [if_neg hne']
      exact hb'
  refine ⟨h.pool.markReleased wlBuf, h.rows, fun n hn => ?_, fun b hb hbusy => ?_, fun d hd' => ?_⟩
  · exact h.made n (List.mem_of_mem_filter hn)
  · obtain ⟨hbusy, hne⟩ := List.mem_filter.mp hbusy
    exact h.busy b (hkept b hb (by simpa using hne)) hbusy
  · obtain ⟨hmade, hfree⟩ := h.drawn d hd'
    refine ⟨hmade, fun b hb hname => ?_⟩
    exact hfree b (hkept b hb (hname ▸ hd d hd')) hname

theorem use (h : s.Sound) {e : Use γ} (hp : s.Proper e) : (s.use e).Sound := by
  cases e with
  | draw paint => exact h.draw paint
  | commit => exact h.commit
  | resize w height => exact h.resize hp height
  | release wlBuf => exact h.release hp

end Sound

end Holder

/-- **The pool is safe to draw into.** However the client draws, commits and resizes, with any
allocation failing, and whatever the compositor releases, nothing is painted into a buffer the
compositor holds, the pool stays small and of one size, and the closure gets the buffer's pixels in
rows of its width; provided that no buffer is released between its drawing and its commit and that a
row fits in a `u32`. -/
theorem pool_safe {γ : Type} [Inhabited γ] {s : Holder γ} (hs : (holder γ).Init s)
    (hrow : 4 * s.pool.w.toNat < UInt32.size) {es : List (Use γ)} (hl : (holder γ).Legal s es)
    (hp : (holder γ).EachStep Holder.Proper s es) :
    (holder γ).Always Holder.Bounded s es ∧ (holder γ).EachStep Holder.Draws s es := by
  obtain ⟨hdrawn, hbusy, shm, w, h, -, hnew⟩ := hs
  have hsound : s.Sound := by
    refine ⟨(ShmDoubleBuffer.new_ok hnew).2.2, hrow, ?_, ?_, ?_⟩
    · simp [hbusy]
    · simp [hbusy]
    · simp [hdrawn]
  have hall : (holder γ).Always Holder.Sound s es :=
    .of_eachStep (fun s e hs _ hp => hs.use hp) hsound hl hp
  exact ⟨hall.mono fun s h => ⟨h.pool.bounded, h.pool.size⟩, hall.eachStep fun s e h => h.draws e⟩

/-- A pool made when nothing fails. -/
def made (w h : UInt32) : Holder ℕ :=
  match ShmDoubleBuffer.new ⟨0, fun _ => none, []⟩ w h with
  | (.ok pool, shm) => ⟨pool, shm, none, []⟩
  | (.error _, shm) => ⟨⟨[], w, h⟩, shm, none, []⟩

/-- A frame goes out and comes back, and the next one has another size. -/
def frames : List (Use ℕ) :=
  [.draw fun _ stride _ _ => stride, .commit, .release 0, .resize 2 3,
    .draw fun _ stride _ _ => stride]

theorem pool_safe_frames :
    (holder ℕ).Always Holder.Bounded (made 1 1) frames ∧
      (holder ℕ).EachStep Holder.Draws (made 1 1) frames :=
  pool_safe ⟨rfl, rfl, ⟨0, fun _ => none, []⟩, 1, 1, by decide, rfl⟩ (by decide)
    (by decide) (by decide)

/-- A buffer that is released before its commit. -/
def earlyRelease : List (Use ℕ) :=
  [.draw fun p _ _ _ => p, .release 0, .commit, .draw fun p _ _ _ => p]

/-- Without either proviso `draw` does what it is not to do: after an early release it paints what
was committed, and rows of `2 ^ 30` pixels get the stride 0. -/
theorem not_pool_safe :
    ((holder ℕ).Init (made 1 1) ∧ (holder ℕ).Legal (made 1 1) earlyRelease ∧
        ¬ (holder ℕ).EachStep Holder.Draws (made 1 1) earlyRelease) ∧
      ((holder ℕ).Init (made 1073741824 0) ∧
        (holder ℕ).Legal (made 1073741824 0) [.draw fun _ stride _ _ => stride] ∧
        ¬ (holder ℕ).EachStep Holder.Draws (made 1073741824 0)
          [.draw fun _ stride _ _ => stride]) := by
  refine ⟨⟨⟨rfl, rfl, ⟨0, fun _ => none, []⟩, 1, 1, by decide, rfl⟩,
    by decide, fun h => ?_⟩,
    ⟨rfl, rfl, ⟨0, fun _ => none, []⟩, 1073741824, 0, by decide, rfl⟩, ⟨trivial, trivial⟩,
    fun h => ?_⟩
  · have hlast := h [.draw fun p _ _ _ => p, .release 0, .commit] (.draw fun p _ _ _ => p)
      (List.prefix_refl _)
    exact (hlast _ _ _ rfl).1 (by decide)
  · obtain ⟨-, -, -, pixels, hpixels, -⟩ := h [] _ (List.prefix_refl _) _ _ _ rfl
    have hzero : (0 : ℕ) = 4 * 1073741824 := hpixels
    exact absurd hzero (by decide)

end Wlcommon

end Nullxes
