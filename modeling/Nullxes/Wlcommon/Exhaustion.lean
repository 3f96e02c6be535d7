import Nullxes.Wlcommon.Pool

/-!
# When a pool is exhausted

`draw` fails with `BufferPoolExhausted` if none of `MAX_BUFFERS` buffers is free. A buffer is taken
at `draw` and given back by a `Release`, which the compositor sends for what was committed. A
`DrawnBuffer` that is dropped instead was taken and is never given back, until a `resize` to another
size discards it.

## Main definitions

* `Holder.Honest` — `draw` reports exhaustion only if the compositor holds every buffer of a full
  pool
* `Holder.Kept` — what was drawn is not dropped in favour of the same pool

## Main results

* `honest_of_kept` — reports are honest if nothing is dropped, and once something is, there are
  draws whose report is not
* `not_honest` — four frames that are dropped
-/

namespace Nullxes

namespace Wlcommon

namespace ShmDoubleBuffer

variable {γ : Type} [Inhabited γ] {me pool : ShmDoubleBuffer γ} {shm shm' : Shm}
  {paint : γ → ℕ → UInt32 → UInt32 → γ}

/-- What `draw` found when it reports exhaustion. -/
theorem exhausted_of_draw {count : ℕ}
    (hd : me.draw shm paint = (.error (.bufferPoolExhausted count), shm')) :
    maxBuffers ≤ me.buffers.length ∧ ∀ b ∈ me.buffers, b.released = false := by
  rw [draw, findFreeOrGrow] at hd
  cases hfind : me.buffers.findFinIdx? fun b => b.released with
  | some i =>
    simp only [hfind] at hd
    cases hd
  | none =>
    simp only [hfind, allocateOne] at hd
    refine ⟨?_, fun b hb => ?_⟩
    · by_contra hlt
      rw [if_neg hlt] at hd
      cases hfailure : shm.failure shm.attempted with
      | none =>
        simp only [hfailure] at hd
        cases hd
      | some message =>
        simp only [hfailure] at hd
        cases hd
    · simpa using List.findFinIdx?_eq_none_iff.mp hfind b hb

/-- Where no allocation fails, `draw` reports nothing else. -/
theorem draw_error {e : ClientError} (hfailure : ∀ n, shm.failure n = none)
    (hd : me.draw shm paint = (.error e, shm')) : e = .bufferPoolExhausted maxBuffers := by
  rw [draw, findFreeOrGrow] at hd
  cases hfind : me.buffers.findFinIdx? fun b => b.released with
  | some i =>
    simp only [hfind] at hd
    cases hd
  | none =>
    simp only [hfind, allocateOne, hfailure] at hd
    by_cases hfull : maxBuffers ≤ me.buffers.length
    · rw [if_pos hfull] at hd
      cases hd
      rfl
    · rw [if_neg hfull] at hd
      cases hd

theorem failure_allocateOne (me : ShmDoubleBuffer γ) (shm : Shm) :
    (me.allocateOne shm).2.failure = shm.failure := by
  rw [allocateOne]
  split
  · rfl
  · dsimp only
    split <;> rfl

theorem failure_findFreeOrGrow (me : ShmDoubleBuffer γ) (shm : Shm) :
    (me.findFreeOrGrow shm).2.failure = shm.failure := by
  rw [findFreeOrGrow]
  split
  · rfl
  · exact failure_allocateOne me shm

theorem failure_draw (me : ShmDoubleBuffer γ) (shm : Shm) (paint : γ → ℕ → UInt32 → UInt32 → γ) :
    (me.draw shm paint).2.failure = shm.failure := by
  have hfind := failure_findFreeOrGrow me shm
  rw [draw]
  split
  next h =>
    rw [h] at hfind
    exact hfind
  next h =>
    rw [h] at hfind
    exact hfind

/-- What a pool grows by is free. -/
theorem Grows.append (hg : me.Grows shm pool shm') :
    ∃ new, pool.buffers = me.buffers ++ new ∧ ∀ b ∈ new, b.released = true := by
  rcases hg with ⟨rfl, -⟩ | ⟨-, -, rfl⟩
  · exact ⟨[], by simp, fun b hb => by cases hb⟩
  · refine ⟨_, rfl, fun b hb => ?_⟩
    rw [List.mem_singleton.mp hb]

theorem Grows.free (hg : me.Grows shm pool shm') (hme : ∀ b ∈ me.buffers, b.released = true) :
    ∀ b ∈ pool.buffers, b.released = true := by
  obtain ⟨new, hpool, hnew⟩ := hg.append
  intro b hb
  rw [hpool] at hb
  exact (List.mem_append.mp hb).elim (hme b) (hnew b)

theorem failure_eq {r : Except ClientError (Slot γ)} (ha : me.allocateOne shm = (r, shm')) :
    shm'.failure = shm.failure := by
  rw [← failure_allocateOne me shm, ha]

/-- The buffers of a new or resized pool are free. -/
theorem Refilled.free {w h : UInt32} {r : Except ClientError Unit}
    (hr : Refilled w h shm r pool shm') : ∀ b ∈ pool.buffers, b.released = true := by
  have hnil : ∀ b ∈ (⟨[], w, h⟩ : ShmDoubleBuffer γ).buffers, b.released = true :=
    fun b hb => by cases hb
  cases hr with
  | none h₁ => exact hnil
  | one h₁ h₂ => exact (allocateOne_grows h₁).free hnil
  | two h₁ h₂ => exact (allocateOne_grows h₂).free ((allocateOne_grows h₁).free hnil)

theorem Refilled.failure {w h : UInt32} {r : Except ClientError Unit}
    (hr : Refilled w h shm r pool shm') : shm'.failure = shm.failure := by
  cases hr with
  | none h₁ => exact failure_eq h₁
  | one h₁ h₂ => exact (failure_eq h₂).trans (failure_eq h₁)
  | two h₁ h₂ => exact (failure_eq h₂).trans (failure_eq h₁)

theorem failure_resize (me : ShmDoubleBuffer γ) (shm : Shm) (w h : UInt32) :
    (me.resize shm w h).2.2.failure = shm.failure := by
  by_cases heq : w = me.w ∧ h = me.h
  · rw [me.resize_same shm heq]
  · obtain ⟨r, pool, shm', hresize, hr⟩ := me.refilled_of_resize shm heq
    rw [hresize]
    exact hr.failure

end ShmDoubleBuffer

/-! ## The pool and the compositor -/

namespace Holder

variable {γ : Type} [Inhabited γ] (s : Holder γ)

/-- Exhaustion is reported only if the pool is full and the compositor holds all of it. -/
def Honest : Use γ → Prop
  | .draw paint => ∀ count shm,
    s.pool.draw s.shm paint = (.error (.bufferPoolExhausted count), shm) →
    s.pool.buffers.length = maxBuffers ∧ (s.pool.buffers.map ShmBuffer.wlBuf).Nodup ∧
      ∀ b ∈ s.pool.buffers, b.wlBuf ∈ s.busy
  | _ => True

/-- What was drawn and not committed is not dropped, unless its buffer is discarded with the
pool. -/
def Kept : Use γ → Prop
  | .draw _ => s.drawn.isNone = true
  | .resize w h => s.drawn.isNone = true ∨ ¬ (w = s.pool.w ∧ h = s.pool.h)
  | .commit | .release _ => True

/-- The compositor releases what it holds. -/
def Returns : Use γ → Prop
  | .release wlBuf => wlBuf ∈ s.busy
  | .draw _ | .commit | .resize _ _ => True

/-- What is committed was drawn. -/
def HasDrawn : Use γ → Prop
  | .commit => s.drawn.isSome = true
  | .draw _ | .resize _ _ | .release _ => True

instance : (e : Use γ) → Decidable (s.Kept e)
  | .draw _ => inferInstanceAs (Decidable (s.drawn.isNone = true))
  | .resize w h =>
    inferInstanceAs (Decidable (s.drawn.isNone = true ∨ ¬ (w = s.pool.w ∧ h = s.pool.h)))
  | .commit | .release _ => inferInstanceAs (Decidable True)

instance : (e : Use γ) → Decidable (s.HasDrawn e)
  | .commit => inferInstanceAs (Decidable (s.drawn.isSome = true))
  | .draw _ | .resize _ _ | .release _ => inferInstanceAs (Decidable True)

end Holder

/-- A pool in use, of any size, for which no allocation fails. -/
def lender (γ : Type) [Inhabited γ] : EventMachine (Holder γ) (Use γ) where
  Init s := s.drawn = none ∧ s.busy = [] ∧
    ∃ shm w h, (∀ n, shm.failure n = none) ∧ ShmDoubleBuffer.new shm w h = (.ok s.pool, s.shm)
  Enabled := Holder.HasDrawn
  step := Holder.use

instance {γ : Type} [Inhabited γ] (s : Holder γ) (e : Use γ) :
    Decidable ((lender γ).Enabled s e) :=
  inferInstanceAs (Decidable (s.HasDrawn e))

namespace Holder

variable {γ : Type} [Inhabited γ] {s : Holder γ}

/-- Every buffer that was taken is held by the compositor or about to be committed. -/
structure Accounted (s : Holder γ) : Prop where
  pool : s.pool.Sound s.shm.attempted
  taken : ∀ b ∈ s.pool.buffers, b.released = false →
    b.wlBuf ∈ s.busy ∨ ∃ d ∈ s.drawn, d.wlBuf = b.wlBuf

namespace Accounted

theorem honest (h : s.Accounted) {e : Use γ} (hk : s.Kept e) : s.Honest e := by
  cases e with
  | draw paint =>
    intro count shm hd
    obtain ⟨hfull, htaken⟩ := ShmDoubleBuffer.exhausted_of_draw hd
    refine ⟨Nat.le_antisymm h.pool.bounded hfull, h.pool.nodup, fun b hb => ?_⟩
    rcases h.taken b hb (htaken b hb) with hbusy | ⟨d, hdrawn, -⟩
    · exact hbusy
    · rw [Option.isNone_iff_eq_none.mp hk] at hdrawn
      cases hdrawn
  | commit | resize w h' | release wlBuf => trivial

theorem draw (h : s.Accounted) (hk : s.drawn.isNone = true)
    (paint : γ → ℕ → UInt32 → UInt32 → γ) : (s.use (.draw paint)).Accounted := by
  have htaken : ∀ b ∈ s.pool.buffers, b.released = false → b.wlBuf ∈ s.busy := by
    intro b hb hfree
    rcases h.taken b hb hfree with hbusy | ⟨d, hdrawn, -⟩
    · exact hbusy
    · rw [Option.isNone_iff_eq_none.mp hk] at hdrawn
      cases hdrawn
  rcases s.pool.draw_cases s.shm paint with
    ⟨e, shm', herr, hle⟩ | ⟨slot, shm', buf, hg, hbuf, -, hok⟩
  · simp only [use, herr]
    exact ⟨h.pool.mono hle, fun b hb hfree => .inl (htaken b hb hfree)⟩
  · simp only [use, hok]
    refine ⟨(h.pool.grows hg).set slot.idx (by rw [hbuf]; exact ⟨rfl, rfl, rfl⟩), ?_⟩
    intro b hb hfree
    rcases List.mem_or_eq_of_mem_set hb with hb | rfl
    · rcases hg.mem hb with hb | rfl
      · exact .inl (htaken b hb hfree)
      · cases hfree
    · exact .inr ⟨_, rfl, rfl⟩

theorem commit (h : s.Accounted) : (s.use .commit).Accounted := by
  cases hd : s.drawn with
  | none =>
    simp only [use, hd]
    exact h
  | some d =>
    simp only [use, hd]
    refine ⟨h.pool, fun b hb hfree => .inl ?_⟩
    rcases h.taken b hb hfree with hbusy | ⟨d', hd', hname⟩
    · exact List.mem_cons_of_mem _ hbusy
    · obtain rfl := Option.some.inj (hd.symm.trans hd')
      rw [← hname]
      exact List.mem_cons_self

theorem resize (h : s.Accounted) {w height : UInt32} (hk : s.Kept (.resize w height)) :
    (s.use (.resize w height)).Accounted := by
  by_cases hsame : w = s.pool.w ∧ height = s.pool.h
  · simp only [use, ShmDoubleBuffer.resize_same s.pool s.shm hsame]
    refine ⟨h.pool, fun b hb hfree => ?_⟩
    rcases h.taken b hb hfree with hbusy | ⟨d, hdrawn, -⟩
    · exact .inl hbusy
    · rcases hk with hk | hk
      · rw [Option.isNone_iff_eq_none.mp hk] at hdrawn
        cases hdrawn
      · exact absurd hsame hk
  · obtain ⟨r, pool, shm, hresize, hr⟩ := s.pool.refilled_of_resize s.shm hsame
    obtain ⟨-, -, hs, -, -⟩ := hr.pool
    simp only [use, hresize]
    refine ⟨hs, fun b hb hbusy => ?_⟩
    rw [hr.free b hb] at hbusy
    cases hbusy

theorem release (h : s.Accounted) (wlBuf : ℕ) : (s.use (.release wlBuf)).Accounted := by
  refine ⟨h.pool.markReleased wlBuf, fun b hb hfree => ?_⟩
  obtain ⟨b', hb', rfl⟩ := List.mem_map.mp hb
  by_cases hname : b'.wlBuf = wlBuf
  · rw [if_pos hname] at hfree
    cases hfree
  · rw [if_neg hname] at hfree ⊢
    rcases h.taken b' hb' hfree with hbusy | hdrawn
    · exact .inl (List.mem_filter.mpr ⟨hbusy, by simpa using hname⟩)
    · exact .inr hdrawn

theorem use (h : s.Accounted) {e : Use γ} (hk : s.Kept e) : (s.use e).Accounted := by
  cases e with
  | draw paint => exact h.draw hk paint
  | commit => exact h.commit
  | resize w height => exact h.resize hk
  | release wlBuf => exact h.release wlBuf

end Accounted

/-! ## What is dropped -/

/-- The compositor holds only what is taken, and what is about to be committed is taken and not
held. -/
structure Lent (s : Holder γ) : Prop where
  pool : s.pool.Sound s.shm.attempted
  failure : ∀ n, s.shm.failure n = none
  made : ∀ n ∈ s.busy, n < s.shm.attempted
  busy : ∀ b ∈ s.pool.buffers, b.wlBuf ∈ s.busy → b.released = false
  drawn : ∀ d ∈ s.drawn, d.wlBuf ∉ s.busy ∧
    ∃ b ∈ s.pool.buffers, b.wlBuf = d.wlBuf ∧ b.released = false

namespace Lent

theorem draw (h : s.Lent) (paint : γ → ℕ → UInt32 → UInt32 → γ) :
    (s.use (.draw paint)).Lent := by
  have hfailure := ShmDoubleBuffer.failure_draw s.pool s.shm paint
  rcases s.pool.draw_cases s.shm paint with
    ⟨e, shm', herr, hle⟩ | ⟨slot, shm', buf, hg, hbuf, hfree, hok⟩
  · rw [herr] at hfailure
    simp only [use, herr]
    refine ⟨h.pool.mono hle, fun n => ?_, fun n hn => (h.made n hn).trans_le hle, h.busy, ?_⟩
    · exact (congrFun hfailure n).trans (h.failure n)
    · intro d hd
      cases hd
  · rw [hok] at hfailure
    simp only [use, hok]
    have hgrown : ∀ b ∈ slot.pool.buffers, b.wlBuf ∈ s.busy → b.released = false := by
      intro b hb hbusy
      rcases hg.mem hb with hb | rfl
      · exact h.busy b hb hbusy
      · exact absurd (h.made _ hbusy) (Nat.lt_irrefl _)
    have hmem : buf ∈ slot.pool.buffers := by
      rw [← hbuf]
      exact List.get_mem _ _
    refine ⟨(h.pool.grows hg).set slot.idx (by rw [hbuf]; exact ⟨rfl, rfl, rfl⟩), fun n => ?_,
      fun n hn => (h.made n hn).trans_le hg.attempted_le, fun b hb hbusy => ?_, fun d hd => ?_⟩
    · exact (congrFun hfailure n).trans (h.failure n)
    · rcases List.mem_or_eq_of_mem_set hb with hb | rfl
      · exact hgrown b hb hbusy
      · rfl
    · cases hd
      refine ⟨fun hbusy => ?_, _, List.mem_set slot.idx.isLt _, rfl, rfl⟩
      rw [hgrown buf hmem hbusy] at hfree
      cases hfree

theorem commit (h : s.Lent) : (s.use .commit).Lent := by
  cases hd : s.drawn with
  | none =>
    simp only [use, hd]
    exact h
  | some d =>
    obtain ⟨-, b, hb, hname, htaken⟩ := h.drawn d hd
    simp only [use, hd]
    refine ⟨h.pool, h.failure, fun n hn => ?_, fun b' hb' hbusy => ?_, fun d' hd' => ?_⟩
    · rcases List.mem_cons.mp hn with rfl | hn
      · rw [← hname]
        exact h.pool.made b hb
      · exact h.made n hn
    · rcases List.mem_cons.mp hbusy with hname' | hbusy
      · rw [List.inj_on_of_nodup_map h.pool.nodup hb' hb (hname'.trans hname.symm)]
        exact htaken
      · exact h.busy b' hb' hbusy
    · cases hd'

theorem resize (h : s.Lent) (w height : UInt32) : (s.use (.resize w height)).Lent := by
  have hfailure := ShmDoubleBuffer.failure_resize s.pool s.shm w height
  by_cases hsame : w = s.pool.w ∧ height = s.pool.h
  · simp only [use, ShmDoubleBuffer.resize_same s.pool s.shm hsame]
    refine ⟨h.pool, h.failure, h.made, h.busy, fun d hd => ?_⟩
    cases hd
  · obtain ⟨r, pool, shm, hr, -, -, hs, hle, hfresh⟩ := s.pool.exists_resize s.shm hsame
    rw [hr] at hfailure
    simp only [use, hr]
    refine ⟨hs, fun n => (congrFun hfailure n).trans (h.failure n),
      fun n hn => (h.made n hn).trans_le hle, fun b hb hbusy => ?_, fun d hd => ?_⟩
    · exact absurd (h.made _ hbusy) (Nat.not_lt_of_le (hfresh b hb))
    · cases hd

theorem release (h : s.Lent) {wlBuf : ℕ} (hheld : wlBuf ∈ s.busy) :
    (s.use (.release wlBuf)).Lent := by
  have hbusy_of : ∀ n, n ∈ s.busy.filter (· ≠ wlBuf) → n ∈ s.busy ∧ n ≠ wlBuf := by
    intro n hn
    simpa using List.mem_filter.mp hn
  refine ⟨h.pool.markReleased wlBuf, h.failure, fun n hn => h.made n (hbusy_of n hn).1,
    fun b hb hbusy => ?_, fun d hd => ?_⟩
  · obtain ⟨b', hb', rfl⟩ := List.mem_map.mp hb
    by_cases hname : b'.wlBuf = wlBuf
    · rw [if_pos hname] at hbusy
      exact absurd hname (hbusy_of _ hbusy).2
    · rw [if_neg hname] at hbusy ⊢
      exact h.busy b' hb' (hbusy_of _ hbusy).1
  · obtain ⟨hfree, b, hb, hname, htaken⟩ := h.drawn d hd
    refine ⟨fun hbusy => hfree (hbusy_of _ hbusy).1, b, ?_, hname, htaken⟩
    have hne : b.wlBuf ≠ wlBuf := by
      rintro rfl
      exact hfree (hname ▸ hheld)
    exact List.mem_map.mpr ⟨b, hb, if_neg hne⟩

theorem use (h : s.Lent) {e : Use γ} (hr : s.Returns e) : (s.use e).Lent := by
  cases e with
  | draw paint => exact h.draw paint
  | commit => exact h.commit
  | resize w height => exact h.resize w height
  | release wlBuf => exact h.release hr

end Lent

/-- Some buffer is taken and not held. -/
def Leaks (s : Holder γ) : Prop :=
  ∃ b ∈ s.pool.buffers, b.released = false ∧ b.wlBuf ∉ s.busy

/-- How many buffers are taken. -/
def taken (s : Holder γ) : ℕ := s.pool.buffers.countP fun b => !b.released

omit [Inhabited γ] in
theorem Lent.taken_le (h : s.Lent) : s.taken ≤ maxBuffers :=
  List.countP_le_length.trans h.pool.bounded

/-- `draw` reports exhaustion, or takes one more buffer and leaves what was taken. -/
theorem draw_takes (h : s.Lent) (hleaks : s.Leaks) (paint : γ → ℕ → UInt32 → UInt32 → γ) :
    ¬ s.Honest (.draw paint) ∨
      (s.use (.draw paint)).Leaks ∧ (s.use (.draw paint)).taken = s.taken + 1 := by
  obtain ⟨b, hb, htaken, hheld⟩ := hleaks
  rcases s.pool.draw_cases s.shm paint with
    ⟨e, shm', herr, -⟩ | ⟨slot, shm', buf, hg, hbuf, hfree, hok⟩
  · left
    intro hhonest
    obtain rfl := ShmDoubleBuffer.draw_error h.failure herr
    exact hheld ((hhonest _ _ herr).2.2 b hb)
  · right
    simp only [use, hok]
    obtain ⟨new, hpool, hnew⟩ := hg.append
    have hcount : slot.pool.buffers.countP (fun b => !b.released) = s.taken := by
      have hnone : new.countP (fun b => !b.released) = 0 :=
        List.countP_eq_zero.mpr fun b hb => by simp [hnew b hb]
      rw [hpool, List.countP_append, hnone]
      rfl
    have hmem : b ∈ slot.pool.buffers := by
      rw [hpool]
      exact List.mem_append_left _ hb
    refine ⟨⟨b, ?_, htaken, hheld⟩, ?_⟩
    · obtain ⟨j, hj⟩ := List.mem_iff_getElem?.mp hmem
      have hne : (slot.idx : ℕ) ≠ j := by
        intro heq
        have hbuf' : slot.pool.buffers[j]? = some buf := by
          rw [← heq, List.getElem?_eq_getElem slot.idx.isLt]
          exact congrArg some hbuf
        obtain rfl := Option.some.inj (hj.symm.trans hbuf')
        rw [htaken] at hfree
        cases hfree
      have hset : ∀ x, (slot.pool.buffers.set slot.idx x)[j]? = some b :=
        fun x => (List.getElem?_set_ne hne).trans hj
      exact List.mem_of_getElem? (hset _)
    · have hget : slot.pool.buffers[(slot.idx : ℕ)] = buf := hbuf
      rw [taken, List.countP_set slot.idx.isLt, hcount, hget, hfree]
      simp

/-- Draws on, one of which reports exhaustion although something is not held. -/
theorem exists_dishonest (paint : γ → ℕ → UInt32 → UInt32 → γ) (m : ℕ) (h : s.Lent)
    (hleaks : s.Leaks) (hm : maxBuffers ≤ m + s.taken) :
    ∃ k, ¬ (lender γ).EachStep Honest s (List.replicate k (.draw paint)) := by
  induction m generalizing s with
  | zero =>
    refine ⟨1, fun hall => ?_⟩
    rcases draw_takes h hleaks paint with hnot | ⟨-, htaken⟩
    · exact hnot (EventMachine.eachStep_cons.mp hall).1
    · have hle := (h.draw paint).taken_le
      omega
  | succ m ih =>
    rcases draw_takes h hleaks paint with hnot | ⟨hleaks', htaken⟩
    · exact ⟨1, fun hall => hnot (EventMachine.eachStep_cons.mp hall).1⟩
    · obtain ⟨k, hk⟩ := ih (h.draw paint) hleaks' (by omega)
      exact ⟨k + 1, fun hall => hk (EventMachine.eachStep_cons.mp hall).2⟩

/-- What is dropped stays taken. -/
theorem Lent.leaks_of_dropped (h : s.Lent) {e : Use γ} (hk : ¬ s.Kept e) :
    ¬ s.Honest e ∨ (s.use e).Lent ∧ (s.use e).Leaks := by
  have hleaks : s.drawn.isNone ≠ true → s.Leaks := by
    intro hdrawn
    have hsome : s.drawn ≠ none := fun hnone => hdrawn (Option.isNone_iff_eq_none.mpr hnone)
    obtain ⟨d, hd⟩ := Option.ne_none_iff_exists'.mp hsome
    obtain ⟨hheld, b, hb, hname, htaken⟩ := h.drawn d hd
    exact ⟨b, hb, htaken, hname ▸ hheld⟩
  cases e with
  | draw paint =>
    rcases draw_takes h (hleaks hk) paint with hnot | ⟨hleaks', -⟩
    · exact .inl hnot
    · exact .inr ⟨h.draw paint, hleaks'⟩
  | resize w height =>
    obtain ⟨hdrawn, hsame⟩ := not_or.mp hk
    refine .inr ⟨h.resize w height, ?_⟩
    simp only [Holder.use, ShmDoubleBuffer.resize_same _ _ (not_not.mp hsame)]
    exact hleaks hdrawn
  | commit => exact absurd trivial hk
  | release wlBuf => exact absurd trivial hk

end Holder

theorem lent_of_init {γ : Type} [Inhabited γ] {s : Holder γ} (h : (lender γ).Init s) :
    s.Accounted ∧ s.Lent := by
  obtain ⟨hdrawn, hbusy, shm, w, height, hfailure, hnew⟩ := h
  have hr := ShmDoubleBuffer.refilled_of_new shm hnew
  obtain ⟨-, -, hpool, -, -⟩ := hr.pool
  constructor
  · refine ⟨hpool, fun b hb htaken => ?_⟩
    rw [hr.free b hb] at htaken
    cases htaken
  · refine ⟨hpool, fun n => (congrFun hr.failure n).trans (hfailure n), ?_, ?_, ?_⟩
    · simp [hbusy]
    · simp [hbusy]
    · simp [hdrawn]

/-- **Exhaustion is honest as long as nothing is dropped.** In a run in which no `draw`, and no
`resize` to the same size, comes between a `draw` and its commit, `draw` reports exhaustion only
while the compositor holds `MAX_BUFFERS` buffers, all those of the pool. When one does come between,
there are draws after which it is reported while a buffer is not held, unless the compositor has
released what it did not hold. -/
theorem honest_of_kept {γ : Type} [Inhabited γ] {s : Holder γ} {es : List (Use γ)}
    (hs : (lender γ).Init s) (hl : (lender γ).Legal s es)
    (hk : (lender γ).EachStep Holder.Kept s es) :
    (lender γ).EachStep Holder.Honest s es ∧
      ((lender γ).EachStep Holder.Returns s es →
        ∀ e, (lender γ).Enabled ((lender γ).run s es) e → ¬ ((lender γ).run s es).Kept e →
          ∀ paint, ∃ k, (lender γ).Legal s (es ++ e :: List.replicate k (.draw paint)) ∧
            ¬ (lender γ).EachStep Holder.Honest s (es ++ e :: List.replicate k (.draw paint))) := by
  obtain ⟨haccounted, hlent⟩ := lent_of_init hs
  have hall : (lender γ).Always Holder.Accounted s es :=
    .of_eachStep (fun s e hs _ hk => hs.use hk) haccounted hl hk
  refine ⟨fun pre e hp => ?_, fun hreturns e he hnot paint => ?_⟩
  · exact (hall pre ((List.prefix_append pre [e]).trans hp)).honest (hk pre e hp)
  · have hlast : (lender γ).Always Holder.Lent s es :=
      .of_eachStep (fun s e hs _ hr => hs.use hr) hlent hl hreturns
    have hdraws : ∀ (k : ℕ) (t : Holder γ),
        (lender γ).Legal t (List.replicate k (.draw paint)) := by
      intro k
      induction k with
      | zero => exact fun t => trivial
      | succ k ih => exact fun t => ⟨trivial, ih _⟩
    obtain ⟨k, hk'⟩ : ∃ k, ¬ (lender γ).EachStep Holder.Honest ((lender γ).run s es)
        (e :: List.replicate k (.draw paint)) := by
      rcases hlast.last.leaks_of_dropped hnot with hdishonest | ⟨hlent', hleaks⟩
      · exact ⟨0, fun hall => hdishonest (EventMachine.eachStep_cons.mp hall).1⟩
      · obtain ⟨k, hk'⟩ :=
          Holder.exists_dishonest paint maxBuffers hlent' hleaks (Nat.le_add_right _ _)
        exact ⟨k, fun hall => hk' (EventMachine.eachStep_cons.mp hall).2⟩
    refine ⟨k, (EventMachine.legal_append _).mpr ⟨hl, he, hdraws k _⟩, fun hall => hk' ?_⟩
    exact (EventMachine.eachStep_append.mp hall).2

/-- Four frames are committed and none is released; the fifth is refused. -/
def backedUp : List (Use ℕ) :=
  [.draw fun p _ _ _ => p, .commit, .draw fun p _ _ _ => p, .commit, .draw fun p _ _ _ => p,
    .commit, .draw fun p _ _ _ => p, .commit, .draw fun p _ _ _ => p]

theorem honest_of_kept_backedUp : (lender ℕ).EachStep Holder.Honest (made 1 1) backedUp := by
  have hinit : (lender ℕ).Init (made 1 1) :=
    ⟨rfl, rfl, ⟨0, fun _ => none, []⟩, 1, 1, fun _ => rfl, rfl⟩
  exact (honest_of_kept hinit (by decide) (by decide)).1

/-- Four frames are dropped. -/
def dropped : List (Use ℕ) := List.replicate 4 (.draw fun p _ _ _ => p)

/-- The fifth is refused, though the compositor holds nothing. -/
theorem not_honest :
    (lender ℕ).Init (made 1 1) ∧ (lender ℕ).Legal (made 1 1) dropped ∧
      ((lender ℕ).run (made 1 1) dropped).busy = [] ∧
      ¬ ((lender ℕ).run (made 1 1) dropped).Honest (.draw fun p _ _ _ => p) := by
  refine ⟨⟨rfl, rfl, ⟨0, fun _ => none, []⟩, 1, 1, fun _ => rfl, rfl⟩, by decide, rfl,
    fun hhonest => ?_⟩
  obtain ⟨-, -, hheld⟩ := hhonest maxBuffers _ rfl
  have hnone : (0 : ℕ) ∈ ([] : List ℕ) := hheld ⟨0, default, false, 1, 1⟩ (by decide)
  cases hnone

end Wlcommon

end Nullxes
