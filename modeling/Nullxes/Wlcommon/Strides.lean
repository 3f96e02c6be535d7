import Nullxes.Wlcommon.Pool

/-!
# Strides and sizes

`allocate_one` takes a width and a height to a stride and a size in bytes, by way of `u32`, `i32`,
`usize` and, for the file, `off_t`. What it passes on is what it should be exactly as long as the
size of a buffer fits in an `i32`, and the stride does (which a height of 0 does not settle).

## Main definitions

* `ShmDoubleBuffer.stride`, `ShmDoubleBuffer.size`, `ShmDoubleBuffer.fdSize` — the numbers of
  `allocate_one`
* `ShmDoubleBuffer.Exact` — what has been passed on has no wrap-around in it

## Main results

* `exact_iff` — when it has none
* `not_exact` — a buffer of 2 GiB
-/

namespace Nullxes

namespace Wlcommon

namespace ShmDoubleBuffer

/-- The `stride` of `allocate_one`. -/
def stride (w : UInt32) : Int32 := (w * 4).toInt32

/-- The `size` of `allocate_one`, which `create_shm_fd` gets. -/
def size (w h : UInt32) : ℕ :=
  min ((stride w).toInt64.toUInt64.toNat * h.toNat) (UInt64.size - 1)

/-- The length that `create_shm_fd` gives the file: `size as libc::off_t`. -/
def fdSize (w h : UInt32) : Int64 := Int64.ofNat (size w h)

/-- The requests of `allocate_one`. -/
def allocated (w h : UInt32) (wlBuf : ℕ) : List ShmRequest :=
  [.createPool (Int32.ofNat (size w h)), .createBuffer wlBuf 0 w.toInt32 h.toInt32 (stride w)]

variable {γ : Type} [Inhabited γ]

/-- The strides and sizes in the requests, the length of the file and the stride that `draw` passes
to the closure are those of a buffer of this width and height. -/
structure Exact (me : ShmDoubleBuffer γ) (sent : List ShmRequest) (w h : UInt32) : Prop where
  stride : ∀ (wlBuf : ℕ) (offset width height stride : Int32),
    .createBuffer wlBuf offset width height stride ∈ sent → stride.toInt = 4 * w.toNat
  poolSize : ∀ size : Int32, .createPool size ∈ sent → size.toInt = 4 * w.toNat * h.toNat
  fdSize : (fdSize me.w me.h).toInt = 4 * w.toNat * h.toNat
  rows : ∀ (shm shm' : Shm) (paint : γ → ℕ → UInt32 → UInt32 → γ) (pool : ShmDoubleBuffer γ)
    (drawn : DrawnBuffer γ), me.draw shm paint = (.ok (pool, drawn), shm') →
      ∃ pixels, drawn.pixels = paint pixels (4 * w.toNat) w h

/-- A row and a buffer of this size have fewer than `2^31` bytes. -/
def Addressable (w h : UInt32) : Prop :=
  4 * w.toNat < 2147483648 ∧ 4 * w.toNat * h.toNat < 2147483648

instance (w h : UInt32) : Decidable (Addressable w h) := inferInstanceAs (Decidable (_ ∧ _))

/-! ## The arithmetic -/

section

variable {w h : UInt32}

theorem toInt_stride (hw : 4 * w.toNat < 2147483648) : (stride w).toInt = 4 * w.toNat := by
  have hmul := toNat_mul_four (hw.trans (by decide))
  rw [stride, ← Int32.toInt_toBitVec, UInt32.toBitVec_toInt32, BitVec.toInt_eq_toNat_of_lt]
  · exact congrArg Int.ofNat hmul
  · show 2 * (w * 4).toNat < 2 ^ 32
    omega

theorem size_eq (hwh : Addressable w h) : size w h = 4 * w.toNat * h.toNat := by
  obtain ⟨hw, hh⟩ := hwh
  have htoInt : (stride w).toInt64.toInt = 4 * w.toNat := by
    rw [Int32.toInt_toInt64, toInt_stride hw]
  have hnonneg : 0 ≤ (stride w).toInt64 := by
    rw [Int64.le_iff_toInt_le, htoInt, Int64.toInt_zero]
    omega
  have hstride : (stride w).toInt64.toUInt64.toNat = 4 * w.toNat := by
    rw [Int64.toNat_toUInt64_of_le hnonneg, ← Int64.toNat_toInt, htoInt]
    omega
  rw [size, hstride]
  exact Nat.min_eq_left (hh.le.trans (by decide))

end

/-! ## What is passed on -/

variable {me pool : ShmDoubleBuffer γ} {shm shm' : Shm} {w h : UInt32}

/-- What `allocate_one` sends when it succeeds. -/
theorem allocateOne_sent {slot : Slot γ} (ha : me.allocateOne shm = (.ok slot, shm')) :
    shm'.sent = shm.sent ++ allocated me.w me.h shm.attempted ∧ slot.pool.w = me.w ∧
      slot.pool.h = me.h := by
  rw [allocateOne] at ha
  split at ha
  · cases ha
  dsimp only at ha
  split at ha
  · cases ha
  · cases ha
    exact ⟨rfl, rfl, rfl⟩

/-- What a new or resized pool has sent. -/
theorem Refilled.sent (hr : Refilled w h shm (.ok ()) pool shm') :
    ∃ m n, shm'.sent = shm.sent ++ (allocated w h m ++ allocated w h n) := by
  cases hr with
  | @two first _ shm₁ _ h₁ h₂ =>
    obtain ⟨hsent₁, hw, hh⟩ := allocateOne_sent h₁
    obtain ⟨hsent₂, -, -⟩ := allocateOne_sent h₂
    refine ⟨shm.attempted, shm₁.attempted, ?_⟩
    rw [hsent₂, hsent₁, hw, hh, List.append_assoc]

theorem stride_of_mem_allocated {n wlBuf : ℕ} {offset width height k : Int32}
    (hk : .createBuffer wlBuf offset width height k ∈ allocated w h n) : k = stride w := by
  have hbuf : wlBuf = n ∧ offset = 0 ∧ width = w.toInt32 ∧ height = h.toInt32 ∧ k = stride w := by
    simpa [allocated] using hk
  exact hbuf.2.2.2.2

/-- What two requests for buffers of this size pass on, and what is drawn then. -/
theorem exact_iff_addressable {k m n : ℕ} (hs : pool.Sound k) (hw : pool.w = w) (hh : pool.h = h) :
    pool.Exact (allocated w h m ++ allocated w h n) w h ↔ Addressable w h := by
  subst hw hh
  constructor
  · intro hexact
    have hstride := hexact.stride m 0 pool.w.toInt32 pool.h.toInt32 (stride pool.w)
      (by simp [allocated])
    have hsize := hexact.poolSize (Int32.ofNat (size pool.w pool.h)) (by simp [allocated])
    have hlt := Int32.toInt_lt (stride pool.w)
    have hlt' := Int32.toInt_lt (Int32.ofNat (size pool.w pool.h))
    rw [hstride] at hlt
    rw [hsize] at hlt'
    exact ⟨by omega, by exact_mod_cast hlt'⟩
  · intro hwh
    have hstride := toInt_stride hwh.1
    have hsize := size_eq hwh
    refine ⟨fun wlBuf offset width height k hk => ?_, fun k hk => ?_, ?_, ?_⟩
    · rcases List.mem_append.mp hk with hk | hk
      · rw [stride_of_mem_allocated hk, hstride]
      · rw [stride_of_mem_allocated hk, hstride]
    · obtain rfl : k = Int32.ofNat (size pool.w pool.h) := by simpa [allocated] using hk
      rw [Int32.toInt_ofNat_of_lt (by rw [hsize]; exact hwh.2), hsize]
      push_cast
      rfl
    · rw [fdSize, Int64.toInt_ofNat_of_lt (by rw [hsize]; exact hwh.2.trans (by decide)), hsize]
      push_cast
      rfl
    · intro shm shm' paint pool' drawn hd
      obtain ⟨buf, -, -, rfl⟩ := draw_paints hs.size (hwh.1.trans (by decide)) hd
      exact ⟨buf.pixels, rfl⟩

end ShmDoubleBuffer

open ShmDoubleBuffer in
/-- **When the arithmetic of `allocate_one` is exact.** Where `new` or `resize` returns `Ok`, the
strides and sizes that were passed on, and the stride that `draw` passes on from there, are those of
a buffer of this width and height exactly if a row and the whole of it have fewer than `2^31` bytes.
A `resize` to the size of the pool passes nothing on. -/
theorem exact_iff {γ : Type} [Inhabited γ] {shm shm' : Shm} {w h : UInt32}
    {pool : ShmDoubleBuffer γ} :
    (new shm w h = (.ok pool, shm') →
      ∃ sent, shm'.sent = shm.sent ++ sent ∧ (pool.Exact sent w h ↔ Addressable w h)) ∧
    ∀ me : ShmDoubleBuffer γ, me.resize shm w h = (.ok (), pool, shm') →
      (w = me.w ∧ h = me.h → pool = me ∧ shm' = shm) ∧
      (¬ (w = me.w ∧ h = me.h) →
        ∃ sent, shm'.sent = shm.sent ++ sent ∧ (pool.Exact sent w h ↔ Addressable w h)) := by
  have hrefilled : Refilled w h shm (.ok ()) pool shm' →
      ∃ sent, shm'.sent = shm.sent ++ sent ∧ (pool.Exact sent w h ↔ Addressable w h) := by
    intro hr
    obtain ⟨m, n, hsent⟩ := hr.sent
    obtain ⟨hw, hh, hs, -, -⟩ := hr.pool
    exact ⟨_, hsent, exact_iff_addressable hs hw hh⟩
  refine ⟨fun hnew => hrefilled (refilled_of_new shm hnew), fun me hok => ⟨fun heq => ?_, ?_⟩⟩
  · rw [resize_same me shm heq] at hok
    cases hok
    exact ⟨rfl, rfl⟩
  · intro hne
    obtain ⟨r, pool₁, shm₁, heq, hr⟩ := me.refilled_of_resize shm hne
    rw [heq] at hok
    cases hok
    exact hrefilled hr

/-- A screen of 1920×1080 fits. -/
theorem exact_iff_screen :
    ∃ (pool : ShmDoubleBuffer ℕ) (shm' : Shm) (sent : List ShmRequest),
      ShmDoubleBuffer.new ⟨0, fun _ => none, []⟩ 1920 1080 = (.ok pool, shm') ∧
        shm'.sent = sent ∧ pool.Exact sent 1920 1080 := by
  obtain ⟨sent, hsent, hexact⟩ := exact_iff.1
    (rfl : ShmDoubleBuffer.new (γ := ℕ) ⟨0, fun _ => none, []⟩ 1920 1080 = (.ok _, _))
  exact ⟨_, _, sent, rfl, hsent, hexact.mpr (by decide)⟩

/-- A buffer of 2 GiB: `create_pool` gets a negative size. A row of 4 GiB and 4 bytes: the stride
is 4. -/
theorem not_exact :
    (∃ (pool : ShmDoubleBuffer ℕ) (shm' : Shm),
      ShmDoubleBuffer.new ⟨0, fun _ => none, []⟩ 32768 16384 = (.ok pool, shm') ∧
        .createPool (-2147483648) ∈ shm'.sent ∧ ¬ pool.Exact shm'.sent 32768 16384) ∧
      ∃ (pool : ShmDoubleBuffer ℕ) (shm' : Shm),
        ShmDoubleBuffer.new ⟨0, fun _ => none, []⟩ 1073741825 1 = (.ok pool, shm') ∧
          .createBuffer 0 0 1073741825 1 4 ∈ shm'.sent ∧ ¬ pool.Exact shm'.sent 1073741825 1 := by
  refine ⟨⟨_, _, rfl, by decide, fun hexact => ?_⟩, ⟨_, _, rfl, by decide, fun hexact => ?_⟩⟩
  · have hsize := hexact.poolSize (-2147483648) (by decide)
    exact absurd hsize (by decide)
  · have hstride := hexact.stride 0 0 1073741825 1 4 (by decide)
    exact absurd hstride (by decide)

end Wlcommon

end Nullxes
