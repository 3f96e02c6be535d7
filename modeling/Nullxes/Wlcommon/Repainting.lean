import Nullxes.Wlcommon.Pixels

/-!
# Painting over what was there

A buffer that comes back from the compositor still holds the frame that was drawn into it. What the
pixel helpers make of two buffers that differ in what they hold: `clear`, and a background that
covers everything, make them the same byte after byte, and the other helpers keep them the same.

## Main definitions

* `Canvas.Agree` — two buffers have the same bytes up to somewhere
* `cover` — each pixel gets a colour of its own

## Main results

* `rel_clear`, `rel_cover` — what was there makes no difference any more
* `rel_fillRect` — what is the same stays the same
-/

namespace Nullxes

namespace Wlcommon

open Loops

variable {n : ℕ}

/-- The inner loop of `paint_scaled_background`, with the colour of each pixel. What is not in the
buffer is skipped. -/
def coverRow (pixels : Canvas n) (stride : ℕ) (bufW : UInt32) (sample : ℕ → ℕ → Color) (y : ℕ) :
    Option (Canvas n) :=
  (List.range bufW.toNat).foldlM (fun pixels x =>
    if n ≤ y * stride + x * 4 + 3 then some pixels
    else
      pixels.put stride x y (fun _ => (sample x y).b) (fun _ => (sample x y).g)
        fun _ => (sample x y).r) pixels

/-- The loops of `paint_scaled_background`. -/
def cover (pixels : Canvas n) (stride : ℕ) (bufW bufH : UInt32) (sample : ℕ → ℕ → Color) :
    Option (Canvas n) :=
  (List.range bufH.toNat).foldlM (fun pixels y => coverRow pixels stride bufW sample y) pixels

namespace Canvas

variable {c c' : Canvas n} {m : ℕ}

/-- The first `m` bytes are the same. -/
def Agree (m : ℕ) (c c' : Canvas n) : Prop :=
  ∀ j, ∀ h : j < n, j < m → c.pixels[j] = c'.pixels[j]

theorem agree_zero (c c' : Canvas n) : Agree 0 c c' := fun _ _ h => absurd h (Nat.not_lt_zero _)

theorem Agree.pixels_eq (h : Agree n c c') : c.pixels = c'.pixels :=
  Vector.ext fun j hj => h j hj hj

/-- A byte that is made of the byte that was there. -/
theorem rel_store (h : Agree n c c') (i : ℕ) (f : UInt8 → UInt8) :
    Option.Rel (Agree n) (c.store i f) (c'.store i f) := by
  rw [store, store]
  split
  next hi =>
    refine .some fun j hj _ => ?_
    have hpixels := h.pixels_eq
    simp only [hpixels]
  next => exact .none

/-- A byte that is made of nothing: one more is the same. -/
theorem rel_store_const (h : Agree m c c') (v : UInt8) :
    Option.Rel (Agree (m + 1)) (c.store m fun _ => v) (c'.store m fun _ => v) := by
  rw [store, store]
  split
  next hm =>
    refine .some fun j hj hlt => ?_
    rcases Nat.lt_succ_iff_lt_or_eq.mp hlt with hlt | rfl
    · have hne : m ≠ j := Nat.ne_of_gt hlt
      simp only [Vector.getElem_set_ne _ _ hne]
      exact h j hj hlt
    · simp only [Vector.getElem_set_self]
  next => exact .none

theorem rel_put (h : Agree n c c') (stride px py : ℕ) (b g r : UInt8 → UInt8) :
    Option.Rel (Agree n) (c.put stride px py b g r) (c'.put stride px py b g r) := by
  refine rel_bind (rel_store h _ b) fun c₁ c₁' h₁ => ?_
  refine rel_bind (rel_store h₁ _ g) fun c₂ c₂' h₂ => ?_
  refine rel_bind (rel_store h₂ _ r) fun c₃ c₃' h₃ => ?_
  exact rel_bind (rel_store h₃ _ _) fun c₄ c₄' h₄ => .some h₄

/-- A pixel that is made of nothing: four more bytes are the same. -/
theorem rel_put_const {stride px py : ℕ} (h : Agree (py * stride + px * 4) c c') (b g r : UInt8) :
    Option.Rel (Agree (py * stride + (px + 1) * 4))
      (c.put stride px py (fun _ => b) (fun _ => g) fun _ => r)
      (c'.put stride px py (fun _ => b) (fun _ => g) fun _ => r) := by
  refine rel_bind (rel_store_const h b) fun c₁ c₁' h₁ => ?_
  refine rel_bind (rel_store_const h₁ g) fun c₂ c₂' h₂ => ?_
  refine rel_bind (rel_store_const h₂ r) fun c₃ c₃' h₃ => ?_
  refine rel_bind (rel_store_const h₃ 255) fun c₄ c₄' h₄ => .some ?_
  have hend : py * stride + (px + 1) * 4 = py * stride + px * 4 + 1 + 1 + 1 + 1 := by omega
  rw [hend]
  exact h₄

end Canvas

open Canvas

variable {c c' : Canvas n} {stride : ℕ} {bufW bufH : UInt32}

/-! ## What makes two buffers the same -/

/-- **`clear` leaves nothing of what was there.** -/
theorem rel_clear (hn : n % 4 = 0) (c c' : Canvas n) (color : Color) :
    Option.Rel (Agree n) (clear c color) (clear c' color) := by
  have hloop : Option.Rel (Agree ((0 + n / 4) * 4)) (clear c color) (clear c' color) := by
    rw [clear, clear, List.range_eq_range']
    refine rel_foldlM_range' (R := fun k => Agree (k * 4)) (fun k _ _ s s' hs => ?_)
      (agree_zero c c')
    refine rel_bind (rel_store_const hs _) fun c₁ c₁' h₁ => ?_
    refine rel_bind (rel_store_const h₁ _) fun c₂ c₂' h₂ => ?_
    refine rel_bind (rel_store_const h₂ _) fun c₃ c₃' h₃ => ?_
    have hend : (k + 1) * 4 = k * 4 + 1 + 1 + 1 + 1 := by omega
    rw [hend]
    exact rel_store_const h₃ _
  rwa [show (0 + n / 4) * 4 = n by omega] at hloop

/-- A row of the background, where the rows above are the same. -/
theorem rel_coverRow (hstride : stride = 4 * bufW.toNat) (hn : n = stride * bufH.toNat) {y : ℕ}
    (hy : y < bufH.toNat) (h : Agree (y * stride) c c') (sample : ℕ → ℕ → Color) :
    Option.Rel (Agree ((y + 1) * stride)) (coverRow c stride bufW sample y)
      (coverRow c' stride bufW sample y) := by
  have hloop : Option.Rel (Agree (y * stride + (0 + bufW.toNat) * 4))
      (coverRow c stride bufW sample y) (coverRow c' stride bufW sample y) := by
    rw [coverRow, coverRow, List.range_eq_range']
    refine rel_foldlM_range' (R := fun x => Agree (y * stride + x * 4))
      (fun x _ hx s s' hs => ?_) (by rwa [Nat.zero_mul])
    have hlast : y * stride + x * 4 + 3 < n :=
      index_lt (w := bufW.toNat) hstride.ge hn.ge (by omega) hy
    rw [if_neg (Nat.not_le_of_lt hlast), if_neg (Nat.not_le_of_lt hlast)]
    exact rel_put_const hs _ _ _
  have hend : (y + 1) * stride = y * stride + (0 + bufW.toNat) * 4 := by
    rw [Nat.add_mul]
    omega
  rwa [hend]

/-- **A background that covers the buffer leaves nothing of what was there.** -/
theorem rel_cover (hstride : stride = 4 * bufW.toNat) (hn : n = stride * bufH.toNat)
    (c c' : Canvas n) (sample : ℕ → ℕ → Color) :
    Option.Rel (Agree n) (cover c stride bufW bufH sample)
      (cover c' stride bufW bufH sample) := by
  have hloop : Option.Rel (Agree ((0 + bufH.toNat) * stride))
      (cover c stride bufW bufH sample) (cover c' stride bufW bufH sample) := by
    rw [cover, cover, List.range_eq_range']
    refine rel_foldlM_range' (R := fun y => Agree (y * stride)) (fun y _ hy s s' hs => ?_)
      (by rw [Nat.zero_mul]; exact agree_zero c c')
    exact rel_coverRow hstride hn (by omega) hs sample
  have hend : (0 + bufH.toNat) * stride = n := by rw [hn, Nat.zero_add, Nat.mul_comm]
  rwa [hend] at hloop

/-- It is painted inside of the buffer. -/
theorem yields_cover (h : c.Inside stride bufW bufH) (sample : ℕ → ℕ → Color) :
    Yields (fun c' => c'.Inside stride bufW bufH) (cover c stride bufW bufH sample) := by
  refine yields_foldlM (fun c hc y hy => ?_) h
  refine yields_foldlM (fun c hc x hx => ?_) hc
  split
  · exact yields_some hc
  · exact yields_put hc (List.mem_range.mp hx) (List.mem_range.mp hy) _ _ _

/-! ## What keeps them the same -/

theorem rel_fillPixels (h : Agree n c c') (x0 x1 y0 y1 : ℕ) (b g r : UInt8 → UInt8) :
    Option.Rel (Agree n) (fillPixels c stride x0 x1 y0 y1 b g r)
      (fillPixels c' stride x0 x1 y0 y1 b g r) := by
  refine rel_foldlM (fun c c' hc py _ => ?_) h
  exact rel_foldlM (fun c c' hc px _ => rel_put hc stride px py b g r) hc

theorem rel_fillRect (h : Agree n c c') (x y : Int32) (w height : UInt32) (color : Color) :
    Option.Rel (Agree n) (fillRect c stride bufW bufH x y w height color)
      (fillRect c' stride bufW bufH x y w height color) := by
  rw [fillRect, fillRect]
  split
  · exact .some h
  · split
    · exact rel_fillPixels h _ _ _ _ _ _ _
    · exact rel_fillPixels h _ _ _ _ _ _ _

theorem rel_hline (h : Agree n c c') (y x0 x1 : Int32) (color : Color) :
    Option.Rel (Agree n) (hline c stride bufW bufH y x0 x1 color)
      (hline c' stride bufW bufH y x0 x1 color) := by
  rw [hline, hline]
  split
  · exact .some h
  · exact rel_fillRect h _ _ _ _ _

theorem rel_vline (h : Agree n c c') (x y0 y1 : Int32) (color : Color) :
    Option.Rel (Agree n) (vline c stride bufW bufH x y0 y1 color)
      (vline c' stride bufW bufH x y0 y1 color) := by
  rw [vline, vline]
  split
  · exact .some h
  · exact rel_fillRect h _ _ _ _ _

end Wlcommon

end Nullxes
