import Nullxes.Library.Compositing
import Nullxes.Wlcommon.Pixels

/-!
# Inking

What the pixel helpers of `wlcommon/src/shm.rs` do to each byte. A write changes one byte and is
an ink over the bytes of the buffer; what is written later lies in front. So a loop that paints is a
list of inks, and the byte it leaves behind is that of the composition.

## Main definitions

* `pixelInks` — the four bytes of a pixel
* `Canvas.Draws` — how a buffer came of another
* `rectInks` — the pixels of a rectangle
* `Within` — the columns, or rows, of a rectangle that lie in the buffer

## Main results

* `yields_draws_fillRect` — `fill_rect` draws the pixels of its rectangle, blended
* `compose_rectInks_of_mem`, `compose_rectInks_of_not_mem` — each of them once, and no other
-/

namespace Nullxes

namespace Wlcommon

open Loops Compositing

variable {n : ℕ}

/-! ## Blending -/

/-- A channel of a colour over another, the alpha being out of 255. -/
def sourceOver (a old new : ℕ) : ℕ := (old * (255 - a) + new * a) / 255

theorem sourceOver_le {a old new : ℕ} (ha : a ≤ 255) (hold : old ≤ 255) (hnew : new ≤ 255) :
    sourceOver a old new ≤ 255 := by
  refine Nat.div_le_of_le_mul ?_
  calc old * (255 - a) + new * a
      ≤ 255 * (255 - a) + 255 * a :=
        Nat.add_le_add (Nat.mul_le_mul_right _ hold) (Nat.mul_le_mul_right _ hnew)
    _ = 255 * 255 := by rw [← Nat.mul_add, Nat.sub_add_cancel ha]

/-- The cast to `u8` loses nothing. -/
theorem toNat_blend (a old new : UInt8) :
    (blend a old new).toNat = sourceOver a.toNat old.toNat new.toNat := by
  have hle := sourceOver_le (Nat.le_of_lt_succ a.toNat_lt) (Nat.le_of_lt_succ old.toNat_lt)
    (Nat.le_of_lt_succ new.toNat_lt)
  exact UInt8.toNat_ofNat_of_lt' (Nat.lt_succ_of_le hle)

/-- What is opaque is not blended. -/
theorem blend_full (old new : UInt8) : blend 255 old new = new := by
  refine UInt8.toNat_inj.mp ?_
  rw [toNat_blend, sourceOver, show (255 : UInt8).toNat = 255 from rfl, Nat.sub_self, Nat.mul_zero,
    Nat.zero_add, Nat.mul_div_cancel _ (by omega)]

/-! ## Inks -/

/-- A byte is written. -/
def byteInk (i : ℕ) (f : UInt8 → UInt8) : Ink ℕ UInt8 := fun j old => if j = i then f old else old

theorem clear_byteInk {i j : ℕ} (f : UInt8 → UInt8) (h : j ≠ i) : Clear (byteInk i f) j :=
  fun _ => if_neg h

/-- A pixel is painted. -/
def pixelInks (stride px py : ℕ) (b g r : UInt8 → UInt8) : List (Ink ℕ UInt8) :=
  let i := py * stride + px * 4
  [byteInk (i + 3) fun _ => 255, byteInk (i + 2) r, byteInk (i + 1) g, byteInk i b]

/-- The bytes of a pixel. -/
def InPixel (stride px py j : ℕ) : Prop :=
  py * stride + px * 4 ≤ j ∧ j < py * stride + px * 4 + 4

theorem clear_of_mem_pixelInks {stride px py j : ℕ} {b g r : UInt8 → UInt8} {e : Ink ℕ UInt8}
    (he : e ∈ pixelInks stride px py b g r) (h : ¬ InPixel stride px py j) : Clear e j := by
  rw [InPixel] at h
  simp only [pixelInks, List.mem_cons, List.not_mem_nil, or_false] at he
  rcases he with rfl | rfl | rfl | rfl
  · exact clear_byteInk _ (by omega)
  · exact clear_byteInk _ (by omega)
  · exact clear_byteInk _ (by omega)
  · exact clear_byteInk _ (by omega)

/-- A byte of the buffer is that of one pixel. -/
theorem InPixel.unique {stride w px py px' py' j : ℕ} (hrow : 4 * w ≤ stride) (hx : px < w)
    (hx' : px' < w) (h : InPixel stride px py j) (h' : InPixel stride px' py' j) :
    px = px' ∧ py = py' := by
  have hdiv : ∀ {q p : ℕ}, p < w → InPixel stride p q j → j / stride = q ∧ j % stride / 4 = p := by
    intro q p hp hj
    obtain ⟨k, hk, rfl⟩ : ∃ k, k < 4 ∧ j = p * 4 + k + q * stride := by
      obtain ⟨hle, hlt⟩ := hj
      exact ⟨j - (q * stride + p * 4), by omega, by omega⟩
    have hlt : p * 4 + k < stride := by omega
    rw [Nat.add_mul_div_right _ _ (by omega), Nat.div_eq_of_lt hlt, Nat.add_mul_mod_self_right,
      Nat.mod_eq_of_lt hlt]
    omega
  exact ⟨(hdiv hx h).2.symm.trans (hdiv hx' h').2, (hdiv hx h).1.symm.trans (hdiv hx' h').1⟩

section

variable {stride px py : ℕ} {b g r : UInt8 → UInt8}

theorem compose_pixelInks_blue (old : UInt8) :
    compose (pixelInks stride px py b g r) old (py * stride + px * 4) = b old := by
  simp [pixelInks, byteInk]

theorem compose_pixelInks_green (old : UInt8) :
    compose (pixelInks stride px py b g r) old (py * stride + px * 4 + 1) = g old := by
  simp [pixelInks, byteInk]

theorem compose_pixelInks_red (old : UInt8) :
    compose (pixelInks stride px py b g r) old (py * stride + px * 4 + 2) = r old := by
  simp [pixelInks, byteInk]

theorem compose_pixelInks_alpha (old : UInt8) :
    compose (pixelInks stride px py b g r) old (py * stride + px * 4 + 3) = 255 := by
  simp [pixelInks, byteInk]

end

/-! ## Drawing -/

namespace Canvas

/-- Each byte is what the inks make of it. -/
def Draws (es : List (Ink ℕ UInt8)) (c c' : Canvas n) : Prop :=
  ∀ j, ∀ h : j < n, c'.pixels[j] = compose es c.pixels[j] j

theorem draws_nil (c : Canvas n) : Draws [] c c := fun _ _ => rfl

theorem Draws.append {es fs : List (Ink ℕ UInt8)} {c c' c'' : Canvas n} (h : Draws es c c')
    (h' : Draws fs c' c'') : Draws (fs ++ es) c c'' := by
  intro j hj
  rw [compose_append, ← h j hj]
  exact h' j hj

theorem yields_draws_store {i : ℕ} (h : i < n) (f : UInt8 → UInt8) (c : Canvas n) :
    Yields (Draws [byteInk i f] c) (c.store i f) := by
  rw [store, dif_pos h]
  refine yields_some fun j hj => ?_
  rw [compose_cons, compose_nil, byteInk]
  split
  next heq =>
    subst heq
    exact Vector.getElem_set_self h
  next hne => exact Vector.getElem_set_ne h hj (Ne.symm hne)

/-- **Painting a pixel draws its four bytes.** -/
theorem yields_draws_put {stride px py : ℕ} (h : py * stride + px * 4 + 3 < n)
    (b g r : UInt8 → UInt8) (c : Canvas n) :
    Yields (Draws (pixelInks stride px py b g r) c) (c.put stride px py b g r) := by
  refine (yields_draws_store (by omega) b c).bind fun c₁ h₁ => ?_
  refine (yields_draws_store (by omega) g c₁).bind fun c₂ h₂ => ?_
  refine (yields_draws_store (by omega) r c₂).bind fun c₃ h₃ => ?_
  refine (yields_draws_store h _ c₃).bind fun c₄ h₄ => yields_some ?_
  exact ((h₁.append h₂).append h₃).append h₄

/-- A loop that draws in each of its rounds. -/
theorem yields_draws_foldlM {α : Type} {f : Canvas n → α → Option (Canvas n)}
    {es : α → List (Ink ℕ UInt8)} {l : List α}
    (hf : ∀ c, ∀ a ∈ l, Yields (Draws (es a) c) (f c a)) (c : Canvas n) :
    Yields (Draws (l.reverse.flatMap es) c) (l.foldlM f c) :=
  yields_foldlM_trace draws_nil Draws.append hf c

end Canvas

/-! ## Rectangles -/

/-- The pixels of a rectangle, row after row. -/
def rectInks (stride x0 x1 y0 y1 : ℕ) (b g r : UInt8 → UInt8) : List (Ink ℕ UInt8) :=
  (List.range' y0 (y1 - y0)).reverse.flatMap fun py =>
    (List.range' x0 (x1 - x0)).reverse.flatMap fun px => pixelInks stride px py b g r

theorem rectInks_of_empty {stride x0 x1 y0 y1 : ℕ} (h : x1 ≤ x0 ∨ y1 ≤ y0)
    (b g r : UInt8 → UInt8) : rectInks stride x0 x1 y0 y1 b g r = [] := by
  rcases h with h | h
  · simp [rectInks, Nat.sub_eq_zero_of_le h]
  · simp [rectInks, Nat.sub_eq_zero_of_le h]

theorem yields_draws_fillPixels {stride w h x0 x1 y0 y1 : ℕ} (hrow : 4 * w ≤ stride)
    (hrows : stride * h ≤ n) (hx : x1 ≤ w) (hy : y1 ≤ h) (b g r : UInt8 → UInt8) (c : Canvas n) :
    Yields (c.Draws (rectInks stride x0 x1 y0 y1 b g r))
      (fillPixels c stride x0 x1 y0 y1 b g r) := by
  refine Canvas.yields_draws_foldlM (fun c py hpy => ?_) c
  refine Canvas.yields_draws_foldlM (fun c px hpx => ?_) c
  have hpx' := List.mem_range'_1.mp hpx
  have hpy' := List.mem_range'_1.mp hpy
  exact Canvas.yields_draws_put (index_lt hrow hrows (by omega) (by omega)) b g r c

section

variable {stride w x0 x1 y0 y1 px py j : ℕ} {b g r : UInt8 → UInt8}

/-- Each pixel of a rectangle is painted once. -/
theorem compose_rectInks_of_mem (hrow : 4 * w ≤ stride) (hw : x1 ≤ w) (hx : x0 ≤ px ∧ px < x1)
    (hy : y0 ≤ py ∧ py < y1) (hj : InPixel stride px py j) (old : UInt8) :
    compose (rectInks stride x0 x1 y0 y1 b g r) old j =
      compose (pixelInks stride px py b g r) old j := by
  have hclear : ∀ px' ∈ (List.range' x0 (x1 - x0)).reverse, ∀ py', ¬ (px' = px ∧ py' = py) →
      ∀ e ∈ pixelInks stride px' py' b g r, Clear e j := by
    intro px' hpx' py' hne e he
    have hlt := List.mem_range'_1.mp (List.mem_reverse.mp hpx')
    exact clear_of_mem_pixelInks he fun hin =>
      hne (InPixel.unique hrow (by omega) (by omega) hin hj)
  have hcols : (List.range' x0 (x1 - x0)).reverse.Nodup := List.nodup_reverse.mpr List.nodup_range'
  have hrows : (List.range' y0 (y1 - y0)).reverse.Nodup := List.nodup_reverse.mpr List.nodup_range'
  have hpx : px ∈ (List.range' x0 (x1 - x0)).reverse :=
    List.mem_reverse.mpr (List.mem_range'_1.mpr (by omega))
  have hpy : py ∈ (List.range' y0 (y1 - y0)).reverse :=
    List.mem_reverse.mpr (List.mem_range'_1.mpr (by omega))
  have hother : ∀ py' ∈ (List.range' y0 (y1 - y0)).reverse, py' ≠ py →
      ∀ e ∈ (List.range' x0 (x1 - x0)).reverse.flatMap fun px => pixelInks stride px py' b g r,
        Clear e j := by
    intro py' _ hne e he
    obtain ⟨px', hpx', he'⟩ := List.mem_flatMap.mp he
    exact hclear px' hpx' py' (fun h => hne h.2) e he'
  calc compose (rectInks stride x0 x1 y0 y1 b g r) old j
      = compose ((List.range' x0 (x1 - x0)).reverse.flatMap fun px =>
          pixelInks stride px py b g r) old j := compose_flatMap_of_alone hrows hpy hother old
    _ = compose (pixelInks stride px py b g r) old j :=
        compose_flatMap_of_alone hcols hpx
          (fun px' hpx' hne => hclear px' hpx' py fun h => hne h.1) old

/-- Nothing else is painted. -/
theorem compose_rectInks_of_not_mem
    (h : ∀ px py, x0 ≤ px ∧ px < x1 → y0 ≤ py ∧ py < y1 → ¬ InPixel stride px py j)
    (old : UInt8) : compose (rectInks stride x0 x1 y0 y1 b g r) old j = old := by
  refine compose_flatMap_of_clear (fun py hpy e he => ?_) old
  obtain ⟨px, hpx, he'⟩ := List.mem_flatMap.mp he
  have hpx' := List.mem_range'_1.mp (List.mem_reverse.mp hpx)
  have hpy' := List.mem_range'_1.mp (List.mem_reverse.mp hpy)
  exact clear_of_mem_pixelInks he' (h px py (by omega) (by omega))

end

/-! ## Clipping -/

/-- A column of a rectangle, or a row, that is in the buffer. -/
def Within (x : Int32) (w bufW : UInt32) (px : ℕ) : Prop :=
  x.toInt ≤ px ∧ (px : ℤ) < x.toInt + w.toNat ∧ px < bufW.toNat

/-- Up to `i32::MAX` the cast is exact. -/
theorem toInt_toInt32_of_le {w : UInt32} (h : w.toNat ≤ 2147483647) :
    w.toInt32.toInt = (w.toNat : ℤ) := by
  rw [toInt_toInt32, if_pos (by omega)]

/-- **The clamped bounds of the loops.** -/
theorem within_iff {x : Int32} {w bufW : UInt32} (hw : w.toNat ≤ 2147483647)
    (hbuf : bufW.toNat ≤ 2147483647) {px : ℕ} :
    Within x w bufW px ↔ x.toInt.toNat ≤ px ∧
      px < (min (saturatingAdd x w.toInt32) bufW.toInt32.toInt).toNat := by
  rw [Within, saturatingAdd, toInt_toInt32_of_le hw, toInt_toInt32_of_le hbuf]
  have hlo : -2147483648 ≤ x.toInt := Int32.le_toInt x
  omega

/-- The pixel at `i` is repainted: `channel` says what became of a byte of it and that of the
colour, `alpha` what became of its alpha. -/
def Repainted (channel : UInt8 → UInt8 → ℕ) (alpha : UInt8 → UInt8) (color : Color)
    (c c' : Canvas n) (i : ℕ) : Prop :=
  ∃ h : i + 3 < n,
    c'.pixels[i].toNat = channel c.pixels[i] color.b ∧
    c'.pixels[i + 1].toNat = channel c.pixels[i + 1] color.g ∧
    c'.pixels[i + 2].toNat = channel c.pixels[i + 2] color.r ∧
    c'.pixels[i + 3] = alpha c.pixels[i + 3]

/-- Its channels are blended with the colour, and its alpha is opaque. -/
def Blended (color : Color) (c c' : Canvas n) (i : ℕ) : Prop :=
  Repainted (fun old new => sourceOver color.a.toNat old.toNat new.toNat) (fun _ => 255) color c c'
    i

/-- A pixel of blended inks is one. -/
theorem blended_of_compose {color : Color} {c c' : Canvas n} {stride px py : ℕ}
    (hlast : py * stride + px * 4 + 3 < n)
    (h : ∀ j, ∀ hj : j < n, InPixel stride px py j → c'.pixels[j] = compose
      (pixelInks stride px py (fun old => blend color.a old color.b)
        (fun old => blend color.a old color.g) fun old => blend color.a old color.r)
      c.pixels[j] j) : Blended color c c' (py * stride + px * 4) := by
  refine ⟨hlast, ?_, ?_, ?_, ?_⟩
  · rw [h _ (by omega) ⟨by omega, by omega⟩, compose_pixelInks_blue, toNat_blend]
  · rw [h _ (by omega) ⟨by omega, by omega⟩, compose_pixelInks_green, toNat_blend]
  · rw [h _ (by omega) ⟨by omega, by omega⟩, compose_pixelInks_red, toNat_blend]
  · rw [h _ hlast ⟨by omega, by omega⟩, compose_pixelInks_alpha]

/-- `fill_rect` draws the pixels of its rectangle, blended: opaque is a case of it. -/
theorem yields_draws_fillRect {stride : ℕ} {bufW bufH : UInt32} (hrow : 4 * bufW.toNat ≤ stride)
    (hrows : stride * bufH.toNat ≤ n) (c : Canvas n) (x y : Int32) (w h : UInt32) (color : Color) :
    Yields (c.Draws (rectInks stride x.toInt.toNat
        (min (saturatingAdd x w.toInt32) bufW.toInt32.toInt).toNat y.toInt.toNat
        (min (saturatingAdd y h.toInt32) bufH.toInt32.toInt).toNat
        (fun old => blend color.a old color.b) (fun old => blend color.a old color.g)
        fun old => blend color.a old color.r))
      (fillRect c stride bufW bufH x y w h color) := by
  have hx := toNat_min_toInt32_le (saturatingAdd x w.toInt32) bufW
  have hy := toNat_min_toInt32_le (saturatingAdd y h.toInt32) bufH
  rw [fillRect]
  split
  next hempty =>
    rw [rectInks_of_empty hempty]
    exact yields_some (Canvas.draws_nil c)
  next =>
    split
    next hfull =>
      simp only [hfull, blend_full]
      exact yields_draws_fillPixels hrow hrows hx hy _ _ _ c
    next => exact yields_draws_fillPixels hrow hrows hx hy _ _ _ c

end Wlcommon

end Nullxes
