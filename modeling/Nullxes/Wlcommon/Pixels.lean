import Mathlib.Algebra.Order.Group.Nat
import Mathlib.Data.Int.Notation
import Mathlib.Tactic.Ring
import Nullxes.Library.Loops

/-!
# Pixels

The pixel helpers of `wlcommon/src/shm.rs`: `clear`, `fill_rect`, `hline`, `vline`. A pixel is four
bytes, blue, green, red and alpha; a row is `stride` bytes. An index that is out of range panics, so
what is painted is an `Option`.

A `Canvas` is the slice, whose length does not change, with a record of the pixels that were
painted: their column and row, in order.

## Main results

* `Canvas.yields_put` — a pixel inside of the buffer can be painted
* `yields_fillRect` — whatever its arguments, `fill_rect` paints inside of the buffer
-/

namespace Nullxes

namespace Wlcommon

open Loops

/-- `theme::Color`, by what `to_u8` makes of it. -/
structure Color where
  r : UInt8
  g : UInt8
  b : UInt8
  a : UInt8
  deriving DecidableEq, Repr

/-- `Color::from_hex` of these bytes. -/
def Color.rgb (r g b : UInt8) : Color := ⟨r, g, b, 255⟩

/-- A byte of a pixel under a colour with this alpha. -/
def blend (a old new : UInt8) : UInt8 :=
  UInt8.ofNat ((old.toNat * (255 - a.toNat) + new.toNat * a.toNat) / 255)

/-- `saturating_add`. -/
def saturatingAdd (a b : Int32) : ℤ := max (-2147483648) (min 2147483647 (a.toInt + b.toInt))

/-- A pixel buffer, and what was painted into it. -/
structure Canvas (n : ℕ) where
  pixels : Vector UInt8 n
  painted : List (ℕ × ℕ)

namespace Canvas

variable {n : ℕ}

/-- A byte is read and written. -/
def store (c : Canvas n) (i : ℕ) (f : UInt8 → UInt8) : Option (Canvas n) :=
  if h : i < n then some { c with pixels := c.pixels.set i (f c.pixels[i]) } else none

/-- A pixel is painted, byte by byte: blue, green, red, and an alpha of 255. -/
def put (c : Canvas n) (stride px py : ℕ) (b g r : UInt8 → UInt8) : Option (Canvas n) := do
  let i := py * stride + px * 4
  let c ← c.store i b
  let c ← c.store (i + 1) g
  let c ← c.store (i + 2) r
  let c ← c.store (i + 3) fun _ => 255
  some { c with painted := c.painted ++ [(px, py)] }

end Canvas

variable {n : ℕ}

def clear (pixels : Canvas n) (color : Color) : Option (Canvas n) :=
  (List.range (n / 4)).foldlM (fun pixels k => do
    let pixels ← pixels.store (k * 4) fun _ => color.b
    let pixels ← pixels.store (k * 4 + 1) fun _ => color.g
    let pixels ← pixels.store (k * 4 + 2) fun _ => color.r
    pixels.store (k * 4 + 3) fun _ => color.a) pixels

/-- The loops of `fill_rect`, with what the bytes of each pixel become. -/
def fillPixels (pixels : Canvas n) (stride x0 x1 y0 y1 : ℕ) (b g r : UInt8 → UInt8) :
    Option (Canvas n) :=
  (List.range' y0 (y1 - y0)).foldlM (fun pixels py =>
    (List.range' x0 (x1 - x0)).foldlM (fun pixels px => pixels.put stride px py b g r) pixels)
    pixels

/-- `fill_rect`: opaque, or blended with what is there. -/
def fillRect (pixels : Canvas n) (stride : ℕ) (bufW bufH : UInt32) (x y : Int32) (w h : UInt32)
    (color : Color) : Option (Canvas n) :=
  let x0 := x.toInt.toNat
  let y0 := y.toInt.toNat
  let x1 := (min (saturatingAdd x w.toInt32) bufW.toInt32.toInt).toNat
  let y1 := (min (saturatingAdd y h.toInt32) bufH.toInt32.toInt).toNat
  if x1 ≤ x0 ∨ y1 ≤ y0 then some pixels
  else if color.a = 255 then
    fillPixels pixels stride x0 x1 y0 y1 (fun _ => color.b) (fun _ => color.g) fun _ => color.r
  else
    fillPixels pixels stride x0 x1 y0 y1 (fun old => blend color.a old color.b)
      (fun old => blend color.a old color.g) fun old => blend color.a old color.r

def hline (pixels : Canvas n) (stride : ℕ) (bufW bufH : UInt32) (y x0 x1 : Int32)
    (color : Color) : Option (Canvas n) :=
  if x1 ≤ x0 then some pixels
  else fillRect pixels stride bufW bufH x0 y (x1 - x0).toUInt32 1 color

def vline (pixels : Canvas n) (stride : ℕ) (bufW bufH : UInt32) (x y0 y1 : Int32)
    (color : Color) : Option (Canvas n) :=
  if y1 ≤ y0 then some pixels
  else fillRect pixels stride bufW bufH x y0 1 (y1 - y0).toUInt32 color

/-! ## Inside of the buffer -/

/-- The buffer has all of its rows, and everything that was painted is on one of them. -/
structure Canvas.Inside (c : Canvas n) (stride : ℕ) (bufW bufH : UInt32) : Prop where
  row : 4 * bufW.toNat ≤ stride
  rows : stride * bufH.toNat ≤ n
  painted : ∀ p ∈ c.painted, p.1 < bufW.toNat ∧ p.2 < bufH.toNat

/-- The last byte of a pixel is in the buffer. -/
theorem index_lt {stride w h px py : ℕ} (hrow : 4 * w ≤ stride) (hrows : stride * h ≤ n)
    (hx : px < w) (hy : py < h) : py * stride + px * 4 + 3 < n := by
  have hpixel : px * 4 + 4 ≤ stride := by omega
  calc py * stride + px * 4 + 3 < py * stride + stride := by omega
    _ = stride * (py + 1) := by ring
    _ ≤ stride * h := Nat.mul_le_mul_left _ hy
    _ ≤ n := hrows

/-- `as i32`. -/
theorem toInt_toInt32 (w : UInt32) : w.toInt32.toInt =
    if 2 * w.toNat < 2 ^ 32 then (w.toNat : ℤ) else (w.toNat : ℤ) - ((2 ^ 32 : ℕ) : ℤ) :=
  BitVec.toInt_eq_toNat_cond w.toBitVec

/-- As an `i32` a `u32` is no greater. -/
theorem toInt_toInt32_le (w : UInt32) : w.toInt32.toInt ≤ (w.toNat : ℤ) := by
  rw [toInt_toInt32]
  split <;> omega

/-- A bound on a signed coordinate is one on the unsigned. -/
theorem toNat_lt_of_lt_toInt32 {i : ℤ} {w : UInt32} (hpos : 0 ≤ i) (h : i < w.toInt32.toInt) :
    i.toNat < w.toNat := by
  have hle := toInt_toInt32_le w
  omega

namespace Canvas

variable {c : Canvas n} {stride : ℕ} {bufW bufH : UInt32}

/-- A byte in range is written. -/
theorem yields_store {i : ℕ} (h : i < n) (f : UInt8 → UInt8) :
    Yields (fun c' => c'.painted = c.painted) (c.store i f) := by
  rw [store, dif_pos h]
  exact yields_some rfl

/-- **A pixel inside is painted.** -/
theorem yields_put (h : c.Inside stride bufW bufH) {px py : ℕ} (hx : px < bufW.toNat)
    (hy : py < bufH.toNat) (b g r : UInt8 → UInt8) :
    Yields (fun c' => c'.Inside stride bufW bufH) (c.put stride px py b g r) := by
  have hlast := index_lt h.row h.rows hx hy
  refine (yields_store (by omega) b).bind fun c₁ h₁ => ?_
  refine (yields_store (by omega) g).bind fun c₂ h₂ => ?_
  refine (yields_store (by omega) r).bind fun c₃ h₃ => ?_
  refine (yields_store hlast _).bind fun c₄ h₄ => yields_some ⟨h.row, h.rows, fun p hp => ?_⟩
  rcases List.mem_append.mp hp with hp | hp
  · rw [h₄, h₃, h₂, h₁] at hp
    exact h.painted p hp
  · rw [List.mem_singleton.mp hp]
    exact ⟨hx, hy⟩

end Canvas

section

variable {c : Canvas n} {stride : ℕ} {bufW bufH : UInt32}

theorem yields_fillPixels (h : c.Inside stride bufW bufH) {x0 x1 y0 y1 : ℕ}
    (hx : x1 ≤ bufW.toNat) (hy : y1 ≤ bufH.toNat) (b g r : UInt8 → UInt8) :
    Yields (fun c' => c'.Inside stride bufW bufH) (fillPixels c stride x0 x1 y0 y1 b g r) := by
  refine yields_foldlM (fun c hc py hpy => ?_) h
  refine yields_foldlM (fun c hc px hpx => ?_) hc
  have hpx' := List.mem_range'_1.mp hpx
  have hpy' := List.mem_range'_1.mp hpy
  exact Canvas.yields_put hc (by omega) (by omega) b g r

/-- What is clipped to the buffer is no further than its edge. -/
theorem toNat_min_toInt32_le (right : ℤ) (w : UInt32) :
    (min right w.toInt32.toInt).toNat ≤ w.toNat := by
  have hle := toInt_toInt32_le w
  omega

/-- **A rectangle is painted inside of the buffer**, wherever it lies. -/
theorem yields_fillRect (h : c.Inside stride bufW bufH) (x y : Int32) (w height : UInt32)
    (color : Color) :
    Yields (fun c' => c'.Inside stride bufW bufH)
      (fillRect c stride bufW bufH x y w height color) := by
  have hx := toNat_min_toInt32_le (saturatingAdd x w.toInt32) bufW
  have hy := toNat_min_toInt32_le (saturatingAdd y height.toInt32) bufH
  rw [fillRect]
  split
  · exact yields_some h
  · split
    · exact yields_fillPixels h hx hy _ _ _
    · exact yields_fillPixels h hx hy _ _ _

theorem yields_hline (h : c.Inside stride bufW bufH) (y x0 x1 : Int32) (color : Color) :
    Yields (fun c' => c'.Inside stride bufW bufH) (hline c stride bufW bufH y x0 x1 color) := by
  rw [hline]
  split
  · exact yields_some h
  · exact yields_fillRect h _ _ _ _ _

theorem yields_vline (h : c.Inside stride bufW bufH) (x y0 y1 : Int32) (color : Color) :
    Yields (fun c' => c'.Inside stride bufW bufH) (vline c stride bufW bufH x y0 y1 color) := by
  rw [vline]
  split
  · exact yields_some h
  · exact yields_fillRect h _ _ _ _ _

theorem yields_clear (h : c.Inside stride bufW bufH) (color : Color) :
    Yields (fun c' => c'.Inside stride bufW bufH) (clear c color) := by
  refine yields_foldlM (fun c hc k hk => ?_) h
  have hlt : k * 4 + 4 ≤ n := by
    have hk' := List.mem_range.mp hk
    omega
  refine (Canvas.yields_store (by omega) _).bind fun c₁ h₁ => ?_
  refine (Canvas.yields_store (by omega) _).bind fun c₂ h₂ => ?_
  refine (Canvas.yields_store (by omega) _).bind fun c₃ h₃ => ?_
  obtain ⟨c₄, heq, h₄⟩ := Canvas.yields_store (c := c₃) (i := k * 4 + 3) (by omega)
    fun _ => color.a
  refine ⟨c₄, heq, hc.row, hc.rows, ?_⟩
  rw [h₄, h₃, h₂, h₁]
  exact hc.painted

end

end Wlcommon

end Nullxes
