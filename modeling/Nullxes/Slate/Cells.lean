import Nullxes.Slate.Geometry

/-!
# The cell grid

`cell_grid_for_window` over all sizes. Columns and rows are bounded below before they are cut to
sixteen bits, so the bound does not hold of what is cut: a window of `65536` columns has none. Below
that nothing is lost, and the grid is the largest that the window has room for.

## Main definitions

* `GridFits` — the grid is not empty, has room, and lost nothing

## Main results

* `gridFits_iff` — the sizes for which it does
* `always_gridFits` — every session has such a grid, while the window has such a size
-/

namespace Nullxes

namespace Slate

/-! ## Arithmetic -/

theorem toNat_saturatingSub (a b : UInt32) :
    (saturatingSub a b).toNat = a.toNat - b.toNat := by
  rw [saturatingSub]
  split
  next h =>
    have hle := UInt32.le_iff_toNat_le.mp h
    rw [UInt32.toNat_zero]
    omega
  next h => exact UInt32.toNat_sub_of_le _ _ (UInt32.le_of_lt (UInt32.not_le.mp h))

theorem toNat_max_one (a : UInt32) : (max a 1).toNat = max a.toNat 1 := by
  have hmax : max a 1 = if a ≤ 1 then 1 else a := rfl
  rw [hmax]
  split
  next h =>
    have hle : a.toNat ≤ 1 := UInt32.le_iff_toNat_le.mp h
    exact (Nat.max_eq_right hle).symm
  next h =>
    have hlt : 1 < a.toNat := UInt32.lt_iff_toNat_lt.mp (UInt32.not_le.mp h)
    exact (Nat.max_eq_left (Nat.le_of_lt hlt)).symm

/-- The cells of one dimension: there is one, they and the padding are in the window if it has room
for one, and the cast lost nothing. -/
structure CellsFit (count : UInt16) (size cell : UInt32) : Prop where
  pos : 1 ≤ count.toNat
  room : cell.toNat + 2 * padding.toNat ≤ size.toNat →
    count.toNat * cell.toNat + 2 * padding.toNat ≤ size.toNat
  cast : count.toNat = max ((size.toNat - 2 * padding.toNat) / cell.toNat) 1

/-- How many cells there are, after the cast. -/
theorem toNat_cells (size cell : UInt32) :
    (max (saturatingSub size (2 * padding) / cell) 1).toUInt16.toNat =
      max ((size.toNat - 2 * padding.toNat) / cell.toNat) 1 % 65536 := by
  rw [UInt32.toNat_toUInt16, toNat_max_one, UInt32.toNat_div, toNat_saturatingSub]
  rfl

/-- **Cells fit exactly if there are no more than a `u16` counts.** -/
theorem cellsFit_iff {size cell : UInt32} (hcell : 0 < cell.toNat) :
    CellsFit (max (saturatingSub size (2 * padding) / cell) 1).toUInt16 size cell ↔
      (size.toNat - 2 * padding.toNat) / cell.toNat ≤ 65535 := by
  have hcount := toNat_cells size cell
  constructor
  · intro h
    have hcast := h.cast
    omega
  · intro hle
    have hcast : (max (saturatingSub size (2 * padding) / cell) 1).toUInt16.toNat =
        max ((size.toNat - 2 * padding.toNat) / cell.toNat) 1 := by
      rw [hcount]
      exact Nat.mod_eq_of_lt (by omega)
    refine ⟨?_, fun hroom => ?_, hcast⟩
    · rw [hcast]
      exact Nat.le_max_right _ _
    · have hone : 1 ≤ (size.toNat - 2 * padding.toNat) / cell.toNat :=
        Nat.div_pos (by omega) hcell
      have hmul := Nat.div_mul_le_self (size.toNat - 2 * padding.toNat) cell.toNat
      rw [hcast, Nat.max_eq_left hone]
      omega

/-! ## The grid of a window -/

/-- The grid of a window fits in both dimensions. -/
def GridFits (windowW windowH : UInt32) : Prop :=
  CellsFit (cellGridForWindow windowW windowH).1 windowW cellW ∧
    CellsFit (cellGridForWindow windowW windowH).2 windowH cellH

theorem colsFit_iff (windowW windowH : UInt32) :
    CellsFit (cellGridForWindow windowW windowH).1 windowW cellW ↔ windowW.toNat < 524304 := by
  have hfit : CellsFit (cellGridForWindow windowW windowH).1 windowW cellW ↔
      (windowW.toNat - 16) / 8 ≤ 65535 := cellsFit_iff (by decide)
  rw [hfit]
  omega

theorem rowsFit_iff (windowW windowH : UInt32) :
    CellsFit (cellGridForWindow windowW windowH).2 windowH cellH ↔ windowH.toNat < 1179664 := by
  have hfit : CellsFit (cellGridForWindow windowW windowH).2 windowH cellH ↔
      (windowH.toNat - 16) / 18 ≤ 65535 := cellsFit_iff (by decide)
  rw [hfit]
  omega

/-- **The sizes whose grid fits** are those with at most `65535` columns and rows. -/
theorem gridFits_iff (windowW windowH : UInt32) :
    GridFits windowW windowH ↔ windowW.toNat < 524304 ∧ windowH.toNat < 1179664 :=
  and_congr (colsFit_iff windowW windowH) (rowsFit_iff windowW windowH)

/-- **A window that is wide enough has no column.** -/
theorem not_gridFits : ¬ ∀ windowW windowH : UInt32, GridFits windowW windowH := by
  intro hall
  have hpos := (hall 524304 500).1.pos
  exact absurd hpos (by decide)

/-! ## Sessions -/

/-- While the window has such a size, the grid of its session is not empty and not too large. -/
theorem always_gridFits (failure ptyFailure : ℕ → Option String) (es : List Event) :
    (slate failure ptyFailure).Always (fun s => ∀ t ∈ s.term, s.width.toNat < 524304 →
        s.height.toNat < 1179664 →
        CellsFit t.settled.winsize.numCols s.width cellW ∧
          CellsFit t.settled.winsize.numLines s.height cellH ∧
          t.term = ⟨t.settled.winsize.numCols.toNat, t.settled.winsize.numLines.toNat⟩)
      (SlateState.new failure ptyFailure).initSurface es := by
  refine (always_fits failure ptyFailure es).mono fun s hfits t ht hw hh => ?_
  rw [hfits.winsize t ht]
  exact ⟨(colsFit_iff s.width s.height).mpr hw, (rowsFit_iff s.width s.height).mpr hh,
    hfits.grid t ht⟩

end Slate

end Nullxes
