import Nullxes.Launcher.State
import Nullxes.Theme.Accent
import Nullxes.Theme.Frames

/-!
# Painting the launcher

`launcher/src/draw.rs`: the operations of `paint`, with their colours and in `i32`.
-/

namespace Nullxes

namespace Launcher

open Wlcommon (Color)
open Theme hiding DrawOp

/-- A colour, with the accent of the theme. -/
def Shade.color (accent : Color) : Shade → Color
  | .surface3 => Palette.surface3
  | .surface4 => Palette.surface4
  | .divider => Palette.divider
  | .accent => accent
  | .selectionBg => Palette.selectionBg
  | .textPrimary => Palette.textPrimary
  | .textSecondary => Palette.textSecondary
  | .textDisabled => Palette.textDisabled

/-- An operation as a call. All text is in the regular font. -/
def DrawOp.call (accent : Color) : DrawOp → Theme.DrawOp
  | clear c => .clear (c.color accent)
  | fillRect x y w h c =>
    .fillRect (Int32.ofInt x) (Int32.ofInt y) (UInt32.ofNat w) (UInt32.ofNat h) (c.color accent)
  | hline y x0 x1 c => .hline (Int32.ofInt y) (Int32.ofInt x0) (Int32.ofInt x1) (c.color accent)
  | drawText x y text px c =>
    .drawText (Int32.ofInt x) (Int32.ofInt y) text px (c.color accent) .regular

/-- Text is written in 14 or 11 pixels. -/
def DrawOp.Sized : DrawOp → Prop
  | drawText _ _ _ px _ => px = 14 ∨ px = 11
  | _ => True

theorem DrawOp.sized_call (accent : Color) {op : DrawOp} (h : op.Sized) :
    (op.call accent).Sized := by
  cases op with
  | drawText x y text px c =>
    rcases h with rfl | rfl
    · simp [call]
    · simp [call]
  | _ => trivial

theorem sized_paintRow (count selected i : ℕ) : ∀ op ∈ paintRow count selected i, op.Sized := by
  rw [paintRow]
  split_ifs <;> simp [DrawOp.Sized]

theorem sized_paintLabel (selected : ℕ) (app : AppEntry) (i : ℕ) :
    ∀ op ∈ paintLabel selected app i, op.Sized := by
  rw [paintLabel]
  refine List.forall_mem_cons.mpr ⟨.inl rfl, ?_⟩
  split
  · split
    · simp [DrawOp.Sized]
    · simp
  · simp

theorem sized_paint (text : Bool) (query : String) (results : List AppEntry) (selected : ℕ) :
    ∀ op ∈ paint text query results selected, op.Sized := by
  have hrows : ∀ op ∈ (List.range results.length).flatMap (paintRow results.length selected),
      op.Sized := by
    intro op hop
    obtain ⟨i, -, hi⟩ := List.mem_flatMap.mp hop
    exact sized_paintRow _ _ i op hi
  have hlabels : ∀ op ∈ results.zipIdx.flatMap fun row => paintLabel selected row.1 row.2,
      op.Sized := by
    intro op hop
    obtain ⟨row, -, hrow⟩ := List.mem_flatMap.mp hop
    exact sized_paintLabel _ row.1 row.2 op hrow
  simp only [paint, List.forall_mem_append]
  refine ⟨⟨by simp [DrawOp.Sized], hrows⟩, ?_⟩
  split
  · refine List.forall_mem_cons.mpr ⟨?_, hlabels⟩
    split
    · exact .inl rfl
    · exact .inl rfl
  · simp

def framePainter (theme : Nullxes.Theme) : Painter Picture where
  stride := Picture.stride
  width := Picture.width
  height := Picture.height
  calls picture text :=
    (paint text picture.query picture.results picture.selected).map (DrawOp.call theme.accent)
  opens _ _ := ⟨_, _, rfl, trivial⟩
  sized _ _ :=
    List.forall_mem_map.mpr fun op hop => op.sized_call _ (sized_paint _ _ _ _ op hop)

end Launcher

end Nullxes
