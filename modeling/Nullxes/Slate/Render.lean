import Nullxes.Slate.State
import Nullxes.Theme.Frames

/-!
# Painting the terminal

`slate/src/render.rs`. The cells of the grid are what the terminal emulator, a library, made of the
output of the shell; they are given.
-/

namespace Nullxes

namespace Slate

open Wlcommon (Color)
open Theme (DrawOp Painter)
open Theme.Palette

/-- `NamedColor`, as far as it is looked at. -/
inductive NamedColor
  | black
  | red
  | green
  | yellow
  | blue
  | magenta
  | cyan
  | white
  | foreground
  | background
  | other
  deriving DecidableEq, Repr

/-- `ansi::Color`. -/
inductive AnsiColor
  | named (color : NamedColor)
  | spec (r g b : UInt8)
  | indexed (i : UInt8)
  deriving DecidableEq, Repr

/-- `Cell`. -/
structure Cell where
  c : Char
  fg : AnsiColor
  bg : AnsiColor
  /-- `flags.contains(Flags::UNDERLINE)`. -/
  underline : Bool
  deriving DecidableEq, Repr

def ansiFg (cell : Cell) : Color :=
  match cell.fg with
  | .named .background => surface2
  | .named .black => surface1
  | .named .red => destructive
  | .named .green => success
  | .named .yellow => warning
  | .named .blue => .rgb 0x4B 0x7B 0xC9
  | .named .magenta => .rgb 0xA5 0x57 0xC9
  | .named .cyan => .rgb 0x4C 0xC0 0xC9
  | .named .foreground | .named .white | .named .other => textPrimary
  | .spec r g b => .rgb r g b
  | .indexed _ => textPrimary

def ansiBg (cell : Cell) : Color :=
  match cell.bg with
  | .named .background => surface2
  | .named .black => surface1
  | .spec r g b => .rgb r g b
  | _ => surface2

/-- `char::is_control`. -/
def isControl (ch : Char) : Bool :=
  ch.toNat < 0x20 || (0x7F ≤ ch.toNat && ch.toNat < 0xA0)

/-- What `render::paint` was last given for a buffer, the cells included: those of a grid of this
size, the column and the row of the cursor, and the milliseconds since the blinking started. -/
structure Screen where
  picture : Picture
  cells : ℕ → ℕ → Cell
  cursor : ℕ × ℕ
  blinkStart : ℕ

/-- `snapshot_grid`; without a session there are no rows. -/
def Screen.grid (screen : Screen) : List (List Cell) :=
  match screen.picture.grid with
  | some dims =>
    (List.range dims.rows).map fun line => (List.range dims.cols).map fun col =>
      screen.cells line col
  | none => []

/-- Where a row or a column of cells starts. -/
def cellStart (size : UInt32) (i : ℕ) : Int32 := padding.toInt32 + Int32.ofNat i * size.toInt32

/-- A cell: its background, its glyph and its underline. -/
def paintCell (row col : ℕ) (cell : Cell) : List DrawOp :=
  let baselineOffset := cellH.toInt32 * 3 / 4
  let x := cellStart cellW col
  let y := cellStart cellH row
  [.fillRect x y cellW cellH (ansiBg cell)] ++
  (if !isControl cell.c && cell.c ≠ ' ' then
    [.drawText x (y + baselineOffset) (String.ofList [cell.c]) 13 (ansiFg cell) .mono]
  else []) ++
  if cell.underline then
    [.hline (y + baselineOffset + 2) x (x + cellW.toInt32) (ansiFg cell)]
  else []

/-- `render::paint`; the cursor is shown in the second half of each second. -/
def render (screen : Screen) (text : Bool) : List DrawOp :=
  .clear surface2 ::
  if text then
    (screen.grid.zipIdx.flatMap fun (row, i) => row.zipIdx.flatMap fun (cell, j) =>
      paintCell i j cell) ++
    if 500 < screen.blinkStart % 1000 then
      [.fillRect (cellStart cellW screen.cursor.1) (cellStart cellH screen.cursor.2) cellW cellH
        { accent with a := 127 }]
    else []
  else []

theorem sized_paintCell (row col : ℕ) (cell : Cell) :
    ∀ op ∈ paintCell row col cell, op.Sized := by
  rw [paintCell]
  split_ifs <;> simp

def framePainter : Painter Screen where
  stride screen := screen.picture.stride
  width screen := screen.picture.width
  height screen := screen.picture.height
  calls := render
  opens _ _ := ⟨_, _, rfl, trivial⟩
  sized screen text := by
    have hcells : ∀ op ∈ screen.grid.zipIdx.flatMap fun (row, i) =>
        row.zipIdx.flatMap fun (cell, j) => paintCell i j cell, op.Sized :=
      DrawOp.sized_flatMap fun row _ => DrawOp.sized_flatMap fun cell _ =>
        sized_paintCell row.2 cell.2 cell.1
    refine List.forall_mem_cons.mpr ⟨trivial, ?_⟩
    split
    · refine List.forall_mem_append.mpr ⟨hcells, ?_⟩
      split
      · simp
      · simp
    · simp

end Slate

end Nullxes
