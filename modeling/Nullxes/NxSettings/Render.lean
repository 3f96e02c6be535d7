import Nullxes.NxSettings.State
import Nullxes.Theme.Frames

/-!
# Painting the settings window

`nx-settings/src/render.rs`.
-/

namespace Nullxes

namespace NxSettings

open Theme (DrawOp Painter)
open Theme.Palette

/-- `SIDEBAR_W`. -/
def sidebarW : Int32 := 200

/-- `ROW_H`. -/
def rowH : Int32 := 40

/-- `PAD`. -/
def pad : Int32 := 16

/-- The row of a section in the sidebar. -/
def sidebarRow (current sec : Section) (i : ℕ) : List DrawOp :=
  let y := 60 + Int32.ofNat i * rowH
  let highlighted := current = sec
  (if highlighted then
    [.fillRect 0 y sidebarW.toUInt32 rowH.toUInt32 selectionBg, .vline 0 y (y + rowH) accent]
  else []) ++
  [.drawText pad (y + rowH / 2 + 5) sec.label 13
    (if highlighted then textPrimary else textSecondary) .regular]

/-- What `paint` writes when there is a renderer, and what it paints in between. -/
def writing (picture : Picture) : List DrawOp :=
  let ui := picture.ui
  let bodyX := sidebarW + pad
  [.drawText pad 28 "NULLXES Settings" 14 textPrimary .medium] ++
  [Section.theme, .input, .idle, .about].zipIdx.flatMap
    (fun (sec, i) => sidebarRow ui.sect sec i) ++
  [.drawText bodyX 32 ui.sect.title 18 textPrimary .medium] ++
  picture.lines.zipIdx.map
    (fun (line, i) => .drawText bodyX (64 + Int32.ofNat i * 22) line 13 textSecondary .regular) ++
  match ui.status with
  | some status =>
    [.drawText bodyX (picture.height.toInt32 - 16) status 12 success .regular]
  | none => []

/-- `render::paint`. -/
def render (picture : Picture) (text : Bool) : List DrawOp :=
  [.clear surface2, .fillRect 0 0 sidebarW.toUInt32 picture.height surface3,
    .vline sidebarW 0 picture.height.toInt32 divider] ++
  if text then writing picture else []

theorem sized_sidebarRow (current sec : Section) (i : ℕ) :
    ∀ op ∈ sidebarRow current sec i, op.Sized := by
  rw [sidebarRow]
  split_ifs <;> simp

theorem sized_writing (picture : Picture) : ∀ op ∈ writing picture, op.Sized := by
  have hrows : ∀ op ∈ [Section.theme, .input, .idle, .about].zipIdx.flatMap
      (fun (sec, i) => sidebarRow picture.ui.sect sec i), op.Sized :=
    DrawOp.sized_flatMap fun row _ => sized_sidebarRow _ row.1 row.2
  simp only [writing, List.forall_mem_append]
  refine ⟨⟨⟨⟨by simp, hrows⟩, by simp⟩, List.forall_mem_map.mpr fun _ _ => by simp⟩, ?_⟩
  split
  · simp
  · simp

def framePainter : Painter Picture where
  stride := Picture.stride
  width := Picture.width
  height := Picture.height
  calls := render
  opens _ _ := ⟨_, _, rfl, trivial⟩
  sized picture text := by
    rw [render]
    cases text with
    | false => simp
    | true => simpa using sized_writing picture

end NxSettings

end Nullxes
