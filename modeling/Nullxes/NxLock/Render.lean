import Nullxes.NxLock.State
import Nullxes.Theme.Frames

/-!
# Painting the lock screen

`nx-lock/src/render.rs`.
-/

namespace Nullxes

namespace NxLock

open Wlcommon (Color)
open Theme (DrawOp)
open Theme.Palette

/-- A disc of the avatar, pixel by pixel. -/
def disc (cx cy : Int32) (r : ℕ) (color : Color) : List DrawOp :=
  let around : List ℤ := (List.range (2 * r + 1)).map fun i => (i : ℤ) - r
  around.flatMap fun (dy : ℤ) => around.flatMap fun (dx : ℤ) =>
    if dx * dx + dy * dy ≤ r * r then
      [.fillRect (cx + Int32.ofInt dx) (cy + Int32.ofInt dy) 1 1 color]
    else []

/-- The bullets of the password field. -/
def mask (passwordLen : ℕ) : String := String.ofList (List.replicate (min passwordLen 32) '•')

/-- What is written of the attempts that failed. -/
def failedLabel (failCount : UInt32) : String :=
  if failCount = 1 then "Incorrect password" else s!"{failCount.toNat} failed attempts"

/-- What `paint` writes when there is a renderer, around the panel at `px` and `py`. -/
def writing (picture : Picture) (px py : Int32) : List DrawOp :=
  let cx := px + 420 / 2
  [.drawCentred cx (py + 110) picture.username 14 textPrimary .medium,
    .drawText (px + 32 + 12) (py + 130 + 36 / 2 + 5) (mask picture.passwordLen) 14
      (if picture.pending then textDisabled else textPrimary) .regular] ++
  if 0 < picture.failCount then
    [.drawCentred cx (py + 240 - 24) (failedLabel picture.failCount) 12 destructive .regular]
  else []

/-- `render::paint`. -/
def render (picture : Picture) (text : Bool) : List DrawOp :=
  let px := (picture.width.toInt32 - 420) / 2
  let py := (picture.height.toInt32 - 240) / 2
  let cx := px + 420 / 2
  let cy := py + 56
  let fieldX := px + 32
  let fieldY := py + 130
  let fieldW : Int32 := 420 - 64
  [.clear bg, .fillRect px py 420 240 surface2, .hline py px (px + 420) divider,
    .hline (py + 240 - 1) px (px + 420) divider] ++
  disc cx cy 28 surface4 ++ disc cx cy 8 accent ++
  [.fillRect fieldX fieldY fieldW.toUInt32 36 surface3,
    .hline (fieldY + 36) fieldX (fieldX + fieldW)
      (if picture.pending then textDisabled else accent)] ++
  if text then writing picture px py else []

theorem sized_disc (cx cy : Int32) (r : ℕ) (color : Color) :
    ∀ op ∈ disc cx cy r color, op.Sized := by
  refine DrawOp.sized_flatMap fun dy _ => DrawOp.sized_flatMap fun dx _ => ?_
  split
  · simp
  · simp

theorem sized_writing (picture : Picture) (px py : Int32) :
    ∀ op ∈ writing picture px py, op.Sized := by
  rw [writing]
  split
  · simp
  · simp

def framePainter : Theme.Painter Picture where
  stride := Picture.stride
  width := Picture.width
  height := Picture.height
  calls := render
  opens _ _ := ⟨_, _, rfl, trivial⟩
  sized picture text := by
    simp only [render, List.forall_mem_append]
    refine ⟨⟨⟨⟨by simp, sized_disc _ _ _ _⟩, sized_disc _ _ _ _⟩, by simp⟩, ?_⟩
    split
    · exact sized_writing picture _ _
    · simp

end NxLock

end Nullxes
