import Nullxes.NxGreet.State
import Nullxes.Theme.Frames

/-!
# Painting the greeter

`nx-greet/src/render.rs`. How much of the background image is shown is computed in `f32` from the
sizes of the image and of the buffer; that is a parameter.
-/

namespace Nullxes

namespace NxGreet

open Wlcommon (Color)
open Theme (DrawOp Painter)
open Theme.Palette

/-! ## The background -/

/-- `BackgroundImage`, in RGBA. -/
structure BackgroundImage where
  width : UInt32
  height : UInt32
  pixels : List UInt8

/-- `u32::saturating_sub`. -/
def saturatingSub (a b : UInt32) : UInt32 := if a ≤ b then 0 else a - b

namespace BackgroundImage

/-- `sample`; the index is computed in `u32`. -/
def sample (me : BackgroundImage) (x y : UInt32) : Color :=
  if me.width = 0 ∨ me.height = 0 then .rgb 0 0 0
  else
    let sx := min x (saturatingSub me.width 1)
    let sy := min y (saturatingSub me.height 1)
    let idx := ((sy * me.width + sx) * 4).toNat
    if me.pixels.length ≤ idx + 3 then .rgb 0 0 0
    else
      ⟨me.pixels.getD idx 0, me.pixels.getD (idx + 1) 0, me.pixels.getD (idx + 2) 0,
        me.pixels.getD (idx + 3) 0⟩

end BackgroundImage

/-- A background image, with the part of it that a buffer of this size shows: `crop_w` and
`crop_h`. -/
structure Background where
  image : BackgroundImage
  crop : UInt32 → UInt32 → UInt32 × UInt32

/-- `paint_scaled_background`. -/
def paintScaledBackground (background : Background) (bufW bufH : UInt32) : DrawOp :=
  let image := background.image
  if bufW = 0 ∨ bufH = 0 ∨ image.width = 0 ∨ image.height = 0 then .clear bg
  else
    let (cropW, cropH) := background.crop bufW bufH
    let xOff := saturatingSub image.width cropW / 2
    let yOff := saturatingSub image.height cropH / 2
    .cover fun x y =>
      image.sample (xOff + UInt32.ofNat (x * cropW.toNat / bufW.toNat))
        (yOff + UInt32.ofNat (y * cropH.toNat / bufH.toNat))

theorem opens_paintScaledBackground (background : Background) (bufW bufH : UInt32) :
    (paintScaledBackground background bufW bufH).Opens := by
  rw [paintScaledBackground]
  split
  · trivial
  · trivial

theorem sized_paintScaledBackground (background : Background) (bufW bufH : UInt32) :
    (paintScaledBackground background bufW bufH).Sized := by
  rw [paintScaledBackground]
  split
  · trivial
  · trivial

/-! ## The panel -/

/-- `draw_field`. -/
def drawField (x y w : Int32) (label value : String) (focused pending : Bool) : List DrawOp :=
  let h : Int32 := 36
  let bar := if focused then (if pending then textDisabled else accent) else divider
  [.drawText x (y - 6) label 11 textDisabled .regular,
    .fillRect x y w.toUInt32 h.toUInt32 surface3,
    .hline (y + h) x (x + w) bar,
    .drawText (x + 12) (y + h / 2 + 5) value 14 (if pending then textDisabled else textPrimary)
      .regular]

/-- The bullets of the password field. -/
def mask (passwordLen : ℕ) : String := String.ofList (List.replicate (min passwordLen 64) '•')

/-- What `paint` paints when there is a renderer, on the panel at `px` and `py`. -/
def writing (picture : Picture) (px py : Int32) : List DrawOp :=
  [.drawText (px + 24) (py + 36) "NULLXES OS" 18 textPrimary .medium,
    .drawText (px + 24) (py + 80) "Sign in" 14 textSecondary .regular] ++
  drawField (px + 24) (py + 100) (480 - 48) "Username" picture.username
    (picture.focus = .username) picture.pending ++
  drawField (px + 24) (py + 170) (480 - 48) (picture.prompt.getD "Password")
    (mask picture.passwordLen) (picture.focus = .password) picture.pending ++
  match picture.error with
  | some e => [.drawText (px + 24) (py + 320 - 24) e 12 destructive .regular]
  | none => []

/-- `render::paint`, with the background that was loaded. -/
def render (background : Option Background) (picture : Picture) (text : Bool) : List DrawOp :=
  let px := (picture.width.toInt32 - 480) / 2
  let py := (picture.height.toInt32 - 320) / 2
  (match background with
    | some background => paintScaledBackground background picture.width picture.height
    | none => .clear bg) ::
  .fillRect px py 480 320 surface2 ::
  if text then writing picture px py else []

theorem sized_writing (picture : Picture) (px py : Int32) :
    ∀ op ∈ writing picture px py, op.Sized := by
  simp only [writing, drawField, List.forall_mem_append]
  refine ⟨⟨⟨by simp, by simp⟩, by simp⟩, ?_⟩
  split
  · simp
  · simp

def framePainter (background : Option Background) : Painter Picture where
  stride := Picture.stride
  width := Picture.width
  height := Picture.height
  calls := render background
  opens picture text := by
    refine ⟨_, _, rfl, ?_⟩
    cases background with
    | none => trivial
    | some background => exact opens_paintScaledBackground background _ _
  sized picture text := by
    have hfirst : (match background with
        | some background => paintScaledBackground background picture.width picture.height
        | none => .clear bg).Sized := by
      cases background with
      | none => trivial
      | some background => exact sized_paintScaledBackground background _ _
    have hrest : ∀ op ∈ (if text then writing picture ((picture.width.toInt32 - 480) / 2)
        ((picture.height.toInt32 - 320) / 2) else []), op.Sized := by
      cases text with
      | false => simp
      | true => exact sized_writing picture _ _
    exact List.forall_mem_cons.mpr ⟨hfirst, List.forall_mem_cons.mpr ⟨trivial, hrest⟩⟩

end NxGreet

end Nullxes
