import Nullxes.NxNotif.Surface
import Nullxes.Theme.Frames

/-!
# Painting a toast

`nx-notif/src/render.rs`.
-/

namespace Nullxes

namespace NxNotif

open Wlcommon (Color)
open Theme (DrawOp Painter)
open Theme.Palette

/-- `PAD`. -/
def pad : Int32 := 14

/-- `accent_for`. -/
def accentFor (notif : Notif) : Color :=
  match notif.urgency with
  | .low => textDisabled
  | .normal => accent
  | .critical => destructive

/-- `lines().next()`: up to a line feed, without a carriage return in front of it. -/
def firstLine (s : String) : List Char :=
  let line := s.toList.takeWhile (· ≠ '\n')
  if line.length < s.toList.length ∧ line.getLast? = some '\r' then line.dropLast else line

/-- What `paint` writes when there is a renderer. -/
def writing (notif : Notif) : List DrawOp :=
  let bodyFirstLine := String.ofList ((firstLine notif.body).take 70)
  [.drawText (pad + 4) 24 notif.summary 14 textPrimary .medium] ++
  (if !bodyFirstLine.isEmpty then
    [.drawText (pad + 4) 48 bodyFirstLine 12 textSecondary .regular]
  else []) ++
  if !notif.appName.isEmpty then
    [.drawText (pad + 4) 72 notif.appName 11 textDisabled .regular]
  else []

/-- `render::paint`. -/
def render (picture : Picture) (text : Bool) : List DrawOp :=
  [.clear surface3, .vline 0 0 picture.height.toInt32 (accentFor picture.notif)] ++
  if text then writing picture.notif else []

def framePainter : Painter Picture where
  stride := Picture.stride
  width := Picture.width
  height := Picture.height
  calls := render
  opens _ _ := ⟨_, _, rfl, trivial⟩
  sized picture text := by
    simp only [render, writing]
    split_ifs <;> simp

end NxNotif

end Nullxes
