import Nullxes.Launcher.Draw
import Nullxes.NxGreet.Render
import Nullxes.NxLock.Render
import Nullxes.NxNotif.Render
import Nullxes.NxSettings.Render
import Nullxes.Slate.Render

/-!
# The screens

The six clients that draw, each with the calls of its own `paint`. They share the pool of
`wlcommon/src/shm.rs` and the text renderer of `theme/src/text.rs`; the lock screen and the
notifications have a pool for each of their surfaces.

## Main results

* `frames_exact` — the bytes of every frame are those of its picture
-/

namespace Nullxes

namespace Theme

open Wlcommon

/-- **The bytes of every frame are those of its picture.** Whatever a client does with its pools,
as long as none is made or resized to rows or buffers of `2^31` bytes or more, no painting panics;
and a frame is what its picture is painted as on a buffer of zeros by a new renderer, whatever
frames the buffer held before and whatever texts the renderer has written. -/
theorem frames_exact :
    NxSettings.framePainter.Exact ∧ NxNotif.framePainter.Exact ∧ NxLock.framePainter.Exact ∧
      (∀ background, (NxGreet.framePainter background).Exact) ∧
      (∀ theme, (Launcher.framePainter theme).Exact) ∧ Slate.framePainter.Exact :=
  ⟨Painter.exact _, Painter.exact _, Painter.exact _, fun _ => Painter.exact _,
    fun _ => Painter.exact _, Painter.exact _⟩

/-- Two toasts in one buffer. -/
def twoToasts : List (ClientEvent NxNotif.Picture) :=
  let notif (urgency : NxNotif.Urgency) : NxNotif.Notif :=
    ⟨1, "", "", "", "", [], urgency, 0, none⟩
  [.create 2 1, .draw 0 fun stride w h => ⟨stride, w, h, notif .critical⟩, .release 0 0,
    .draw 0 fun stride w h => ⟨stride, w, h, notif .low⟩]

theorem frames_exact_twoToasts :
    let s : Client Mapping (Option TextRenderer) := ⟨[], ⟨0, fun _ => none, []⟩, none, [], false⟩
    let P := NxNotif.framePainter
    ((P.client none).run s twoToasts).panicked = false ∧
      ∃ t, P.pictures.Init t ∧ P.pictures.Legal t twoToasts ∧
        P.Drawn none ((P.client none).run s twoToasts) (P.pictures.run t twoToasts) := by
  refine frames_exact.2.1 none _ twoToasts ⟨rfl, rfl, rfl, rfl⟩ ?_
  have haddr : ShmDoubleBuffer.Addressable 2 1 := by decide
  exact ⟨⟨rfl, haddr⟩, ⟨rfl, fun _ _ _ => ⟨rfl, rfl, rfl⟩⟩, ⟨by decide, trivial⟩,
    ⟨by decide, fun _ _ _ => ⟨rfl, rfl, rfl⟩⟩, trivial⟩

example : ((NxNotif.framePainter.pictures.run ⟨[], ⟨0, fun _ => none, []⟩, (), [], false⟩
    twoToasts).frames.map DrawnBuffer.wlBuf) = [0, 0] := by decide

example : ((NxNotif.framePainter.client none).run ⟨[], ⟨0, fun _ => none, []⟩, none, [], false⟩
    twoToasts).frames.map (fun d => (d.pixels.slice 8).toList) =
    [[0x2B, 0x39, 0xC0, 255, 0x16, 0x16, 0x16, 255],
      [0x40, 0x40, 0x40, 255, 0x16, 0x16, 0x16, 255]] := by decide +kernel

end Theme

end Nullxes
