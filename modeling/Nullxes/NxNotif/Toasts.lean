import Mathlib.Data.List.Perm.Basic
import Mathlib.Tactic.Set
import Nullxes.NxNotif.Surface

/-!
# What the Wayland thread keeps

The notifications that are visible and those that wait, and what each thing that happens does to
them: a message adds a notification at the end, or puts it in the place of a visible one, or closes
a visible one; dispatching and ticking close visible ones or none. Everything about the thread is
proved from these.

## Main definitions

* `WaylandThreadState.notifs`, `WaylandThreadState.live` — the visible notifications, and all
* `WaylandThreadState.Closes` — visible notifications are closed, and that is all
-/

namespace Nullxes

namespace NxNotif

open Wlcommon

namespace WaylandThreadState

variable {s t : WaylandThreadState}

/-- The visible notifications. -/
def notifs (s : WaylandThreadState) : List Notif := s.visible.map VisibleToast.notif

/-- The visible notifications and those that wait. -/
def live (s : WaylandThreadState) : List Notif := s.notifs ++ s.queue

theorem length_notifs (s : WaylandThreadState) : s.notifs.length = s.visible.length :=
  List.length_map _

/-- Some visible notifications are closed, in this order, and their ids sent; the others stay. -/
structure Closes (s t : WaylandThreadState) (cs : List Closing) : Prop where
  sublist : t.notifs.Sublist s.notifs
  perm : (t.notifs ++ cs.map Closing.notif).Perm s.notifs
  queue : t.queue = s.queue
  txClosed : t.txClosed = s.txClosed ++ cs

variable {cs : List Closing}

theorem Closes.length (h : s.Closes t cs) : t.visible.length + cs.length = s.visible.length := by
  have hlen := h.perm.length_eq
  simpa [notifs] using hlen

/-- What is closed is in one place before and after. -/
theorem Closes.perm_closed (h : s.Closes t cs) :
    (t.live ++ t.txClosed.map Closing.notif).Perm (s.live ++ s.txClosed.map Closing.notif) := by
  rw [List.perm_iff_count]
  intro n
  have hcount := h.perm.count_eq n
  rw [live, live, h.queue, h.txClosed, List.map_append]
  simp only [List.count_append] at hcount ⊢
  omega

theorem Closes.live_sublist (h : s.Closes t cs) : t.live.Sublist s.live := by
  rw [live, live, h.queue]
  exact h.sublist.append_right _

/-- The notifications are as they were. -/
theorem Closes.of_eq (hv : t.notifs = s.notifs) (hq : t.queue = s.queue)
    (hc : t.txClosed = s.txClosed) : s.Closes t [] where
  sublist := by rw [hv]
  perm := by simp [hv]
  queue := hq
  txClosed := by rw [hc, List.append_nil]

/-! ## Pumping -/

/-- **What `pump_visible` does**: the first that wait become visible, as long as there is room. -/
theorem pumpFrom_eq (s : WaylandThreadState) (q : List Notif) :
    (s.pumpFrom q).notifs = s.notifs ++ q.take (maxVisible - s.visible.length) ∧
      (s.pumpFrom q).queue = q.drop (maxVisible - s.visible.length) ∧
      (s.pumpFrom q).txClosed = s.txClosed := by
  induction q generalizing s with
  | nil => exact ⟨by simp [pumpFrom, notifs], by simp [pumpFrom], rfl⟩
  | cons n rest ih =>
    rw [pumpFrom]
    split
    next hlt =>
      obtain ⟨hv, hq, hc⟩ := ih (s.pumpOne n)
      have hone : (s.pumpOne n).notifs = s.notifs ++ [n] := by simp [pumpOne, now, notifs]
      have hroom : maxVisible - s.visible.length =
          maxVisible - (s.pumpOne n).visible.length + 1 := by
        have hlen : (s.pumpOne n).visible.length = s.visible.length + 1 := by
          simp [pumpOne, now]
        omega
      rw [hroom, List.take_succ_cons, List.drop_succ_cons, hv, hq, hc, hone, List.append_assoc]
      exact ⟨rfl, rfl, rfl⟩
    next hge =>
      have hroom : maxVisible - s.visible.length = 0 := by omega
      rw [hroom, List.take_zero, List.drop_zero, List.append_nil]
      exact ⟨rfl, rfl, rfl⟩

/-! ## Toasts that change -/

/-- Whatever is the same of two toasts stays when one takes the other's place. -/
theorem map_set_same {α β : Type} (g : α → β) {l : List α} {i : ℕ} {v v' : α}
    (h : l[i]? = some v) (hg : g v' = g v) : (l.set i v').map g = l.map g := by
  obtain ⟨hi, rfl⟩ := List.getElem?_eq_some_iff.mp h
  rw [List.map_set, hg, ← List.getElem_map g, List.set_getElem_self]
  simpa using hi

/-- What stays of a toast. -/
theorem map_modify {β : Type} {f : VisibleToast → VisibleToast} (g : VisibleToast → β)
    (hf : ∀ v, g (f v) = g v) (l : List VisibleToast) (i : ℕ) : (l.modify i f).map g = l.map g := by
  induction l generalizing i with
  | nil => simp
  | cons v l ih =>
    cases i with
    | zero => simp [hf]
    | succ i => simp [ih]

/-- A toast that gets another notification. -/
theorem map_notif_modify_const {f : VisibleToast → VisibleToast} {n : Notif}
    (hf : ∀ v, (f v).notif = n) (l : List VisibleToast) (i : ℕ) :
    (l.modify i f).map VisibleToast.notif = (l.map VisibleToast.notif).set i n := by
  induction l generalizing i with
  | nil => simp
  | cons v l ih =>
    cases i with
    | zero => simp [hf]
    | succ i => simp [ih]

/-! ## Messages -/

theorem findIdx?_notifs (s : WaylandThreadState) (id : UInt32) :
    (s.visible.findIdx? fun v => v.notif.id = id) = s.notifs.findIdx? fun n => n.id = id := by
  rw [notifs, List.findIdx?_map]
  rfl

/-- The id is on screen. -/
def isVisible (s : WaylandThreadState) (id : UInt32) : Bool := s.notifs.any fun n => n.id = id

theorem isVisible_iff {id : UInt32} : s.isVisible id = true ↔ ∃ n ∈ s.notifs, n.id = id := by
  simp [isVisible]

theorem findIdx?_eq_none_iff {id : UInt32} :
    (s.visible.findIdx? fun v => v.notif.id = id) = none ↔ s.isVisible id = false := by
  rw [findIdx?_notifs, List.findIdx?_eq_none_iff, isVisible, List.any_eq_false]
  simp

theorem receive_eq_enqueue {n : Notif} (h : n.isClose = false) : s.receive n = s.enqueue n := by
  rw [receive, h]
  rfl

/-- A visible notification is replaced where it is. -/
theorem enqueue_visible {n : Notif} (h : s.isVisible n.id = true) :
    ∃ i, ∃ hi : i < s.notifs.length, (s.notifs.get ⟨i, hi⟩).id = n.id ∧
      (s.enqueue n).notifs = s.notifs.set i n ∧ (s.enqueue n).queue = s.queue ∧
      (s.enqueue n).txClosed = s.txClosed := by
  cases hidx : s.visible.findIdx? fun v => v.notif.id = n.id with
  | none =>
    rw [findIdx?_eq_none_iff, h] at hidx
    cases hidx
  | some i =>
    have hnotifs := hidx
    rw [findIdx?_notifs, List.findIdx?_eq_some_iff_getElem] at hnotifs
    obtain ⟨hi, hid, -⟩ := hnotifs
    refine ⟨i, hi, by simpa using hid, ?_, ?_, ?_⟩ <;> rw [enqueue, hidx]
    · have hset := map_notif_modify_const
        (f := fun v => { v with notif := n, expiresAt := s.now.1 + lifetime n, buffer := none })
        (n := n) (fun _ => rfl) s.visible i
      exact hset
    · rfl
    · rfl

/-- A notification that is not visible goes behind those that wait. -/
theorem enqueue_new {n : Notif} (h : s.isVisible n.id = false) :
    (s.enqueue n).notifs = s.notifs ++ (s.queue ++ [n]).take (maxVisible - s.visible.length) ∧
      (s.enqueue n).queue = (s.queue ++ [n]).drop (maxVisible - s.visible.length) ∧
      (s.enqueue n).txClosed = s.txClosed := by
  rw [enqueue, findIdx?_eq_none_iff.mpr h]
  exact pumpFrom_eq _ _

theorem live_enqueue_new {n : Notif} (h : s.isVisible n.id = false) :
    (s.enqueue n).live = s.live ++ [n] := by
  obtain ⟨hv, hq, -⟩ := enqueue_new h
  rw [live, hv, hq, List.append_assoc, List.take_append_drop, live, List.append_assoc]

/-! ## Closing -/

theorem close_closes {i : ℕ} {v : VisibleToast} (h : s.visible[i]? = some v) (cause : Cause) :
    s.Closes (s.close i cause) [⟨v.notif, cause⟩] := by
  rw [close, h]
  have hi : i < s.visible.length := (List.getElem?_eq_some_iff.mp h).1
  have hnotifs : (s.visible.eraseIdx i).map VisibleToast.notif = s.notifs.eraseIdx i := by
    rw [notifs, List.eraseIdx_map]
  have hv : s.notifs[i]? = some v.notif := by
    rw [notifs, List.getElem?_map, h]
    rfl
  constructor
  · show ((s.visible.eraseIdx i).map VisibleToast.notif).Sublist s.notifs
    rw [hnotifs]
    exact List.eraseIdx_sublist _ _
  · show ((s.visible.eraseIdx i).map VisibleToast.notif ++ [v.notif]).Perm s.notifs
    obtain ⟨hi', hget⟩ := List.getElem?_eq_some_iff.mp hv
    rw [hnotifs, ← hget]
    exact List.perm_append_singleton _ _ |>.trans (List.getElem_cons_eraseIdx_perm hi')
  · rfl
  · rfl

/-- What `close_for` makes closes the visible notification with this id. -/
theorem receive_close {n : Notif} (h : n.isClose = true) :
    ∃ cs, s.Closes (s.receive n) cs ∧ (cs = [] ↔ s.isVisible n.id = false) := by
  rw [receive, if_pos h]
  cases hidx : s.visible.findIdx? fun v => v.notif.id = n.id with
  | none =>
    exact ⟨[], .of_eq rfl rfl rfl, by simpa using findIdx?_eq_none_iff.mp hidx⟩
  | some i =>
    obtain ⟨hi, -⟩ := List.findIdx?_eq_some_iff_getElem.mp hidx
    refine ⟨_, close_closes (List.getElem?_eq_getElem hi) _, ?_⟩
    have hvis : s.isVisible n.id ≠ false := fun hno => by
      rw [← findIdx?_eq_none_iff, hidx] at hno
      cases hno
    simp [hvis]

/-! ## Painting -/

theorem drawn_of_draw {pool pool' : ShmDoubleBuffer (Option Picture)} {shm shm' : Shm} {n : Notif}
    {drawn : DrawnBuffer (Option Picture)}
    (h : pool.draw shm (paint n) = (.ok (pool', drawn), shm')) :
    ∃ pic ∈ drawn.pixels, pic.notif = n := by
  rw [ShmDoubleBuffer.draw] at h
  split at h
  · cases h
  · cases h
    exact ⟨_, rfl, rfl⟩

/-- **What `redraw` does**: nothing, or it sees to the pool of a configured toast, and perhaps
commits a frame that shows the notification of the toast. -/
theorem redraw_cases (s : WaylandThreadState) (i : ℕ) :
    s.redraw i = s ∨
      ∃ (v : VisibleToast) (b : Option (ShmDoubleBuffer (Option Picture))) (shm : Shm)
        (shms : List ShmRequest), ∃ frame : Option (DrawnBuffer (Option Picture)),
        s.visible[i]? = some v ∧ v.configured = true ∧
        (∀ drawn ∈ frame, ∃ pic ∈ drawn.pixels, pic.notif = v.notif) ∧
        s.redraw i = { s with
          shm := shm
          visible := s.visible.set i { v with buffer := b }
          sent := s.sent ++ shms.map .shm ++ frame.toList.map (.attachAndCommit v.surface) } := by
  rw [redraw]
  split
  · exact .inl rfl
  next v hv =>
    cases hconf : v.configured with
    | false => exact .inl rfl
    | true =>
      right
      rw [if_neg (by simp)]
      obtain ⟨b, shm⟩ := s.pool v
      cases b with
      | none =>
        exact ⟨v, none, { shm with sent := [] }, shm.sent, none, hv, hconf, nofun,
          by simp [setShm, hconf]⟩
      | some pool =>
        rcases hdraw : pool.draw { shm with sent := [] } (paint v.notif) with ⟨drawn, shm'⟩
        cases drawn with
        | error e =>
          refine ⟨v, some pool, { shm' with sent := [] }, shm.sent ++ shm'.sent, none, hv, hconf,
            nofun, ?_⟩
          simp [setShm, hdraw, hconf]
        | ok res =>
          obtain ⟨pool', drawn⟩ := res
          refine ⟨v, some pool', { shm' with sent := [] }, shm.sent ++ shm'.sent, some drawn, hv,
            hconf, ?_, ?_⟩
          · rintro _ ⟨⟩
            exact drawn_of_draw hdraw
          · simp [setShm, request, hdraw, hconf]

/-- Nothing is closed by painting. -/
theorem redraw_closes (s : WaylandThreadState) (i : ℕ) : s.Closes (s.redraw i) [] := by
  rcases s.redraw_cases i with heq | ⟨v, b, shm, shms, frame, hv, -, -, heq⟩
  · rw [heq]
    exact .of_eq rfl rfl rfl
  · rw [heq]
    have hnotifs : (s.visible.set i { v with buffer := b }).map VisibleToast.notif = s.notifs :=
      map_set_same VisibleToast.notif hv rfl
    exact .of_eq hnotifs rfl rfl

/-! ## What the compositor says, and the clock -/

/-- The event closes a toast. -/
def dismisses (s : WaylandThreadState) : ServerEvent → Bool
  | .closed layer => s.visible.any fun t => t.layer = layer
  | _ => false

/-- A toast has had its time. -/
def expires (s : WaylandThreadState) : Bool := s.visible.any fun t => t.expiresAt ≤ s.clock s.reads

/-- What the compositor says closes one toast or none. -/
theorem dispatch_closes (s : WaylandThreadState) (e : ServerEvent) :
    ∃ cs, s.Closes (s.dispatch e) cs ∧ (cs = [] ↔ s.dismisses e = false) := by
  cases e with
  | configure layer serial =>
    refine ⟨[], ?_, by simp [dismisses]⟩
    rw [dispatch, dispatchConfigure]
    split
    · exact .of_eq rfl rfl rfl
    next idx _ =>
      set t : WaylandThreadState := { s.request (.ackConfigure layer serial) with
        visible := s.visible.modify idx fun t => { t with configured := true } }
      have hnotifs : t.notifs = s.notifs :=
        map_modify (f := fun t => { t with configured := true }) _ (fun _ => rfl) s.visible idx
      have hredraw := t.redraw_closes idx
      exact ⟨hnotifs ▸ hredraw.sublist, hnotifs ▸ hredraw.perm, hredraw.queue, hredraw.txClosed⟩
  | closed layer =>
    rw [dispatch, dispatchClosed]
    cases hidx : s.visible.findIdx? fun t => t.layer = layer with
    | none =>
      rw [List.findIdx?_eq_none_iff] at hidx
      refine ⟨[], .of_eq rfl rfl rfl, ?_⟩
      simpa [dismisses] using hidx
    | some i =>
      obtain ⟨hi, hlayer, -⟩ := List.findIdx?_eq_some_iff_getElem.mp hidx
      refine ⟨_, close_closes (List.getElem?_eq_getElem hi) .compositor, ?_⟩
      have hany : s.dismisses (.closed layer) = true :=
        List.any_eq_true.mpr ⟨_, List.getElem_mem hi, hlayer⟩
      simp [hany]
  | release wlBuf =>
    refine ⟨[], .of_eq ?_ rfl rfl, by simp [dismisses]⟩
    simp [dispatch, dispatchRelease, notifs]
  | other => exact ⟨[], .of_eq rfl rfl rfl, by simp [dismisses]⟩

theorem sendClosed_foldl (s : WaylandThreadState) (ts : List VisibleToast) (cause : Cause) :
    ts.foldl (fun s t => s.sendClosed t.notif cause) s =
      { s with txClosed := s.txClosed ++ ts.map fun t => ⟨t.notif, cause⟩ } := by
  induction ts generalizing s with
  | nil => simp
  | cons t ts ih =>
    rw [List.foldl_cons, ih, sendClosed]
    simp

/-- A toast has its time until a tick finds that it is over. -/
theorem tickTimeouts_eq (s : WaylandThreadState) :
    s.tickTimeouts = { s with
      reads := s.reads + 1
      visible := s.visible.filter fun t => !(t.expiresAt ≤ s.clock s.reads)
      txClosed := s.txClosed ++
        (s.visible.filter fun t => t.expiresAt ≤ s.clock s.reads).map fun t =>
          ⟨t.notif, .timeout⟩ } :=
  sendClosed_foldl _ _ _

/-- A tick closes the toasts that have had their time. -/
theorem tick_closes (s : WaylandThreadState) :
    ∃ cs, s.Closes s.tickTimeouts cs ∧ (cs = [] ↔ s.expires = false) := by
  set p : VisibleToast → Bool := fun t => t.expiresAt ≤ s.clock s.reads with hp
  refine ⟨(s.visible.filter p).map fun t => ⟨t.notif, .timeout⟩, ?_, ?_⟩
  · rw [tickTimeouts_eq]
    constructor
    · exact List.filter_sublist.map _
    · show ((s.visible.filter _).map VisibleToast.notif ++
        ((s.visible.filter p).map _).map _).Perm _
      rw [List.map_map]
      have hperm := (List.filter_append_perm p s.visible).map VisibleToast.notif
      rw [List.map_append] at hperm
      exact List.perm_append_comm.trans hperm
    · rfl
    · rfl
  · simp [expires, hp]

end WaylandThreadState

end NxNotif

end Nullxes
