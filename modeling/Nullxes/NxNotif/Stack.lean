import Mathlib.Data.List.Nodup
import Nullxes.NxNotif.Slots

/-!
# What a part of a round does to the toasts

A message that adds a notification makes toasts at the end of the stack, each with two proxies and
a reading of the clock of its own. One that replaces a visible notification changes one toast.
Everything else takes toasts away or paints them, and leaves what identifies the others.

## Main definitions

* `VisibleToast.mark`, `WaylandThreadState.marks` — what painting does not change of a toast
* `WaylandThreadState.made` — the toasts that are made of notifications that get a place
* `WaylandThreadState.Keeps` — toasts are taken away, or painted, and that is all
* `waylandParts` — the thread, part by part of its rounds

## Main results

* `WaylandThreadState.act_cases` — the three things that a part of a round does
-/

namespace Nullxes

namespace NxNotif

open Wlcommon

/-- What painting does not change of a toast. -/
structure Mark where
  notif : Notif
  surface : Proxy
  layer : Proxy
  expiresAt : ℕ
  deriving DecidableEq, Repr

def VisibleToast.mark (v : VisibleToast) : Mark := ⟨v.notif, v.surface, v.layer, v.expiresAt⟩

/-- The top margin of the toast at this place of the stack. -/
def topOf (place : ℕ) : Int32 := 16 + Int32.ofNat place * (toastH.toInt32 + 12)

/-- The requests for a toast with these proxies, at this place. -/
def setup (surface : Proxy) (place : ℕ) : List Request :=
  [.createSurface surface, .getLayerSurface (surface + 1) surface,
    .setSize (surface + 1) toastW toastH, .setAnchor (surface + 1),
    .setMargin (surface + 1) (topOf place) 16 0 0, .setKeyboardInteractivity (surface + 1),
    .commit surface]

/-- The request neither makes a layer surface nor places or destroys one. -/
def Request.isPlain : Request → Bool
  | .ackConfigure _ _ | .attachAndCommit _ _ | .shm _ => true
  | _ => false

namespace WaylandThreadState

variable {s t u : WaylandThreadState}

def marks (s : WaylandThreadState) : List Mark := s.visible.map VisibleToast.mark

/-! ## Pumping -/

/-- The toasts that are made of these notifications. -/
def made (s : WaylandThreadState) (ns : List Notif) : List VisibleToast :=
  ns.mapIdx fun j n =>
    ⟨n, s.nextProxy + 2 * j, s.nextProxy + 2 * j + 1, none, false, toastW, toastH,
      s.clock (s.reads + j) + lifetime n⟩

/-- The requests for this many of them. -/
def setups (s : WaylandThreadState) (k : ℕ) : List Request :=
  (List.range k).flatMap fun j => setup (s.nextProxy + 2 * j) (s.visible.length + j)

/-- What there is of one kind among them. -/
theorem filterMap_setups {β : Type} (f : Request → Option β) (s : WaylandThreadState) (k : ℕ) :
    (s.setups k).filterMap f = (List.range k).flatMap fun j =>
      (setup (s.nextProxy + 2 * j) (s.visible.length + j)).filterMap f :=
  List.filterMap_flatMap

theorem next_surface (p j : ℕ) : p + 2 * (j + 1) = p + 2 + 2 * j := by omega

theorem made_cons (s : WaylandThreadState) (n : Notif) (ns : List Notif) :
    s.made (n :: ns) = s.made [n] ++ (s.pumpOne n).made ns := by
  simp only [made, List.mapIdx_cons, List.mapIdx_nil, List.singleton_append, pumpOne, now]
  congr 2
  funext j m
  congr 1
  · exact next_surface _ _
  · exact congrArg (· + 1) (next_surface _ _)
  · rw [Nat.add_right_comm, Nat.add_assoc s.reads]

theorem setups_succ (s : WaylandThreadState) (n : Notif) (k : ℕ) :
    s.setups (k + 1) = s.setups 1 ++ (s.pumpOne n).setups k := by
  have hone : s.setups 1 = setup s.nextProxy s.visible.length := List.append_nil _
  rw [hone, setups, List.range_succ_eq_map, List.flatMap_cons, List.flatMap_map, setups]
  congr 2
  funext j
  congr 1
  · exact next_surface _ _
  · have hlen : (s.pumpOne n).visible.length = s.visible.length + 1 := by simp [pumpOne, now]
    rw [hlen, Nat.succ_eq_add_one, Nat.add_right_comm, Nat.add_assoc]

/-- **What `pump_visible` leaves**, toast by toast. -/
theorem pumpFrom_toasts (s : WaylandThreadState) (q : List Notif) {k : ℕ}
    (hk : k = maxVisible - s.visible.length) :
    s.pumpFrom q = { s with
      visible := s.visible ++ s.made (q.take k)
      queue := q.drop k
      reads := s.reads + (q.take k).length
      nextProxy := s.nextProxy + 2 * (q.take k).length
      sent := s.sent ++ s.setups (q.take k).length } := by
  induction q generalizing s k with
  | nil => simp [pumpFrom, made, setups]
  | cons n rest ih =>
    rw [pumpFrom]
    split
    next hlt =>
      have hlen : (s.pumpOne n).visible.length = s.visible.length + 1 := by simp [pumpOne, now]
      obtain ⟨m, rfl⟩ : ∃ m, k = m + 1 := ⟨k - 1, by omega⟩
      rw [ih (s.pumpOne n) (k := m) (by omega), List.take_succ_cons, List.drop_succ_cons,
        made_cons, List.length_cons, setups_succ s n, ← List.append_assoc, ← List.append_assoc]
      have hreads : (s.pumpOne n).reads = s.reads + 1 := rfl
      have hproxy : (s.pumpOne n).nextProxy = s.nextProxy + 2 := rfl
      rw [hreads, hproxy, Nat.mul_add, Nat.add_assoc, Nat.add_assoc, Nat.add_comm 1,
        Nat.add_comm 2]
      rfl
    next hge =>
      have hroom : k = 0 := by omega
      subst hroom
      simp [made, setups]

/-! ## Toasts that are taken away, or painted -/

/-- Toasts are taken away, or painted, and that is all. -/
structure Keeps (s t : WaylandThreadState) : Prop where
  marks : t.marks.Sublist s.marks
  queue : t.queue = s.queue
  clock : t.clock = s.clock
  nextProxy : t.nextProxy = s.nextProxy
  sent : ∃ rs, t.sent = s.sent ++ rs ∧ ∀ r ∈ rs, r.isPlain = true

theorem Keeps.refl (s : WaylandThreadState) : s.Keeps s :=
  ⟨.refl _, rfl, rfl, rfl, [], (List.append_nil _).symm, nofun⟩

theorem Keeps.trans (h : s.Keeps t) (h' : t.Keeps u) : s.Keeps u := by
  obtain ⟨rs, hrs, hplain⟩ := h.sent
  obtain ⟨rs', hrs', hplain'⟩ := h'.sent
  refine ⟨h'.marks.trans h.marks, h'.queue.trans h.queue, h'.clock.trans h.clock,
    h'.nextProxy.trans h.nextProxy, rs ++ rs', by rw [hrs', hrs, List.append_assoc], ?_⟩
  exact fun r hr => (List.mem_append.mp hr).elim (hplain r) (hplain' r)

/-- Nothing is requested. -/
theorem Keeps.of_sent (hm : t.marks.Sublist s.marks) (hq : t.queue = s.queue)
    (hc : t.clock = s.clock) (hp : t.nextProxy = s.nextProxy) (hs : t.sent = s.sent) :
    s.Keeps t :=
  ⟨hm, hq, hc, hp, [], by rw [hs, List.append_nil], nofun⟩

theorem redraw_keeps (s : WaylandThreadState) (i : ℕ) :
    s.Keeps (s.redraw i) ∧ (s.redraw i).marks = s.marks := by
  rcases s.redraw_cases i with heq | ⟨v, b, shm, shms, frame, hv, -, -, heq⟩
  · rw [heq]
    exact ⟨.refl s, rfl⟩
  · have hmarks : (s.redraw i).marks = s.marks := by
      rw [heq]
      exact map_set_same VisibleToast.mark hv rfl
    refine ⟨⟨hmarks ▸ .refl _, ?_, ?_, ?_, ?_⟩, hmarks⟩ <;> rw [heq]
    refine ⟨shms.map .shm ++ frame.toList.map (.attachAndCommit v.surface),
      List.append_assoc _ _ _, fun r hr => ?_⟩
    rcases List.mem_append.mp hr with hr | hr <;> obtain ⟨_, _, rfl⟩ := List.mem_map.mp hr <;> rfl

theorem close_keeps (s : WaylandThreadState) (i : ℕ) (cause : Cause) :
    s.Keeps (s.close i cause) := by
  rw [close]
  split
  · exact .refl s
  · exact .of_sent ((List.eraseIdx_sublist _ _).map _) rfl rfl rfl rfl

theorem dispatch_keeps (s : WaylandThreadState) (e : ServerEvent) : s.Keeps (s.dispatch e) := by
  cases e with
  | configure layer serial =>
    have hack : s.Keeps (s.request (.ackConfigure layer serial)) :=
      ⟨.refl _, rfl, rfl, rfl, [.ackConfigure layer serial], rfl, by simp [Request.isPlain]⟩
    rw [dispatch, dispatchConfigure]
    split
    · exact hack
    next idx _ =>
      set t : WaylandThreadState := { s.request (.ackConfigure layer serial) with
        visible := s.visible.modify idx fun t => { t with configured := true } }
      have hmarks : t.marks = s.marks :=
        map_modify (f := fun t => { t with configured := true }) _ (fun _ => rfl) s.visible idx
      have ht : s.Keeps t := ⟨hmarks ▸ .refl _, rfl, rfl, rfl, hack.sent⟩
      exact ht.trans (t.redraw_keeps idx).1
  | closed layer =>
    rw [dispatch, dispatchClosed]
    split
    · exact .refl s
    · exact s.close_keeps _ _
  | release wlBuf =>
    refine .of_sent ?_ rfl rfl rfl rfl
    have hmarks : (s.dispatchRelease wlBuf).marks = s.marks := by
      simp [dispatchRelease, marks, VisibleToast.mark]
    exact hmarks ▸ .refl _
  | other => exact .refl s

theorem tick_keeps (s : WaylandThreadState) : s.Keeps s.tickTimeouts := by
  rw [tickTimeouts_eq]
  exact .of_sent (List.filter_sublist.map _) rfl rfl rfl rfl

/-! ## One part of a round -/

/-- The message replaces a visible notification. -/
def replaces (s : WaylandThreadState) : ThreadStep → Bool
  | .receive n => !n.isClose && s.isVisible n.id
  | _ => false

theorem frees_receive {n : Notif} (h : n.isClose = false) : s.frees (.receive n) = false := by
  rw [frees, h]
  rfl

theorem frees_of_adds {n : Notif} (h : s.adds (.receive n) = true) :
    s.frees (.receive n) = false := by
  simp only [adds, Bool.and_eq_true, Bool.not_eq_true'] at h
  exact frees_receive h.1

theorem frees_of_replaces {n : Notif} (h : s.replaces (.receive n) = true) :
    s.frees (.receive n) = false := by
  simp only [replaces, Bool.and_eq_true, Bool.not_eq_true'] at h
  exact frees_receive h.1

theorem adds_of_replaces {n : Notif} (h : s.replaces (.receive n) = true) :
    s.adds (.receive n) = false := by
  simp only [replaces, Bool.and_eq_true] at h
  simp [adds, h.2]

/-- The notifications that get a place when another one comes. -/
def placed (s : WaylandThreadState) (n : Notif) : List Notif :=
  (s.queue ++ [n]).take (maxVisible - s.visible.length)

/-- What adding a notification leaves. -/
theorem act_receive_new {n : Notif} (h : s.adds (.receive n) = true) :
    s.act (.receive n) = { s with
      visible := s.visible ++ s.made (s.placed n)
      queue := (s.queue ++ [n]).drop (maxVisible - s.visible.length)
      reads := s.reads + (s.placed n).length
      nextProxy := s.nextProxy + 2 * (s.placed n).length
      sent := s.sent ++ s.setups (s.placed n).length } := by
  obtain ⟨hclose, hvis⟩ : n.isClose = false ∧ s.isVisible n.id = false := by simpa [adds] using h
  show s.receive n = _
  rw [receive_eq_enqueue hclose, enqueue, findIdx?_eq_none_iff.mpr hvis]
  exact pumpFrom_toasts _ _ rfl

/-- What replacing one leaves. -/
theorem act_receive_visible {n : Notif} (h : s.replaces (.receive n) = true) :
    ∃ i v, (s.visible.findIdx? fun v => v.notif.id = n.id) = some i ∧ s.visible[i]? = some v ∧
      v.notif.id = n.id ∧
      s.act (.receive n) = { s with
        visible := s.visible.set i
          { v with notif := n, expiresAt := s.clock s.reads + lifetime n, buffer := none }
        reads := s.reads + 1 } := by
  obtain ⟨hclose, hvis⟩ : n.isClose = false ∧ s.isVisible n.id = true := by
    simpa [replaces] using h
  cases hidx : s.visible.findIdx? fun v => v.notif.id = n.id with
  | none =>
    rw [findIdx?_eq_none_iff, hvis] at hidx
    cases hidx
  | some i =>
    obtain ⟨hi, hid, -⟩ := List.findIdx?_eq_some_iff_getElem.mp hidx
    refine ⟨i, s.visible[i], rfl, List.getElem?_eq_getElem hi, by simpa using hid, ?_⟩
    show s.receive n = _
    rw [receive_eq_enqueue hclose, enqueue, hidx]
    simp only [now, List.modify_eq_set_getElem?, List.getElem?_eq_getElem hi]
    rfl

/-- **The three things that a part of a round does.** -/
theorem act_cases (s : WaylandThreadState) (e : ThreadStep) :
    (∃ n, e = .receive n ∧ s.adds e = true) ∨ (∃ n, e = .receive n ∧ s.replaces e = true) ∨
      (s.adds e = false ∧ s.replaces e = false ∧ s.Keeps (s.act e)) := by
  cases e with
  | receive n =>
    cases hclose : n.isClose with
    | true =>
      refine .inr (.inr ⟨by simp [adds, hclose], by simp [replaces, hclose], ?_⟩)
      show s.Keeps (s.receive n)
      rw [receive, if_pos hclose]
      split
      · exact .refl s
      · exact s.close_keeps _ _
    | false =>
      cases hvis : s.isVisible n.id with
      | true => exact .inr (.inl ⟨n, rfl, by simp [replaces, hclose, hvis]⟩)
      | false => exact .inl ⟨n, rfl, by simp [adds, hclose, hvis]⟩
  | dispatch e => exact .inr (.inr ⟨rfl, rfl, s.dispatch_keeps e⟩)
  | tick => exact .inr (.inr ⟨rfl, rfl, s.tick_keeps⟩)

/-! ## Proxies -/

/-- The surfaces of the toasts, and their layer surfaces. -/
def proxies (s : WaylandThreadState) : List (Proxy × Proxy) :=
  s.visible.map fun v => (v.surface, v.layer)

/-- The layer surfaces of the toasts. -/
def layers (s : WaylandThreadState) : List Proxy := s.visible.map VisibleToast.layer

theorem layers_eq (s : WaylandThreadState) : s.layers = s.proxies.map Prod.snd := by
  rw [proxies, List.map_map]
  rfl

theorem proxies_eq_marks (s : WaylandThreadState) :
    s.proxies = s.marks.map fun m => (m.surface, m.layer) := by
  rw [marks, List.map_map]
  rfl

theorem mem_made {ns : List Notif} {v : VisibleToast} :
    v ∈ s.made ns ↔ ∃ j n, ns[j]? = some n ∧
      v = ⟨n, s.nextProxy + 2 * j, s.nextProxy + 2 * j + 1, none, false, toastW, toastH,
        s.clock (s.reads + j) + lifetime n⟩ := by
  rw [made, List.mem_mapIdx]
  constructor
  · rintro ⟨j, hj, rfl⟩
    exact ⟨j, _, List.getElem?_eq_getElem hj, rfl⟩
  · rintro ⟨j, n, hj, rfl⟩
    obtain ⟨hlt, rfl⟩ := List.getElem?_eq_some_iff.mp hj
    exact ⟨j, hlt, rfl⟩

theorem notifs_made (s : WaylandThreadState) (ns : List Notif) :
    (s.made ns).map VisibleToast.notif = ns :=
  List.ext_getElem (by simp [made]) fun j _ _ => by simp [made]

/-- The proxies of toasts that are made are those from the next one on. -/
theorem proxies_made (s : WaylandThreadState) (ns : List Notif) :
    ((s.made ns).map fun v => (v.surface, v.layer)) =
      (List.range ns.length).map fun j => (s.nextProxy + 2 * j, s.nextProxy + 2 * j + 1) :=
  List.ext_getElem (by simp [made]) fun j _ _ => by simp [made]

theorem nodup_new (p k : ℕ) : ((List.range k).map fun j => p + 2 * j + 1).Nodup := by
  have hinj : ∀ j k : ℕ, p + 2 * j + 1 = p + 2 * k + 1 → j = k := fun j k _ => by omega
  exact List.Nodup.map (fun j k hjk => hinj j k hjk) List.nodup_range

theorem proxies_receive_new {n : Notif} (h : s.adds (.receive n) = true) :
    (s.act (.receive n)).proxies = s.proxies ++
      (List.range (s.placed n).length).map fun j =>
        (s.nextProxy + 2 * j, s.nextProxy + 2 * j + 1) := by
  rw [act_receive_new h, ← proxies_made]
  exact List.map_append

theorem layers_receive_new {n : Notif} (h : s.adds (.receive n) = true) :
    (s.act (.receive n)).layers = s.layers ++
      (List.range (s.placed n).length).map fun j => s.nextProxy + 2 * j + 1 := by
  rw [layers_eq, layers_eq, proxies_receive_new h, List.map_append, List.map_map]
  rfl

theorem proxies_receive_visible {n : Notif} (h : s.replaces (.receive n) = true) :
    (s.act (.receive n)).proxies = s.proxies := by
  obtain ⟨i, v, -, hv, -, hact⟩ := act_receive_visible h
  rw [hact]
  exact map_set_same (fun v : VisibleToast => (v.surface, v.layer)) hv rfl

theorem layers_receive_visible {n : Notif} (h : s.replaces (.receive n) = true) :
    (s.act (.receive n)).layers = s.layers := by
  rw [layers_eq, layers_eq, proxies_receive_visible h]

theorem Keeps.proxies (h : s.Keeps t) : t.proxies.Sublist s.proxies := by
  rw [proxies_eq_marks, proxies_eq_marks]
  exact h.marks.map _

theorem Keeps.layers (h : s.Keeps t) : t.layers.Sublist s.layers := by
  rw [layers_eq, layers_eq]
  exact h.proxies.map _

/-- Every toast has proxies of its own, and none that is yet to come. -/
structure Apart (s : WaylandThreadState) : Prop where
  nodup : s.layers.Nodup
  below : ∀ p ∈ s.proxies, p.2 < s.nextProxy
  beside : ∀ p ∈ s.proxies, p.2 = p.1 + 1

namespace Apart

theorem new (failure : ℕ → Option String) (clock : ℕ → ℕ) :
    (WaylandThreadState.new failure clock).Apart :=
  ⟨List.nodup_nil, nofun, nofun⟩

theorem of_sublist (h : s.Apart) (hp : t.proxies.Sublist s.proxies)
    (hnext : t.nextProxy = s.nextProxy) : t.Apart where
  nodup := by
    have hnodup := h.nodup
    rw [layers_eq] at hnodup ⊢
    exact hnodup.sublist (hp.map _)
  below p hmem := hnext ▸ h.below p (hp.mem hmem)
  beside p hmem := h.beside p (hp.mem hmem)

theorem keeps (h : s.Apart) (hk : s.Keeps t) : t.Apart := h.of_sublist hk.proxies hk.nextProxy

theorem layer_lt (h : s.Apart) {v : VisibleToast} (hv : v ∈ s.visible) :
    v.layer < s.nextProxy :=
  h.below _ (List.mem_map_of_mem hv)

/-- Where one toast is changed, the others have other layer surfaces. -/
theorem mem_set (h : s.Apart) {i : ℕ} {v v' w : VisibleToast} (hv : s.visible[i]? = some v)
    (hw : w ∈ s.visible.set i v') : w = v' ∨ (w ∈ s.visible ∧ w.layer ≠ v.layer) := by
  obtain ⟨j, hj, rfl⟩ := List.mem_iff_getElem.mp hw
  rw [List.length_set] at hj
  rw [List.getElem_set]
  split
  · exact .inl rfl
  next hij =>
    refine .inr ⟨List.getElem_mem hj, fun hlayer => hij ?_⟩
    obtain ⟨hi, rfl⟩ := List.getElem?_eq_some_iff.mp hv
    have hnodup := h.nodup
    rw [layers] at hnodup
    refine (List.getElem?_inj (by simpa using hi) hnodup).mp ?_
    rw [List.getElem?_map, List.getElem?_map, List.getElem?_eq_getElem hi,
      List.getElem?_eq_getElem hj, Option.map_some, Option.map_some, hlayer]

/-- No toast has a layer surface that is yet to come. -/
theorem notMem_new (h : s.Apart) {l : Proxy} (hl : l ∈ s.layers) {k : ℕ} :
    l ∉ (List.range k).map fun j => s.nextProxy + 2 * j + 1 := by
  obtain ⟨v, hv, rfl⟩ := List.mem_map.mp hl
  intro hmem
  obtain ⟨j, -, hj⟩ := List.mem_map.mp hmem
  have hlt := h.layer_lt hv
  have hfresh : ∀ p j : ℕ, ¬ p + 2 * j + 1 < p := fun p j => by omega
  rw [← hj] at hlt
  exact hfresh _ _ hlt

theorem act (h : s.Apart) (e : ThreadStep) : (s.act e).Apart := by
  rcases s.act_cases e with ⟨n, rfl, hadds⟩ | ⟨n, rfl, hreplaces⟩ | ⟨-, -, hk⟩
  · have hproxies := proxies_receive_new hadds
    have hnext : (s.act (.receive n)).nextProxy = s.nextProxy + 2 * (s.placed n).length := by
      rw [act_receive_new hadds]
    have hlater : ∀ p j k : ℕ, j < k → p + 2 * j + 1 < p + 2 * k := fun p j k _ => by omega
    refine ⟨?_, ?_, ?_⟩
    · rw [layers_receive_new hadds]
      refine List.nodup_append.mpr ⟨h.nodup, nodup_new _ _, ?_⟩
      rintro l hl _ hl' rfl
      exact h.notMem_new hl hl'
    · rw [hproxies, hnext]
      intro p hp
      rcases List.mem_append.mp hp with hp | hp
      · exact Nat.lt_of_lt_of_le (h.below p hp) (Nat.le_add_right _ _)
      · obtain ⟨j, hj, rfl⟩ := List.mem_map.mp hp
        exact hlater _ j _ (List.mem_range.mp hj)
    · rw [hproxies]
      intro p hp
      rcases List.mem_append.mp hp with hp | hp
      · exact h.beside p hp
      · obtain ⟨j, -, rfl⟩ := List.mem_map.mp hp
        rfl
  · refine h.of_sublist (proxies_receive_visible hreplaces ▸ .refl _) ?_
    obtain ⟨i, v, -, -, -, hact⟩ := act_receive_visible hreplaces
    rw [hact]
  · exact h.keeps hk

end Apart

end WaylandThreadState

/-- The thread, part by part of its rounds. -/
def waylandParts (failure : ℕ → Option String) (clock : ℕ → ℕ) :
    EventMachine WaylandThreadState ThreadStep where
  Init s := s = .new failure clock
  Enabled _ _ := True
  step := .act

end NxNotif

end Nullxes
