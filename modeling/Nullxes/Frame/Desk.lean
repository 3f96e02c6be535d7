import Mathlib.Data.List.Range
import Nullxes.Library.EventMachine
import Nullxes.Frame.State

/-!
# The desk: layout and focus, abstractly

What FRAME is for, as far as windows are concerned, fits in a few functions: which windows each
workspace stacks, which id each workspace has recorded as focused, which surface the keyboard types
into, and whether the session is locked. `Desk` is that, and `Desk.apply` is the handful of things
that can happen to it. Serials, pointer grabs, layers, outputs and the panel are not in it.

## Two histories

A desk also remembers which toplevels were destroyed, and for which window each focus slot was
last set (`owner`). The code keeps only the id in the slot, and an id does not determine a window.

## What holds of every desk

`Desk.Wf` collects what no act can break: mapped windows were created at some time, live toplevels
are mapped somewhere, a client's live toplevels have different protocol ids, the slots hold the ids
of their owners, and nothing has the keyboard while the session is locked. What acts *can* break is
the subject of the modules on membership and focus.

## Main definitions

* `Desk`, `DeskAct`, `Desk.apply`, `Desk.Possible` — collected in `Desk.machine`
* `Desk.Wf` — the background invariant

## Main results

* `Desk.mem_apply`, `Desk.slot_apply`, `Desk.focus_apply` — a desk after an act, part by part
* `Desk.Wf.apply` — every possible act keeps a desk well formed
-/

namespace Nullxes

namespace Frame

open Function (update)

/-! ## Desks -/

/-- Windows, focus and lock. -/
@[ext] structure Desk where
  count : ℕ
  active : ℕ
  /-- The windows of each workspace, bottom to top. -/
  space : ℕ → Space
  /-- The id each workspace has recorded as focused. -/
  slot : ℕ → Option WindowId
  toplevels : List ToplevelSurface
  hasKeyboard : Bool
  focus : Option WlSurface
  lock : Option LockSession
  destroyed : List ToplevelSurface
  /-- The window for which each slot was set. -/
  owner : ℕ → Option Window

/-- What can happen to a desk. -/
inductive DeskAct
  /-- Nothing the desk can see. -/
  | idle
  /-- A toplevel appears on the active workspace. -/
  | create (t : ToplevelSurface) (loc : Point ℤ)
  /-- A toplevel is destroyed. -/
  | destroy (t : ToplevelSurface)
  /-- Another workspace becomes active, if there is one with this index. -/
  | switch (idx : ℕ)
  /-- The focused window is sent to another workspace. -/
  | move (target : ℕ)
  /-- An interactive move puts its window somewhere. -/
  | drag (w : Window) (loc : Point ℤ)
  /-- A button is pressed on a window, or on none. -/
  | press (hit : Option Window)
  | lock (locker : SessionLocker)
  | lockSurface (surface : LockSurface)
  | unlock
  /-- A surface is gone. -/
  | vanish (surface : WlSurface)

namespace Desk

variable (d : Desk)

/-- Without a keyboard there is nothing to focus. -/
def setFocus (f : Option WlSurface) : Desk :=
  { d with focus := if d.hasKeyboard then f else d.focus }

/-- The lowest window of workspace `i` on the surface. -/
def onSurface (wl : WlSurface) (i : ℕ) : Option Window :=
  (d.space i).find fun w => decide (w.wlSurface = some wl)

/-- The first workspace with a window on the surface, and that window. -/
def firstOn (wl : WlSurface) : Option (ℕ × Window) :=
  ((List.range d.count).find? fun i => (d.onSurface wl i).isSome).bind fun i =>
    (d.onSurface wl i).map fun w => (i, w)

/-- The window a look-up by id finds on workspace `i`. -/
def lookup (i : ℕ) (id : WindowId) : Option Window := (d.space i).find fun w => windowId w = id

/-- The spaces after one window on the surface is unmapped. -/
def unmapped (wl : WlSurface) : ℕ → Space :=
  match d.firstOn wl with
  | none => d.space
  | some (i, w) => update d.space i ((d.space i).remove w)

/-- The active slot has the id of the window that is unmapped. -/
def clears (wl : WlSurface) : Bool :=
  ((d.firstOn wl).map fun r => decide (d.slot d.active = some (windowId r.2))).getD false

/-- A toplevel is destroyed: one window on its surface is unmapped, and the active slot is cleared
if it has that window's id. -/
def destroyToplevel (t : ToplevelSurface) : Desk :=
  { d with
    toplevels := d.toplevels.filter (· ≠ t)
    destroyed := t :: d.destroyed
    space := d.unmapped t.wlSurface
    slot := if d.clears t.wlSurface then update d.slot d.active none else d.slot
    owner := if d.clears t.wlSurface then update d.owner d.active none else d.owner }

/-- The id that is to go to `target`: the recorded one, if `target` is another workspace. -/
def planned (target : ℕ) : Option WindowId :=
  if target < d.count ∧ target ≠ d.active then d.slot d.active else none

/-- The spaces after the planned move: the window found by the id goes to `target`. -/
def carried (target : ℕ) : ℕ → Space :=
  match (d.planned target).bind (d.lookup d.active) with
  | none => d.space
  | some w =>
    update (update d.space d.active ((d.space d.active).remove w)) target
      ((d.space target).place w (((d.space d.active).location w).getD (0, 0)))

/-- The focused window is sent to `target`. The record goes there whether or not a window is
found. -/
def moveFocused (target : ℕ) : Desk :=
  { d with
    space := d.carried target
    slot := if (d.planned target).isSome then
      update (update d.slot d.active none) target (d.slot d.active) else d.slot
    owner := if (d.planned target).isSome then
      update (update d.owner d.active none) target (d.owner d.active) else d.owner }

/-- What each act does. -/
def apply : DeskAct → Desk
  | .idle => d
  | .create t loc =>
    { d with
      toplevels := t :: d.toplevels
      space := update d.space d.active ((d.space d.active).place ⟨t⟩ loc)
      slot := update d.slot d.active (some (windowId ⟨t⟩))
      owner := update d.owner d.active (some ⟨t⟩) }
  | .destroy t => d.destroyToplevel t
  | .switch idx => { d with active := if idx < d.count then idx else d.active }
  | .move target => d.moveFocused target
  | .drag w loc => { d with space := update d.space d.active ((d.space d.active).place w loc) }
  | .press hit =>
    { d with
      space := match hit with
        | some w => update d.space d.active ((d.space d.active).raise w)
        | none => d.space }.setFocus (hit.bind Window.wlSurface)
  | .lock locker =>
    { d with lock := d.lock.or (some ⟨locker, []⟩) }.setFocus (if d.lock.isSome then d.focus else none)
  | .lockSurface surface =>
    { d with lock := d.lock.map fun l => { l with surfaces := l.surfaces ++ [surface] } }
  | .unlock =>
    { d with lock := none }.setFocus (((d.space d.active).top.bind Window.wlSurface).or d.focus)
  | .vanish surface => { d with focus := if d.focus = some surface then none else d.focus }

/-- The toplevel existed at some time. -/
def Known (t : ToplevelSurface) : Prop := t ∈ d.toplevels ∨ t ∈ d.destroyed

/-- The act can happen: toplevels are new when they appear and exist when they are destroyed, a
client gives its live toplevels different protocol ids, an interactive move has hold of a window
that existed, and the buttons reach mapped windows of unlocked sessions only. -/
def Possible : DeskAct → Prop
  | .create t _ => t ∉ d.destroyed ∧ ∀ t' ∈ d.toplevels,
      t'.wlSurface.client = t.wlSurface.client → t'.wlSurface.protocolId ≠ t.wlSurface.protocolId
  | .destroy t => t ∈ d.toplevels
  | .drag w _ => d.Known w.toplevelSurface
  | .press hit => d.lock = none ∧ ∀ w ∈ hit, w ∈ d.space d.active
  | _ => True

/-! ### What the searches find -/

theorem onSurface_eq_none {wl : WlSurface} {i : ℕ} :
    d.onSurface wl i = none ↔ ∀ w ∈ d.space i, w.toplevelSurface.wlSurface ≠ wl := by
  simp [onSurface, ZStack.find_eq_none]

theorem mem_of_onSurface {wl : WlSurface} {i : ℕ} {w : Window} (h : d.onSurface wl i = some w) :
    w ∈ d.space i ∧ w.toplevelSurface.wlSurface = wl :=
  ⟨ZStack.mem_of_find h, by simpa using ZStack.prop_of_find h⟩

theorem firstOn_eq_some_iff {wl : WlSurface} {i : ℕ} {w : Window} :
    d.firstOn wl = some (i, w) ↔
      i < d.count ∧ d.onSurface wl i = some w ∧ ∀ j < i, d.onSurface wl j = none := by
  simp only [firstOn, Option.bind_eq_some_iff, Option.map_eq_some_iff, List.find?_range_eq_some,
    List.mem_range, Prod.mk.injEq]
  constructor
  · rintro ⟨i', ⟨-, hi', hlow⟩, w', hw', rfl, rfl⟩
    exact ⟨hi', hw', by simpa using hlow⟩
  · rintro ⟨hi, hw, hlow⟩
    exact ⟨i, ⟨by simp [hw], hi, by simpa using hlow⟩, w, hw, rfl, rfl⟩

theorem mem_of_firstOn {wl : WlSurface} {i : ℕ} {w : Window} (h : d.firstOn wl = some (i, w)) :
    w ∈ d.space i ∧ w.toplevelSurface.wlSurface = wl :=
  d.mem_of_onSurface (d.firstOn_eq_some_iff.mp h).2.1

theorem firstOn_eq_none {wl : WlSurface} :
    d.firstOn wl = none ↔ ∀ i < d.count, d.onSurface wl i = none := by
  rw [firstOn, Option.bind_eq_none_iff]
  constructor
  · intro h i hi
    rcases hf : (List.range d.count).find? fun i => (d.onSurface wl i).isSome with _ | j
    · simpa using List.find?_eq_none.mp hf i (List.mem_range.mpr hi)
    · have hon := List.find?_some hf
      have hnone := Option.map_eq_none_iff.mp (h j hf)
      simp [hnone] at hon
  · intro h i hf
    rw [h i (List.mem_range.mp (List.mem_of_find?_eq_some hf))]
    rfl

theorem mem_of_lookup {i : ℕ} {id : WindowId} {w : Window} (h : d.lookup i id = some w) :
    w ∈ d.space i ∧ windowId w = id :=
  ⟨ZStack.mem_of_find h, by simpa using ZStack.prop_of_find h⟩

/-- `w` is the lowest window of workspace `i` that has the id. -/
def Lowest (i : ℕ) (id : WindowId) (w : Window) : Prop :=
  windowId w = id ∧
    ∃ below above, (d.space i).elements = below ++ w :: above ∧ ∀ v ∈ below, windowId v ≠ id

theorem lookup_eq_some_iff {i : ℕ} {id : WindowId} {w : Window} :
    d.lookup i id = some w ↔ d.Lowest i id w := by
  simp [lookup, Lowest, ZStack.find_eq_some_iff]

theorem lookup_eq_none {i : ℕ} {id : WindowId} :
    d.lookup i id = none ↔ ∀ w ∈ d.space i, windowId w ≠ id := by
  simp [lookup, ZStack.find_eq_none]

/-! ### The two acts that search -/

section

variable {t : ToplevelSurface} {i j target : ℕ} {w x : Window} {id : WindowId}

theorem mem_unmapped {wl : WlSurface} :
    x ∈ d.unmapped wl j ↔ x ∈ d.space j ∧ d.firstOn wl ≠ some (j, x) := by
  rw [unmapped]
  rcases d.firstOn wl with _ | ⟨i, w⟩
  · simp
  · by_cases hj : j = i
    · subst hj
      simp [ZStack.mem_remove, and_comm, eq_comm]
    · simp [hj, Ne.symm hj]

theorem clears_of_firstOn {wl : WlSurface} (h : d.firstOn wl = some (i, w)) :
    d.clears wl = true ↔ d.slot d.active = some (windowId w) := by
  simp [clears, h]

theorem planned_eq_some_iff : d.planned target = some id ↔
    target < d.count ∧ target ≠ d.active ∧ d.slot d.active = some id := by
  simp [planned, and_assoc]

/-- The window a move to `target` takes along. -/
def carriedWindow (target : ℕ) : Option Window := (d.planned target).bind (d.lookup d.active)

theorem carriedWindow_eq_some_iff : d.carriedWindow target = some w ↔
    ∃ id, d.planned target = some id ∧ d.lookup d.active id = some w := by
  simp [carriedWindow, Option.bind_eq_some_iff]

theorem carriedWindow_of_planned (h : d.planned target = some id) :
    d.carriedWindow target = some w ↔ d.Lowest d.active id w := by
  rw [carriedWindow, h, Option.bind_some, lookup_eq_some_iff]

theorem mem_of_carriedWindow (h : d.carriedWindow target = some w) : w ∈ d.space d.active := by
  obtain ⟨id, -, hl⟩ := d.carriedWindow_eq_some_iff.mp h
  exact (d.mem_of_lookup hl).1

theorem ne_active_of_carriedWindow (h : d.carriedWindow target = some w) : target ≠ d.active := by
  obtain ⟨id, hp, -⟩ := d.carriedWindow_eq_some_iff.mp h
  exact (d.planned_eq_some_iff.mp hp).2.1

theorem mem_carried : x ∈ d.carried target j ↔
    j = target ∧ d.carriedWindow target = some x ∨
      x ∈ d.space j ∧ ¬ (j = d.active ∧ d.carriedWindow target = some x) := by
  rcases h : d.carriedWindow target with _ | w
  · rw [carried, show (d.planned target).bind (d.lookup d.active) = none from h]
    simp
  · have hne := d.ne_active_of_carriedWindow h
    rw [carried, show (d.planned target).bind (d.lookup d.active) = some w from h]
    by_cases hj : j = target
    · subst hj
      simp [ZStack.mem_place, hne, eq_comm]
    · by_cases ha : j = d.active
      · subst ha
        simp [ZStack.mem_remove, hj, and_comm, eq_comm]
      · simp [hj, ha]

end

/-! ### A desk after an act -/

section

variable {d} {a : DeskAct} {i : ℕ} {x : Window}

@[simp] theorem count_apply : (d.apply a).count = d.count := by
  cases a <;> rfl

@[simp] theorem hasKeyboard_apply : (d.apply a).hasKeyboard = d.hasKeyboard := by
  cases a <;> rfl

theorem active_apply : (d.apply a).active =
    match a with
    | .switch idx => if idx < d.count then idx else d.active
    | _ => d.active := by
  cases a <;> rfl

/-- Toplevels appear by being created and go by being destroyed. -/
theorem toplevels_apply : (d.apply a).toplevels =
    match a with
    | .create t _ => t :: d.toplevels
    | .destroy t => d.toplevels.filter (· ≠ t)
    | _ => d.toplevels := by
  cases a <;> rfl

theorem destroyed_apply : (d.apply a).destroyed =
    match a with
    | .destroy t => t :: d.destroyed
    | _ => d.destroyed := by
  cases a <;> rfl

theorem lock_apply : (d.apply a).lock =
    match a with
    | .lock locker => d.lock.or (some ⟨locker, []⟩)
    | .lockSurface surface =>
      d.lock.map fun l => { l with surfaces := l.surfaces ++ [surface] }
    | .unlock => none
    | _ => d.lock := by
  cases a <;> rfl

/-- **Which windows are mapped where, after an act.** -/
theorem mem_apply : x ∈ (d.apply a).space i ↔
    match a with
    | .create t _ => x ∈ d.space i ∨ i = d.active ∧ x = ⟨t⟩
    | .destroy t => x ∈ d.space i ∧ d.firstOn t.wlSurface ≠ some (i, x)
    | .move target => i = target ∧ d.carriedWindow target = some x ∨
        x ∈ d.space i ∧ ¬ (i = d.active ∧ d.carriedWindow target = some x)
    | .drag w _ => x ∈ d.space i ∨ i = d.active ∧ x = w
    | _ => x ∈ d.space i := by
  have hplace : ∀ w loc, x ∈ update d.space d.active ((d.space d.active).place w loc) i ↔
      x ∈ d.space i ∨ i = d.active ∧ x = w := by
    intro w loc
    by_cases hi : i = d.active
    · subst hi
      simp [ZStack.mem_place, or_comm]
    · simp [hi]
  cases a with
  | create t loc => exact hplace ⟨t⟩ loc
  | destroy t => exact d.mem_unmapped
  | move target => exact d.mem_carried
  | drag w loc => exact hplace w loc
  | press hit =>
    rcases hit with _ | w
    · exact Iff.rfl
    · show x ∈ update d.space d.active ((d.space d.active).raise w) i ↔ _
      by_cases hi : i = d.active
      · subst hi
        simp [ZStack.mem_raise]
      · simp [hi]
  | _ => exact Iff.rfl

/-- **What each workspace has recorded, after an act.** -/
theorem slot_apply : (d.apply a).slot i =
    match a with
    | .create t _ => if i = d.active then some (windowId ⟨t⟩) else d.slot i
    | .destroy t => if d.clears t.wlSurface ∧ i = d.active then none else d.slot i
    | .move target =>
      if (d.planned target).isSome then
        if i = target then d.slot d.active else if i = d.active then none else d.slot i
      else d.slot i
    | _ => d.slot i := by
  cases a with
  | create t loc => exact Function.update_apply _ _ _ _
  | destroy t =>
    by_cases hc : d.clears t.wlSurface <;>
      simp [apply, destroyToplevel, hc, Function.update_apply]
  | move target =>
    by_cases hp : (d.planned target).isSome <;>
      simp [apply, moveFocused, hp, Function.update_apply]
  | _ => rfl

/-- For which window it was recorded. -/
theorem owner_apply : (d.apply a).owner i =
    match a with
    | .create t _ => if i = d.active then some ⟨t⟩ else d.owner i
    | .destroy t => if d.clears t.wlSurface ∧ i = d.active then none else d.owner i
    | .move target =>
      if (d.planned target).isSome then
        if i = target then d.owner d.active else if i = d.active then none else d.owner i
      else d.owner i
    | _ => d.owner i := by
  cases a with
  | create t loc => exact Function.update_apply _ _ _ _
  | destroy t =>
    by_cases hc : d.clears t.wlSurface <;>
      simp [apply, destroyToplevel, hc, Function.update_apply]
  | move target =>
    by_cases hp : (d.planned target).isSome <;>
      simp [apply, moveFocused, hp, Function.update_apply]
  | _ => rfl

/-- **Where the keyboard types, after an act.** -/
theorem focus_apply : (d.apply a).focus =
    match a with
    | .press hit => if d.hasKeyboard then hit.bind Window.wlSurface else d.focus
    | .lock _ => if d.hasKeyboard then if d.lock.isSome then d.focus else none else d.focus
    | .unlock =>
      if d.hasKeyboard then ((d.space d.active).top.bind Window.wlSurface).or d.focus else d.focus
    | .vanish surface => if d.focus = some surface then none else d.focus
    | _ => d.focus := by
  cases a <;> rfl

theorem mem_toplevels_apply {t : ToplevelSurface} (h : t ∈ (d.apply a).toplevels) :
    t ∈ d.toplevels ∨ ∃ loc, a = .create t loc := by
  rw [toplevels_apply] at h
  split at h
  next t' loc =>
    rcases List.mem_cons.mp h with rfl | h
    · exact .inr ⟨loc, rfl⟩
    · exact .inl h
  next => exact .inl (List.mem_filter.mp h).1
  next => exact .inl h

/-- What was known stays known, and only creation makes a toplevel known. -/
theorem known_apply {t : ToplevelSurface} (hp : d.Possible a) :
    (d.apply a).Known t ↔ d.Known t ∨ ∃ loc, a = .create t loc := by
  rw [Known, toplevels_apply, destroyed_apply]
  cases a with
  | create t' loc => simp [Known]; grind
  | destroy t' =>
    have ht' : t' ∈ d.toplevels := hp
    simp [Known]; grind
  | _ => simp [Known]

end

/-! ## What holds of every desk -/

/-- The background invariant. -/
structure Wf : Prop where
  /-- The active workspace exists. -/
  active_lt : d.active < d.count
  /-- Only workspaces that exist have windows. -/
  lt_count : ∀ i, ∀ w ∈ d.space i, i < d.count
  /-- Mapped windows are windows of toplevels that existed. -/
  known : ∀ i, ∀ w ∈ d.space i, d.Known w.toplevelSurface
  /-- A live toplevel was not destroyed. -/
  apart : ∀ t ∈ d.toplevels, t ∉ d.destroyed
  /-- A client's live toplevels have different protocol ids. -/
  ids : ∀ t ∈ d.toplevels, ∀ t' ∈ d.toplevels, t.wlSurface.client = t'.wlSurface.client →
    t.wlSurface.protocolId = t'.wlSurface.protocolId → t = t'
  /-- A live toplevel is mapped somewhere. -/
  mapped : ∀ t ∈ d.toplevels, ∃ i, (⟨t⟩ : Window) ∈ d.space i
  /-- A slot holds the id of the window it was set for. -/
  slot_eq : ∀ i, d.slot i = (d.owner i).map windowId
  /-- Nothing has the keyboard while the session is locked. -/
  locked_focus : d.lock.isSome → d.focus = none
  /-- Nothing has a keyboard that is not there. -/
  keyboard_focus : d.hasKeyboard = false → d.focus = none

namespace Wf

variable {d : Desk} {t : ToplevelSurface} {i : ℕ} {w : Window}

theorem surface_inj (hd : d.Wf) {t' : ToplevelSurface} (ht : t ∈ d.toplevels)
    (ht' : t' ∈ d.toplevels) (h : t.wlSurface = t'.wlSurface) : t = t' :=
  hd.ids t ht t' ht' (by rw [h]) (by rw [h])

/-- The search for the surface of a live toplevel finds a window. -/
theorem exists_firstOn (hd : d.Wf) (ht : t ∈ d.toplevels) :
    ∃ i w, d.firstOn t.wlSurface = some (i, w) := by
  by_contra hno
  have hnone : d.firstOn t.wlSurface = none := by
    by_contra hne
    obtain ⟨⟨i, w⟩, hw⟩ := Option.ne_none_iff_exists'.mp hne
    exact hno ⟨i, w, hw⟩
  obtain ⟨i, hi⟩ := hd.mapped t ht
  have hon := d.firstOn_eq_none.mp hnone i (hd.lt_count i _ hi)
  exact d.onSurface_eq_none.mp hon _ hi rfl

/-- The search never finds another live toplevel's window. -/
theorem firstOn_live (hd : d.Wf) (ht : t ∈ d.toplevels)
    (h : d.firstOn t.wlSurface = some (i, w)) (hw : w.toplevelSurface ∈ d.toplevels) :
    w = ⟨t⟩ := by
  have heq := hd.surface_inj hw ht (d.mem_of_firstOn h).2
  cases w
  cases heq
  rfl

/-- Mapped windows stay known, and so does what is put on a workspace. -/
theorem known_mem_apply (hd : d.Wf) {a : DeskAct} (hp : d.Possible a)
    (hw : w ∈ (d.apply a).space i) : (d.apply a).Known w.toplevelSurface := by
  rw [known_apply hp]
  rw [mem_apply] at hw
  split at hw
  next t loc =>
    rcases hw with hw | ⟨-, rfl⟩
    · exact .inl (hd.known i w hw)
    · exact .inr ⟨loc, rfl⟩
  next => exact .inl (hd.known i w hw.1)
  next =>
    rcases hw with ⟨-, hw⟩ | ⟨hw, -⟩
    · exact .inl (hd.known _ w (d.mem_of_carriedWindow hw))
    · exact .inl (hd.known i w hw)
  next =>
    rcases hw with hw | ⟨-, rfl⟩
    · exact .inl (hd.known i w hw)
    · exact .inl hp
  next => exact .inl (hd.known i w hw)

theorem lt_count_apply (hd : d.Wf) {a : DeskAct} (hw : w ∈ (d.apply a).space i) :
    i < (d.apply a).count := by
  rw [count_apply]
  rw [mem_apply] at hw
  split at hw
  next =>
    rcases hw with hw | ⟨rfl, -⟩
    · exact hd.lt_count i w hw
    · exact hd.active_lt
  next => exact hd.lt_count i w hw.1
  next =>
    rcases hw with ⟨rfl, hw⟩ | ⟨hw, -⟩
    · obtain ⟨id, hp, -⟩ := d.carriedWindow_eq_some_iff.mp hw
      exact (d.planned_eq_some_iff.mp hp).1
    · exact hd.lt_count i w hw
  next =>
    rcases hw with hw | ⟨rfl, -⟩
    · exact hd.lt_count i w hw
    · exact hd.active_lt
  next => exact hd.lt_count i w hw

/-- A live toplevel that is mapped stays mapped somewhere. -/
theorem mapped_apply (hd : d.Wf) {a : DeskAct} (hp : d.Possible a)
    (ht : t ∈ (d.apply a).toplevels) : ∃ i, (⟨t⟩ : Window) ∈ (d.apply a).space i := by
  rcases mem_toplevels_apply ht with hold | ⟨loc, rfl⟩
  · obtain ⟨i, hi⟩ := hd.mapped t hold
    cases a with
    | destroy t' =>
      refine ⟨i, mem_apply.mpr ⟨hi, fun hfirst => ?_⟩⟩
      have heq := hd.firstOn_live hp hfirst hold
      cases heq
      simp [toplevels_apply] at ht
    | move target =>
      by_cases hc : i = d.active ∧ d.carriedWindow target = some ⟨t⟩
      · exact ⟨target, mem_apply.mpr (.inl ⟨rfl, hc.2⟩)⟩
      · exact ⟨i, mem_apply.mpr (.inr ⟨hi, hc⟩)⟩
    | create t' loc => exact ⟨i, mem_apply.mpr (.inl hi)⟩
    | drag w loc => exact ⟨i, mem_apply.mpr (.inl hi)⟩
    | _ => exact ⟨i, mem_apply.mpr hi⟩
  · exact ⟨d.active, mem_apply.mpr (.inr ⟨rfl, rfl⟩)⟩

theorem apart_apply (hd : d.Wf) {a : DeskAct} (hp : d.Possible a)
    (ht : t ∈ (d.apply a).toplevels) : t ∉ (d.apply a).destroyed := by
  rw [destroyed_apply]
  rw [toplevels_apply] at ht
  cases a with
  | create t' loc =>
    rcases List.mem_cons.mp ht with rfl | ht
    · exact hp.1
    · exact hd.apart t ht
  | destroy t' =>
    obtain ⟨ht, hne⟩ := List.mem_filter.mp ht
    intro hdead
    rcases List.mem_cons.mp hdead with rfl | hdead
    · simp at hne
    · exact hd.apart t ht hdead
  | _ => exact hd.apart t ht

theorem ids_apply (hd : d.Wf) {a : DeskAct} (hp : d.Possible a) {t' : ToplevelSurface}
    (ht : t ∈ (d.apply a).toplevels) (ht' : t' ∈ (d.apply a).toplevels)
    (hc : t.wlSurface.client = t'.wlSurface.client)
    (hi : t.wlSurface.protocolId = t'.wlSurface.protocolId) : t = t' := by
  rcases mem_toplevels_apply ht with hold | ⟨loc, rfl⟩
  · rcases mem_toplevels_apply ht' with hold' | ⟨loc, rfl⟩
    · exact hd.ids t hold t' hold' hc hi
    · exact absurd hi (hp.2 t hold hc)
  · rcases mem_toplevels_apply ht' with hold' | ⟨loc', heq⟩
    · exact absurd hi.symm (hp.2 t' hold' hc.symm)
    · cases heq
      rfl

theorem slot_eq_apply (hd : d.Wf) {a : DeskAct} :
    (d.apply a).slot i = ((d.apply a).owner i).map windowId := by
  rw [slot_apply, owner_apply]
  cases a with
  | create t loc => simp only; split_ifs <;> simp [hd.slot_eq]
  | destroy t => simp only; split_ifs <;> simp [hd.slot_eq]
  | move target => simp only; split_ifs <;> simp [hd.slot_eq]
  | _ => exact hd.slot_eq i

theorem keyboard_focus_apply (hd : d.Wf) {a : DeskAct} (hk : (d.apply a).hasKeyboard = false) :
    (d.apply a).focus = none := by
  rw [hasKeyboard_apply] at hk
  rw [focus_apply]
  cases a <;> simp [hk, hd.keyboard_focus hk]

theorem locked_focus_apply (hd : d.Wf) {a : DeskAct} (hp : d.Possible a)
    (hl : (d.apply a).lock.isSome) : (d.apply a).focus = none := by
  rw [lock_apply] at hl
  rw [focus_apply]
  cases a with
  | press hit => simp [hp.1] at hl
  | lock locker =>
    rcases h : d.lock with _ | l
    · simpa using hd.keyboard_focus
    · simp [hd.locked_focus (by simp [h])]
  | lockSurface surface => exact hd.locked_focus (by simpa using hl)
  | unlock => simp at hl
  | vanish surface => simp [hd.locked_focus hl]
  | _ => exact hd.locked_focus hl

/-- **Every possible act keeps a desk well formed.** -/
theorem apply (hd : d.Wf) {a : DeskAct} (hp : d.Possible a) : (d.apply a).Wf where
  active_lt := by
    rw [active_apply, count_apply]
    split
    · split
      next h => exact h
      next => exact hd.active_lt
    · exact hd.active_lt
  lt_count _ _ hw := hd.lt_count_apply hw
  known _ _ hw := hd.known_mem_apply hp hw
  apart _ ht := hd.apart_apply hp ht
  ids _ ht _ ht' := hd.ids_apply hp ht ht'
  mapped _ ht := hd.mapped_apply hp ht
  slot_eq _ := hd.slot_eq_apply
  locked_focus hl := hd.locked_focus_apply hp hl
  keyboard_focus hk := hd.keyboard_focus_apply hk

end Wf

/-! ## The machine -/

/-- A desk nothing has happened to. -/
def blank (count : ℕ) (hasKeyboard : Bool) : Desk where
  count := count
  active := 0
  space _ := ZStack.empty
  slot _ := none
  toplevels := []
  hasKeyboard := hasKeyboard
  focus := none
  lock := none
  destroyed := []
  owner _ := none

/-- Desks as an event machine. -/
def machine : EventMachine Desk DeskAct where
  Init d := ∃ count hasKeyboard, 0 < count ∧ d = blank count hasKeyboard
  Enabled := Possible
  step := apply

theorem wf_blank {count : ℕ} (h : 0 < count) (hasKeyboard : Bool) :
    (blank count hasKeyboard).Wf where
  active_lt := h
  lt_count i w hw := absurd hw (ZStack.not_mem_empty w)
  known i w hw := absurd hw (ZStack.not_mem_empty w)
  apart t ht := absurd ht (by simp [blank])
  ids t ht := absurd ht (by simp [blank])
  mapped t ht := absurd ht (by simp [blank])
  slot_eq i := rfl
  locked_focus _ := rfl
  keyboard_focus _ := rfl

/-- **What holds of every desk.** -/
theorem wf_of_reachable {d : Desk} (h : machine.Reachable d) : d.Wf := by
  refine h.invariant ?_ fun d a hd hp => hd.apply hp
  rintro d ⟨count, hasKeyboard, hpos, rfl⟩
  exact wf_blank hpos hasKeyboard

end Desk

end Frame

end Nullxes
