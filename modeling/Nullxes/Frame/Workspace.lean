import Nullxes.Frame.Smithay

/-!
# Workspaces

`workspace.rs`. `WorkspaceManager` holds the index state: how many workspaces there are, which one
is active, and one focus slot for each. `Workspaces` holds one space of windows for each.

Both come from one configured count clamped to `1..=9`. The manager's active index and the length
of its slot list are bounded by fields of the structure, so the indexing in `planMoveFocused`
cannot go out of range; that the *two* structures agree on the count is a property of runs and
is proved where runs are.

## Main results

* `WorkspaceManager.planMoveFocused_eq_some_iff` — when a move is planned, and what it records
* `Workspaces.space_modify`, `Workspaces.space_activeMut` — the spaces after one of them changes
-/

namespace Nullxes

namespace Frame

open Function (update)

/-- `WindowId(pub u64)`. -/
structure WindowId where
  raw : UInt64
  deriving DecidableEq, Repr

/-- `window_id` of `handlers/xdg_shell.rs`: the protocol id of the window's surface, or `0`. -/
def windowId (w : Window) : WindowId :=
  ⟨(w.wlSurface.map fun s => s.protocolId.toUInt64).getD 0⟩

theorem windowId_eq (w : Window) :
    windowId w = ⟨w.toplevelSurface.wlSurface.protocolId.toUInt64⟩ := rfl

theorem windowId_inj {v w : Window} : windowId v = windowId w ↔
    v.toplevelSurface.wlSurface.protocolId = w.toplevelSurface.wlSurface.protocolId := by
  rw [windowId_eq, windowId_eq, WindowId.mk.injEq, UInt32.toUInt64_inj]

/-- `count.clamp(1, 9) as usize`. -/
def clampCount (count : UInt8) : ℕ := max 1 (min count.toNat 9)

theorem clampCount_pos (count : UInt8) : 0 < clampCount count :=
  Nat.lt_of_lt_of_le Nat.zero_lt_one (Nat.le_max_left _ _)

/-! ## The manager -/

/-- Which workspace is active and which window each workspace has recorded as focused. -/
structure WorkspaceManager where
  count : ℕ
  active : ℕ
  focused : List (Option WindowId)
  /-- There is one slot for each workspace. -/
  length_focused : focused.length = count
  /-- The active index is the index of a workspace. -/
  active_lt : active < count

namespace WorkspaceManager

/-- `WorkspaceManager::new`. -/
def new (count : UInt8) : WorkspaceManager where
  count := clampCount count
  active := 0
  focused := List.replicate (clampCount count) none
  length_focused := List.length_replicate
  active_lt := clampCount_pos count

variable (m : WorkspaceManager)

/-- `active_index`. -/
def activeIndex : ℕ := m.active

/-- `switch_to`: the new state and whether it switched. -/
def switchTo (idx : ℕ) : WorkspaceManager × Bool :=
  if h : idx ≥ m.count ∨ idx = m.active then (m, false)
  else ({ m with active := idx, active_lt := by omega }, true)

/-- `switch_next`. -/
def switchNext (wrap : Bool) : WorkspaceManager × Bool :=
  let next := m.active + 1
  if next < m.count then m.switchTo next
  else if wrap then m.switchTo 0
  else (m, false)

/-- `switch_prev`. -/
def switchPrev (wrap : Bool) : WorkspaceManager × Bool :=
  if m.active > 0 then m.switchTo (m.active - 1)
  else if wrap then m.switchTo (m.count - 1)
  else (m, false)

/-- The focus slot of a workspace: `self.focused.get(idx).copied().flatten()`. -/
def slot (idx : ℕ) : Option WindowId := m.focused[idx]?.join

/-- `focused`. -/
def focusedId : Option WindowId := m.slot m.active

/-- `self.focused[idx] = id`. -/
def setSlot (idx : ℕ) (id : Option WindowId) : WorkspaceManager :=
  { m with focused := m.focused.set idx id, length_focused := by simp [m.length_focused] }

/-- `set_focus`. -/
def setFocus (id : Option WindowId) : WorkspaceManager :=
  match m.focused[m.active]? with
  | some _ => m.setSlot m.active id
  | none => m

/-- `plan_move_focused`: the new bookkeeping and the planned move, if there is one. -/
def planMoveFocused (target : ℕ) : WorkspaceManager × Option (ℕ × ℕ × WindowId) :=
  if target ≥ m.count ∨ target = m.active then (m, none)
  else
    match m.slot m.active with
    | none => (m, none)
    | some id =>
      let src := m.active
      ((m.setSlot src none).setSlot target (some id), some (src, target, id))

@[simp] theorem slot_new (count : UInt8) (i : ℕ) : (new count).slot i = none := by
  by_cases h : i < clampCount count <;> simp [slot, new, h]

@[simp] theorem count_setSlot (idx : ℕ) (id : Option WindowId) :
    (m.setSlot idx id).count = m.count := rfl

@[simp] theorem active_setSlot (idx : ℕ) (id : Option WindowId) :
    (m.setSlot idx id).active = m.active := rfl

theorem slot_setSlot (idx : ℕ) (id : Option WindowId) (h : idx < m.count) :
    (m.setSlot idx id).slot = update m.slot idx id := by
  have hlen : idx < m.focused.length := by rw [m.length_focused]; exact h
  funext i
  by_cases hi : i = idx
  · subst hi
    simp [slot, setSlot, hlen]
  · simp [slot, setSlot, Ne.symm hi, hi]

theorem setFocus_eq (id : Option WindowId) : m.setFocus id = m.setSlot m.active id := by
  have hlen : m.active < m.focused.length := by rw [m.length_focused]; exact m.active_lt
  rw [setFocus, List.getElem?_eq_getElem hlen]

/-- The slots after `set_focus`: only the active one changes. -/
theorem slot_setFocus (id : Option WindowId) :
    (m.setFocus id).slot = update m.slot m.active id := by
  rw [setFocus_eq, slot_setSlot m _ _ m.active_lt]

@[simp] theorem count_setFocus (id : Option WindowId) : (m.setFocus id).count = m.count := by
  rw [setFocus_eq]; rfl

@[simp] theorem active_setFocus (id : Option WindowId) : (m.setFocus id).active = m.active := by
  rw [setFocus_eq]; rfl

/-- A move is planned exactly when the target is another existing workspace and the active slot
holds an id; then the id goes from the active slot to the target's. -/
theorem planMoveFocused_eq_some_iff {target src tgt : ℕ} {id : WindowId} {m' : WorkspaceManager} :
    m.planMoveFocused target = (m', some (src, tgt, id)) ↔
      target < m.count ∧ target ≠ m.active ∧ m.focusedId = some id ∧ src = m.active ∧
        tgt = target ∧ m' = (m.setSlot m.active none).setSlot target (some id) := by
  rw [planMoveFocused, focusedId]
  split
  next h =>
    have hno : ¬ (target < m.count ∧ target ≠ m.active) := by omega
    simp only [Prod.mk.injEq, reduceCtorEq, and_false, false_iff]
    exact fun h' => hno ⟨h'.1, h'.2.1⟩
  next h =>
    have hyes : target < m.count ∧ target ≠ m.active := by omega
    cases hs : m.slot m.active with
    | none => simp
    | some id' =>
      simp only [Prod.mk.injEq, Option.some.injEq, hyes.1, hyes.2, ne_eq, not_false_eq_true,
        true_and]
      constructor
      · rintro ⟨rfl, rfl, rfl, rfl⟩
        exact ⟨rfl, rfl, rfl, rfl⟩
      · rintro ⟨rfl, rfl, rfl, rfl⟩
        exact ⟨rfl, rfl, rfl, rfl⟩

/-- A move that is not planned leaves the manager alone. -/
theorem planMoveFocused_of_none {target : ℕ} (h : (m.planMoveFocused target).2 = none) :
    (m.planMoveFocused target).1 = m := by
  rw [planMoveFocused] at h ⊢
  split at h
  next hc => rw [if_pos hc]
  next hc =>
    rw [if_neg hc]
    cases hs : m.slot m.active with
    | none => rfl
    | some id => simp [hs] at h

@[simp] theorem count_switchTo (idx : ℕ) : (m.switchTo idx).1.count = m.count := by
  rw [switchTo]
  split <;> rfl

@[simp] theorem slot_switchTo (idx : ℕ) : (m.switchTo idx).1.slot = m.slot := by
  rw [switchTo]
  split <;> rfl

theorem active_switchTo (idx : ℕ) :
    (m.switchTo idx).1.active = if idx < m.count then idx else m.active := by
  rw [switchTo]
  split
  next h =>
    split
    next hlt => show m.active = idx; omega
    next => rfl
  next h => rw [if_pos (by omega)]

theorem switchNext_eq (wrap : Bool) :
    (m.switchNext wrap).1 =
      if m.active + 1 < m.count then (m.switchTo (m.active + 1)).1
      else if wrap then (m.switchTo 0).1 else m := by
  simp only [switchNext]
  split_ifs <;> rfl

theorem switchPrev_eq (wrap : Bool) :
    (m.switchPrev wrap).1 =
      if m.active > 0 then (m.switchTo (m.active - 1)).1
      else if wrap then (m.switchTo (m.count - 1)).1 else m := by
  rw [switchPrev]
  split_ifs <;> rfl

theorem switchTo_of_false {idx : ℕ} (h : (m.switchTo idx).2 = false) : (m.switchTo idx).1 = m := by
  rw [switchTo] at h ⊢
  split at h
  next hc => rw [dif_pos hc]
  next hc => cases h

end WorkspaceManager

/-! ## The spaces -/

/-- One space of windows for each workspace; there is always at least one. -/
structure Workspaces where
  spaces : List Space
  nonempty : 0 < spaces.length

namespace Workspaces

/-- `Workspaces::new`. -/
def new (count : UInt8) : Workspaces where
  spaces := List.replicate (clampCount count) ZStack.empty
  nonempty := by simpa using clampCount_pos count

variable (ws : Workspaces)

/-- `count`. -/
def count : ℕ := ws.spaces.length

/-- `get`. -/
def get (idx : ℕ) : Option Space := ws.spaces[idx]?

/-- `active`: out-of-range indices give the first space. -/
def active (idx : ℕ) : Space := (ws.get idx).getD (ws.spaces.get ⟨0, ws.nonempty⟩)

/-- `get_mut` followed by a change of the space it returns; nothing happens out of range. -/
def modify (idx : ℕ) (f : Space → Space) : Workspaces where
  spaces := ws.spaces.modify idx f
  nonempty := by simpa using ws.nonempty

/-- `active_mut` followed by a change of the space it returns: out-of-range indices give the last
space. -/
def activeMut (idx : ℕ) (f : Space → Space) : Workspaces :=
  ws.modify (min idx (ws.spaces.length - 1)) f

/-- `occupied`: the indices of the spaces that have a window. -/
def occupied : List ℕ :=
  (ws.spaces.zipIdx.filter fun p => p.1.elements.head?.isSome).map Prod.snd

/-- The windows of workspace `i`, bottom to top; no windows where there is no workspace. -/
def space (i : ℕ) : Space := (ws.get i).getD ZStack.empty

@[simp] theorem count_modify (idx : ℕ) (f : Space → Space) :
    (ws.modify idx f).count = ws.count := by
  simp [count, modify]

@[simp] theorem count_activeMut (idx : ℕ) (f : Space → Space) :
    (ws.activeMut idx f).count = ws.count := by simp [activeMut]

theorem space_modify (idx : ℕ) (f : Space → Space) (h : idx < ws.count) :
    (ws.modify idx f).space = update ws.space idx (f (ws.space idx)) := by
  funext i
  by_cases hi : i = idx
  · subst hi
    have hget : ws.spaces[i]? = some ws.spaces[i] := List.getElem?_eq_getElem h
    simp [space, get, modify, hget]
  · simp [space, get, modify, List.getElem?_modify_ne f ws.spaces (Ne.symm hi), hi]

theorem space_activeMut (idx : ℕ) (f : Space → Space) (h : idx < ws.count) :
    (ws.activeMut idx f).space = update ws.space idx (f (ws.space idx)) := by
  have hmin : min idx (ws.spaces.length - 1) = idx := by
    have : idx < ws.spaces.length := h
    omega
  rw [activeMut, hmin, space_modify ws idx f h]

theorem active_eq_space {idx : ℕ} (h : idx < ws.count) : ws.active idx = ws.space idx := by
  have hget : ws.get idx = some ws.spaces[idx] := List.getElem?_eq_getElem h
  rw [active, space, hget, Option.getD_some, Option.getD_some]

theorem get_eq_some {idx : ℕ} (h : idx < ws.count) : ws.get idx = some (ws.space idx) := by
  have hget : ws.get idx = some ws.spaces[idx] := List.getElem?_eq_getElem h
  rw [space, hget, Option.getD_some]

@[simp] theorem space_new (count : UInt8) (i : ℕ) : (new count).space i = ZStack.empty := by
  by_cases h : i < clampCount count <;> simp [space, get, new, h]

end Workspaces

end Frame

end Nullxes
