import Nullxes.NxLock.Auth
import Nullxes.NxLock.Sizes

/-!
# One lock surface for each output

Lock surfaces are made in two places: when the lock is confirmed, for every output that is known by
then, and when an output sends a mode after that, for the last output of the list, whichever output
it was that sent the mode. That is the right one because of what is true of the list at that time:
an output that is new is the last one, and if none is new then all have a lock surface already.

The argument is about the list and not about what is painted. `Roll` is what matters of the client,
and `LockState.roll_dispatch` says that two events do something to the roll.

## Main definitions

* `Roll` — the outputs with their lock surfaces, and the outputs that one was requested for
* `Roll.Orderly` — no output twice, no lock surface twice, no request twice

## Main results

* `LockState.roll_dispatch` — two events do something to the roll, and no other does
* `one_lock_surface_each` — each output has one entry and one lock surface at most, and exactly one
  once the lock is confirmed
-/

namespace Nullxes

namespace NxLock

open Wlcommon

/-! ## The roll -/

/-- What lock surfaces are made from: of an output its `wl_output` and its lock surface. -/
structure Roll where
  lock : Option Proxy
  locked : Bool
  entries : List (Proxy × Option Proxy)
  /-- The outputs that a lock surface was requested for. -/
  asked : List Proxy
  nextProxy : Proxy
  deriving DecidableEq, Repr

namespace Roll

variable (r : Roll)

/-- An entry that has no lock surface gets one. -/
def house (i : ℕ) : Roll :=
  match r.entries[i]? with
  | some (output, none) =>
    { r with
      entries := r.entries.set i (output, some (r.nextProxy + 1))
      asked := r.asked ++ [output]
      nextProxy := r.nextProxy + 2 }
  | some (_, some _) | none => r

/-- The lock is confirmed. -/
def confirm : Roll := (List.range r.entries.length).foldl house { r with locked := true }

/-- A known output stays where it is, and a new one is the last. -/
def enter (output : Proxy) : Roll :=
  if output ∈ r.entries.map Prod.fst then r
  else { r with entries := r.entries ++ [(output, none)] }

/-- An output sends a mode. -/
def announce (output : Proxy) : Roll :=
  if r.locked && r.lock.isSome then
    (r.enter output).house ((r.enter output).entries.length - 1)
  else r.enter output

/-- What an event does. -/
def react : ServerEvent → Roll
  | .locked => r.confirm
  | .mode output _ _ => r.announce output
  | _ => r

end Roll

/-- The output that a lock surface is requested for. -/
def Request.housed : Request → Option Proxy
  | .getLockSurface _ _ _ output => some output
  | _ => none

namespace LockState

variable (s : LockState)

/-- The roll of a client. -/
def roll : Roll where
  lock := s.lock
  locked := s.locked
  entries := s.outputs.map fun o => (o.output, o.lockSurface)
  asked := s.sent.filterMap Request.housed
  nextProxy := s.nextProxy

variable {s}

theorem roll_append {t : LockState} (new : List Request) (hlock : t.lock = s.lock)
    (hlocked : t.locked = s.locked)
    (hentries : (t.outputs.map fun o => (o.output, o.lockSurface)) =
      s.outputs.map fun o => (o.output, o.lockSurface))
    (hsent : t.sent = s.sent ++ new) (hnew : ∀ r ∈ new, Request.housed r = none)
    (hnext : t.nextProxy = s.nextProxy) : t.roll = s.roll := by
  have hasked : t.sent.filterMap Request.housed = s.sent.filterMap Request.housed := by
    rw [hsent, List.filterMap_append, List.filterMap_eq_nil_iff.mpr hnew, List.append_nil]
  rw [roll, roll, hlock, hlocked, hentries, hasked, hnext]

variable (s)

/-- Painting changes no entry. -/
@[simp] theorem roll_repaintOutput (i : ℕ) : (s.repaintOutput i).roll = s.roll := by
  rcases s.repaintOutput_cases i with
    h | ⟨out, shm, buffer, made, commit, hout, -, h, hcommit⟩
  · rw [h]
  rw [h]
  have hnew : ∀ r ∈ made.map Request.shm ++ commit, r.housed = none := by
    intro r hr
    rcases List.mem_append.mp hr with hr | hr
    · obtain ⟨q, -, rfl⟩ := List.mem_map.mp hr
      rfl
    · rcases hcommit with ⟨-, rfl⟩ | ⟨pool, pool', drawn, hd⟩
      · cases hr
      · rw [hd.commit] at hr
        obtain ⟨surface, -, rfl⟩ := List.mem_map.mp hr
        rfl
  exact roll_append _ rfl rfl (map_set_of_eq hout rfl) (List.append_assoc _ _ _) hnew rfl

theorem roll_foldl {α : Type} {f : LockState → α → LockState}
    (h : ∀ (s : LockState) a, (f s a).roll = s.roll) (l : List α) :
    (l.foldl f s).roll = s.roll := by
  induction l generalizing s with
  | nil => rfl
  | cons a l ih => rw [List.foldl_cons, ih, h]

@[simp] theorem roll_repaintAll : s.repaintAll.roll = s.roll := s.roll_foldl roll_repaintOutput _

theorem roll_createLockSurfaceFor (i : ℕ) (lock : Proxy) :
    (s.createLockSurfaceFor i lock).roll = s.roll.house i := by
  have hentry : s.roll.entries[i]? = s.outputs[i]?.map fun o => (o.output, o.lockSurface) :=
    List.getElem?_map
  have hasked : ∀ surface lockSurface output : Proxy, List.filterMap Request.housed
      [.createSurface surface, .getLockSurface lock lockSurface surface output] = [output] :=
    fun _ _ _ => rfl
  rw [createLockSurfaceFor, Roll.house, hentry]
  cases s.outputs[i]? with
  | none => rfl
  | some out =>
    obtain ⟨output, w, h, surface, lockSurface, buffer, configured⟩ := out
    cases lockSurface with
    | some ls => rfl
    | none => simp [roll, hasked, List.map_set]

theorem roll_dispatchLocked (lock : Proxy) : (s.dispatchLocked lock).roll = s.roll.confirm := by
  have hfold : ∀ (l : List ℕ) (s : LockState),
      (l.foldl (fun s i => s.createLockSurfaceFor i lock) s).roll = l.foldl Roll.house s.roll := by
    intro l
    induction l with
    | nil => exact fun s => rfl
    | cons i l ih =>
      intro s
      rw [List.foldl_cons, List.foldl_cons, ih, roll_createLockSurfaceFor]
  have hlength : s.roll.entries.length = s.outputs.length := List.length_map _
  rw [dispatchLocked, hfold, Roll.confirm, hlength]
  rfl

/-- An output is found or added. -/
theorem roll_dispatchMode (output : Proxy) (width height : Int32) :
    (s.dispatchMode output width height).roll = s.roll.announce output := by
  have hmem : output ∈ s.roll.entries.map Prod.fst ↔ ∃ o ∈ s.outputs, o.output = output := by
    simp [roll]
  obtain ⟨outputs, hout, hpick⟩ := s.dispatchMode_cases output width height
  have henter : ({ s with outputs := outputs } : LockState).roll = s.roll.enter output := by
    rcases hout with ⟨idx, hidx, rfl⟩ | ⟨hidx, rfl⟩
    · obtain ⟨hlt, houtput, -⟩ := List.findIdx?_eq_some_iff_getElem.mp hidx
      have hknown := hmem.mpr ⟨_, List.getElem_mem hlt, of_decide_eq_true houtput⟩
      rw [Roll.enter, if_pos hknown]
      refine roll_append [] rfl rfl ?_ (List.append_nil _).symm (fun r hr => by cases hr) rfl
      exact map_modify_of_eq (g := fun o : LockOutput => (o.output, o.lockSurface))
        (by exact fun _ => rfl) _ _
    · have hnew : output ∉ s.roll.entries.map Prod.fst := by
        intro hknown
        obtain ⟨o, ho, houtput⟩ := hmem.mp hknown
        exact of_decide_eq_false (List.findIdx?_eq_none_iff.mp hidx o ho) houtput
      rw [Roll.enter, if_neg hnew]
      simp [roll]
  have hlength : (s.roll.enter output).entries.length = outputs.length := by
    rw [← henter]
    exact List.length_map _
  rw [Roll.announce, hlength, ← henter]
  rcases hpick with ⟨hno, heq⟩ | ⟨lock, hyes, heq⟩
  · exact heq ▸ (if_neg (ne_true_of_eq_false hno)).symm
  · rw [heq, roll_createLockSurfaceFor]
    exact (if_pos hyes).symm

theorem roll_submitPassword : s.submitPassword.roll = s.roll := by
  rw [submitPassword]
  split
  · rfl
  · exact roll_repaintAll { s with pending := true }

theorem roll_dispatchKey (key : UInt32) (pressed : Bool) :
    (s.dispatchKey key pressed).roll = s.roll := by
  rw [dispatchKey]
  split
  · cases s.keymap.processKey key with
    | action a =>
      cases a with
      | enter => exact s.roll_submitPassword
      | backspace => exact roll_repaintAll _
      | escape => exact roll_repaintAll _
      | _ => rfl
    | text t =>
      simp only [handleText]
      split
      · exact roll_repaintAll { s with password := s.password ++ t }
      · rfl
    | none => rfl
  · rfl

theorem roll_request {r : Request} (hr : r.housed = none) : (s.request r).roll = s.roll :=
  roll_append [r] rfl rfl rfl rfl (by simpa using hr) rfl

theorem roll_dispatchConfigure (surf : Proxy) (serial width height : UInt32) :
    (s.dispatchConfigure surf serial width height).roll = s.roll := by
  simp only [dispatchConfigure]
  split
  · exact s.roll_request rfl
  · rw [roll_repaintOutput]
    refine roll_append [.ackConfigure surf serial] rfl rfl ?_ rfl (by simp [Request.housed]) rfl
    exact map_modify_of_eq (g := fun o : LockOutput => (o.output, o.lockSurface))
      (by exact fun _ => rfl) _ _

/-- **Two events do something to the roll.** -/
theorem roll_dispatch (ev : ServerEvent) : (s.dispatch ev).roll = s.roll.react ev := by
  cases ev with
  | locked => exact s.roll_dispatchLocked _
  | finished => rfl
  | configure surf serial width height => exact s.roll_dispatchConfigure surf serial width height
  | mode output width height => exact s.roll_dispatchMode output width height
  | capabilities keyboard =>
    simp only [dispatch, dispatchCapabilities, Roll.react]
    split
    · exact s.roll_request rfl
    · rfl
  | keymap xkbV1 loaded =>
    simp only [dispatch, Roll.react]
    split <;> rfl
  | modifiers mods => rfl
  | key key pressed => exact s.roll_dispatchKey key pressed
  | release wlBuf =>
    refine roll_append [] rfl rfl ?_ (List.append_nil _).symm ?_ rfl
    · simp [dispatch, dispatchRelease]
    · exact fun r hr => by cases hr
  | other => rfl

theorem roll_tryRecv : s.tryRecv.roll = s.roll := by
  rw [tryRecv]
  split
  · rfl
  next r rest _ =>
    cases r with
    | ok =>
      simp only [takeResult]
      split
      next lock _ =>
        exact roll_append [.unlockAndDestroy lock] rfl rfl rfl rfl (by simp [Request.housed]) rfl
      next => rfl
    | fail reason => exact roll_repaintAll _

end LockState

/-! ## The invariant -/

namespace Roll

variable {r : Roll}

/-- No output is there twice, no lock surface is there twice, and an output that one was requested
for has one. -/
structure Orderly (r : Roll) : Prop where
  lock : r.lock.isSome = true
  distinct : (r.entries.map Prod.fst).Nodup
  apart : (r.entries.filterMap Prod.snd).Nodup
  made : ∀ e ∈ r.entries, ∀ ls ∈ e.2, ls < r.nextProxy
  once : r.asked.Nodup
  asked : ∀ output ∈ r.asked, ∃ ls, (output, some ls) ∈ r.entries

/-- Every output has a lock surface. -/
def Full (r : Roll) : Prop := ∀ e ∈ r.entries, e.2.isSome = true

/-- **What `house` does.** Nothing, where no entry lacks a lock surface. -/
theorem house_cases (r : Roll) (i : ℕ) :
    (r.house i = r ∧ ∀ e, r.entries[i]? = some e → e.2.isSome = true) ∨
      ∃ output, r.entries[i]? = some (output, none) ∧ r.house i =
        { r with
          entries := r.entries.set i (output, some (r.nextProxy + 1))
          asked := r.asked ++ [output]
          nextProxy := r.nextProxy + 2 } := by
  rw [house]
  cases hentry : r.entries[i]? with
  | none => exact .inl ⟨rfl, fun e he => by cases he⟩
  | some e =>
    obtain ⟨output, lockSurface⟩ := e
    cases lockSurface with
    | none => exact .inr ⟨output, rfl, rfl⟩
    | some ls =>
      refine .inl ⟨rfl, fun e he => ?_⟩
      cases he
      rfl

theorem Orderly.house (h : r.Orderly) (i : ℕ) : (r.house i).Orderly := by
  rcases r.house_cases i with ⟨heq, -⟩ | ⟨output, hentry, heq⟩
  · rw [heq]
    exact h
  rw [heq]
  have hmem : (output, none) ∈ r.entries := List.mem_of_getElem? hentry
  obtain ⟨hlt, -⟩ := List.getElem?_eq_some_iff.mp hentry
  -- an entry that is there keeps its lock surface
  have hkept : ∀ output' ls, (output', some ls) ∈ r.entries →
      (output', some ls) ∈ r.entries.set i (output, some (r.nextProxy + 1)) := by
    intro output' ls hold
    obtain ⟨j, hj⟩ := List.mem_iff_getElem?.mp hold
    have hne : i ≠ j := by
      rintro rfl
      rw [hentry] at hj
      cases hj
    exact List.mem_of_getElem? ((List.getElem?_set_ne hne).trans hj)
  have hnew : output ∉ r.asked := by
    intro hasked
    obtain ⟨ls, hls⟩ := h.asked output hasked
    have heq := List.inj_on_of_nodup_map h.distinct hmem hls rfl
    cases heq
  refine ⟨h.lock, ?_, ?_, fun e he ls hls => ?_, ?_, fun output' hasked => ?_⟩
  · have hnames : (r.entries.set i (output, some (r.nextProxy + 1))).map Prod.fst =
        r.entries.map Prod.fst := map_set_of_eq hentry rfl
    show ((r.entries.set i (output, some (r.nextProxy + 1))).map Prod.fst).Nodup
    rw [hnames]
    exact h.distinct
  · refine nodup_filterMap_set h.apart hentry rfl rfl fun e he hls => ?_
    exact absurd (h.made e he _ hls) (Nat.not_lt_of_le (Nat.le_succ _))
  · rcases List.mem_or_eq_of_mem_set he with he | rfl
    · exact (h.made e he ls hls).trans (Nat.lt_add_of_pos_right Nat.two_pos)
    · cases hls
      exact Nat.lt_succ_self _
  · rw [List.nodup_append]
    refine ⟨h.once, List.nodup_singleton _, fun a ha b hb => ?_⟩
    rw [List.mem_singleton.mp hb]
    exact fun heq => hnew (heq ▸ ha)
  · rcases List.mem_append.mp hasked with hasked | hasked
    · obtain ⟨ls, hls⟩ := h.asked output' hasked
      exact ⟨ls, hkept output' ls hls⟩
    · rw [List.mem_singleton.mp hasked]
      exact ⟨_, List.mem_set hlt _⟩

theorem Orderly.confirm (h : r.Orderly) : r.confirm.Orderly := by
  have hfold : ∀ (l : List ℕ) (r : Roll), r.Orderly → (l.foldl Roll.house r).Orderly := by
    intro l
    induction l with
    | nil => exact fun r h => h
    | cons i l ih => exact fun r h => ih _ (h.house i)
  exact hfold _ _ ⟨h.lock, h.distinct, h.apart, h.made, h.once, h.asked⟩

theorem Orderly.enter (h : r.Orderly) (output : Proxy) : (r.enter output).Orderly := by
  rw [Roll.enter]
  split
  · exact h
  next hnew =>
  refine ⟨h.lock, ?_, ?_, fun e he ls hls => ?_, h.once, fun output' hasked => ?_⟩
  · rw [List.map_append, List.nodup_append]
    refine ⟨h.distinct, List.nodup_singleton _, fun a ha b hb => ?_⟩
    rw [List.mem_singleton.mp hb]
    exact fun heq : a = output => hnew (heq ▸ ha)
  · rw [List.filterMap_append, List.filterMap_cons_none rfl, List.filterMap_nil, List.append_nil]
    exact h.apart
  · rcases List.mem_append.mp he with he | he
    · exact h.made e he ls hls
    · rw [List.mem_singleton.mp he] at hls
      cases hls
  · obtain ⟨ls, hls⟩ := h.asked output' hasked
    exact ⟨ls, List.mem_append_left _ hls⟩

theorem Orderly.announce (h : r.Orderly) (output : Proxy) : (r.announce output).Orderly := by
  rw [Roll.announce]
  split
  · exact (h.enter output).house _
  · exact h.enter output

theorem Orderly.react (h : r.Orderly) (ev : ServerEvent) : (r.react ev).Orderly := by
  cases ev with
  | locked => exact h.confirm
  | mode output width height => exact h.announce output
  | _ => exact h

/-! ### After `Locked` -/

/-- An entry with a lock surface stays as it is. -/
theorem house_of_isSome {i j : ℕ} {e : Proxy × Option Proxy} (he : r.entries[j]? = some e)
    (hsome : e.2.isSome = true) : (r.house i).entries[j]? = some e := by
  rcases r.house_cases i with ⟨heq, -⟩ | ⟨output, hentry, heq⟩
  · rw [heq, he]
  · have hne : i ≠ j := by
      rintro rfl
      rw [hentry] at he
      cases he
      cases hsome
    rw [heq]
    exact (List.getElem?_set_ne hne).trans he

theorem length_house (r : Roll) (i : ℕ) : (r.house i).entries.length = r.entries.length := by
  rcases r.house_cases i with ⟨heq, -⟩ | ⟨output, -, heq⟩
  · rw [heq]
  · rw [heq]
    exact List.length_set

/-- An entry that is housed has a lock surface. -/
theorem isSome_house {i : ℕ} {e : Proxy × Option Proxy}
    (he : (r.house i).entries[i]? = some e) : e.2.isSome = true := by
  rcases r.house_cases i with ⟨heq, hall⟩ | ⟨output, hentry, heq⟩
  · rw [heq] at he
    exact hall e he
  · rw [heq] at he
    have hset := (EventMachine.getElem?_set_eq_some hentry).mp he
    rcases hset with ⟨-, rfl⟩ | ⟨hne, -⟩
    · rfl
    · exact absurd rfl hne

/-- An entry that had a lock surface has one still. -/
theorem isSome_of_house {i j : ℕ} {e : Proxy × Option Proxy}
    (hold : ∀ e, r.entries[j]? = some e → e.2.isSome = true)
    (he : (r.house i).entries[j]? = some e) : e.2.isSome = true := by
  have hlt : j < r.entries.length := by
    rw [← r.length_house i]
    exact (List.getElem?_eq_some_iff.mp he).1
  have hj : r.entries[j]? = some r.entries[j] := List.getElem?_eq_getElem hlt
  have hsome := hold _ hj
  rw [Option.some.inj (he.symm.trans (house_of_isSome hj hsome))]
  exact hsome

/-- A lock surface for the last entry, where no other lacks one. -/
theorem full_house_last (h : ∀ (j : ℕ) (e : Proxy × Option Proxy), r.entries[j]? = some e →
    j ≠ r.entries.length - 1 → e.2.isSome = true) : (r.house (r.entries.length - 1)).Full := by
  intro e he
  obtain ⟨j, hj⟩ := List.mem_iff_getElem?.mp he
  by_cases hlast : j = r.entries.length - 1
  · subst hlast
    exact isSome_house hj
  · exact isSome_of_house (fun e he => h j e he hlast) hj

theorem full_confirm (r : Roll) : r.confirm.Full := by
  have hfold : ∀ (k : ℕ) (r : Roll), ((List.range k).foldl house r).entries.length =
      r.entries.length ∧ ∀ (j : ℕ) (e : Proxy × Option Proxy), j < k →
        ((List.range k).foldl house r).entries[j]? = some e → e.2.isSome = true := by
    intro k r
    induction k with
    | zero => exact ⟨rfl, fun j e hj => absurd hj (Nat.not_lt_zero j)⟩
    | succ k ih =>
      obtain ⟨hlength, hsome⟩ := ih
      rw [List.range_succ, List.foldl_append]
      refine ⟨(length_house _ k).trans hlength, fun j e hj he => ?_⟩
      rcases Nat.lt_succ_iff_lt_or_eq.mp hj with hlt | rfl
      · exact isSome_of_house (fun e he => hsome j e hlt he) he
      · exact isSome_house he
  intro e he
  obtain ⟨j, hj⟩ := List.mem_iff_getElem?.mp he
  obtain ⟨hlength, hsome⟩ := hfold r.entries.length { r with locked := true }
  refine hsome j e ?_ hj
  exact (List.getElem?_eq_some_iff.mp hj).1.trans_eq hlength

/-- The last entry is the new one if there is a new one, and the others have lock surfaces. -/
theorem Full.announce (h : r.Full) (hlock : r.lock.isSome = true) (hlocked : r.locked = true)
    (output : Proxy) : (r.announce output).Full := by
  rw [Roll.announce, hlocked, hlock]
  refine full_house_last fun j e he hne => ?_
  rw [enter] at he hne
  split at he
  · exact h e (List.mem_of_getElem? he)
  next hnew =>
    rw [if_neg hnew, List.length_append, List.length_singleton] at hne
    rcases EventMachine.getElem?_concat_eq_some.mp he with he | ⟨heq, -⟩
    · exact h e (List.mem_of_getElem? he)
    · exact absurd heq (by simpa using hne)

theorem locked_house (r : Roll) (i : ℕ) : (r.house i).locked = r.locked := by
  rcases r.house_cases i with ⟨heq, -⟩ | ⟨output, -, heq⟩ <;> rw [heq]

theorem locked_confirm (r : Roll) : r.confirm.locked = true := by
  have hfold : ∀ (l : List ℕ) (r : Roll), (l.foldl house r).locked = r.locked := by
    intro l
    induction l with
    | nil => exact fun r => rfl
    | cons i l ih => exact fun r => (ih _).trans (r.locked_house i)
  exact hfold _ _

theorem locked_announce (r : Roll) (output : Proxy) : (r.announce output).locked = r.locked := by
  have henter : (r.enter output).locked = r.locked := by
    rw [enter]
    split <;> rfl
  rw [announce]
  split
  · rw [locked_house, henter]
  · exact henter

/-- Once the lock is confirmed it stays so, and every output has a lock surface. -/
def Confirmed (r : Roll) : Prop := r.locked = true ∧ r.Full

theorem Confirmed.react (h : r.Confirmed) (hlock : r.lock.isSome = true) (ev : ServerEvent) :
    (r.react ev).Confirmed := by
  cases ev with
  | locked => exact ⟨r.locked_confirm, r.full_confirm⟩
  | mode output width height =>
    exact ⟨(r.locked_announce output).trans h.1, h.2.announce hlock h.1 output⟩
  | _ => exact h

end Roll

/-! ## The client -/

namespace LockState

variable (s : LockState)

/-- A configure updates the output that has the lock surface, and no other. -/
def UpdatesOwner (surf : Proxy) (serial width height : UInt32) : Prop :=
  (∀ (i : ℕ) (o : LockOutput), s.outputs[i]? = some o → o.lockSurface = some surf →
    ∃ buffer, (s.dispatch (.configure surf serial width height)).outputs = s.outputs.set i
      { o with width := max width 1, height := max height 1, configured := true, buffer := buffer }) ∧
  ((∀ o ∈ s.outputs, o.lockSurface ≠ some surf) →
    (s.dispatch (.configure surf serial width height)).outputs = s.outputs)

/-- No two entries are of one output, no lock surface was requested twice for one, and configures go
where they belong. -/
structure OneEach : Prop where
  distinct : (s.outputs.map LockOutput.output).Nodup
  once : (s.sent.filterMap Request.housed).Nodup
  configure : ∀ surf serial width height, s.UpdatesOwner surf serial width height

variable {s}

theorem updatesOwner (h : (s.outputs.filterMap LockOutput.lockSurface).Nodup)
    (surf : Proxy) (serial width height : UInt32) : s.UpdatesOwner surf serial width height := by
  simp only [UpdatesOwner, dispatch, dispatchConfigure]
  cases hidx : s.outputs.findIdx? fun o => o.lockSurface = some surf with
  | none =>
    have hnone : ∀ o ∈ s.outputs, o.lockSurface ≠ some surf := by
      simpa using List.findIdx?_eq_none_iff.mp hidx
    refine ⟨fun i o hi ho => absurd ho (hnone o (List.mem_of_getElem? hi)), fun _ => ?_⟩
    simp only [request, hidx]
  | some idx =>
    obtain ⟨hlt, howns, -⟩ := List.findIdx?_eq_some_iff_getElem.mp hidx
    have howner : s.outputs[idx].lockSurface = some surf := of_decide_eq_true howns
    refine ⟨fun i o hi ho => ?_, fun hnone => absurd howner (hnone _ (List.getElem_mem hlt))⟩
    obtain rfl : idx = i :=
      index_eq_of_nodup_filterMap h (List.getElem?_eq_getElem hlt) hi howner ho
    simp only [request, hidx, modify_eq_set_of_getElem? hi]
    set t : LockState :=
      { s with
        sent := s.sent ++ [.ackConfigure surf serial]
        outputs := s.outputs.set idx
          { o with width := max width 1, height := max height 1, configured := true } } with ht
    have hset : t.outputs[idx]? =
        some { o with width := max width 1, height := max height 1, configured := true } :=
      List.getElem?_set_self hlt
    rcases t.repaintOutput_cases idx with
      heq | ⟨out, shm, buffer, made, commit, hout, -, heq, -⟩
    · exact ⟨o.buffer, by rw [heq]⟩
    · obtain rfl := Option.some.inj (hout.symm.trans hset)
      refine ⟨buffer, ?_⟩
      rw [heq]
      exact List.set_set _

theorem oneEach (h : s.roll.Orderly) : s.OneEach := by
  have hdistinct := h.distinct
  have hapart := h.apart
  rw [roll, List.map_map] at hdistinct
  rw [roll, List.filterMap_map] at hapart
  exact ⟨hdistinct, h.once, updatesOwner hapart⟩

end LockState

/-- What a step does to the roll. -/
def Roll.exchange (r : Roll) : Exchange ServerEvent → Roll
  | .dispatch ev => r.react ev
  | .takeRequest | .answer _ | .tryRecv => r

theorem Session.roll_exchange (s : Session LockState) (e : Exchange ServerEvent) :
    (s.exchange e).state.roll = s.state.roll.exchange e := by
  cases e with
  | dispatch ev => exact s.state.roll_dispatch ev
  | takeRequest =>
    show (Process.takeRequest s.state).roll = s.state.roll
    rw [Process.takeRequest]
    split <;> rfl
  | answer result => rfl
  | tryRecv => exact s.state.roll_tryRecv

theorem Roll.Orderly.exchange {r : Roll} (h : r.Orderly) (e : Exchange ServerEvent) :
    (r.exchange e).Orderly := by
  cases e with
  | dispatch ev => exact h.react ev
  | takeRequest | answer result | tryRecv => exact h

theorem Roll.Confirmed.exchange {r : Roll} (h : r.Confirmed) (hlock : r.lock.isSome = true)
    (e : Exchange ServerEvent) : (r.exchange e).Confirmed := by
  cases e with
  | dispatch ev => exact h.react hlock ev
  | takeRequest | answer result | tryRecv => exact h

section Runs

variable {username : String} {failure : ℕ → Option String} {s : Session LockState}

theorem orderly_run (h : s.state.roll.Orderly) (es : List (Exchange ServerEvent)) :
    ((lockClient username failure).run s es).state.roll.Orderly := by
  induction es generalizing s with
  | nil => exact h
  | cons e es ih =>
    refine ih (s := s.exchange e) ?_
    rw [s.roll_exchange]
    exact h.exchange e

theorem confirmed_run (h : s.state.roll.Orderly) {es : List (Exchange ServerEvent)}
    (hc : s.state.roll.Confirmed ∨ .dispatch .locked ∈ es) :
    ((lockClient username failure).run s es).state.roll.Confirmed := by
  induction es generalizing s with
  | nil =>
    rcases hc with hc | hmem
    · exact hc
    · cases hmem
  | cons e es ih =>
    have hstep : (s.exchange e).state.roll.Orderly := by
      rw [s.roll_exchange]
      exact h.exchange e
    refine ih hstep ?_
    show (s.exchange e).state.roll.Confirmed ∨ _
    rw [s.roll_exchange]
    rcases hc with hc | hmem
    · exact .inl (hc.exchange h.lock e)
    · rcases List.mem_cons.mp hmem with rfl | hmem
      · exact .inl ⟨Roll.locked_confirm _, Roll.full_confirm _⟩
      · exact .inr hmem

end Runs

theorem orderly_engaged (username : String) (failure : ℕ → Option String) :
    (engaged username failure).state.roll.Orderly := by
  refine ⟨rfl, List.nodup_nil, List.nodup_nil, fun e he => ?_, List.nodup_nil, fun o ho => ?_⟩
  · cases he
  · cases ho

/-- **One lock surface for each output.** Whatever the compositor says in whatever order, whatever
is typed and whatever PAM answers: the entries are of different outputs, for each of them a lock
surface was requested once at most, a configure updates the entry that has the lock surface and no
other, and after `Locked` every entry has one. -/
theorem one_lock_surface_each (username : String) (failure : ℕ → Option String)
    (es : List (Exchange ServerEvent)) :
    ((lockClient username failure).run (engaged username failure) es).state.OneEach ∧
      (.dispatch .locked ∈ es →
        ∀ o ∈ ((lockClient username failure).run (engaged username failure) es).state.outputs,
          o.lockSurface.isSome = true) := by
  have hengaged := orderly_engaged username failure
  refine ⟨LockState.oneEach (orderly_run hengaged es), fun hmem o ho => ?_⟩
  have hconfirmed : ((lockClient username failure).run (engaged username failure)
      es).state.roll.Confirmed := confirmed_run hengaged (.inr hmem)
  exact hconfirmed.2 (o.output, o.lockSurface) (List.mem_map.mpr ⟨o, ho, rfl⟩)

/-- One output before the lock is confirmed, another one after it, and the first one once more. -/
def hotplug : List (Exchange ServerEvent) :=
  [.dispatch (.mode 70 800 600), .dispatch .locked, .dispatch (.mode 71 640 480),
    .dispatch (.mode 70 1024 768)]

theorem one_lock_surface_each_hotplug :
    ∀ o ∈ ((lockClient "" fun _ => none).run (engaged "" fun _ => none) hotplug).state.outputs,
      o.lockSurface.isSome = true :=
  (one_lock_surface_each "" (fun _ => none) hotplug).2 (by simp [hotplug])

end NxLock

end Nullxes
