import Mathlib.Data.List.Basic
import Nullxes.Library.EventMachine

/-!
# One launcher at a time

The launcher takes a lock on `$XDG_RUNTIME_DIR/nullxes/launcher.lock` for as long as it runs, and
exits at once if it does not get it (`acquire_lock`). The lock is on the inode that was opened;
`LockGuard::drop` removes the path, and the descriptor is closed only after that. From the removal
on, the path and the locked inode are two things, and a process that opens the path meanwhile locks
another inode; and one that has opened it before locks an inode that no path leads to any more.

`Phase` is how far a process has come with `main`, `LockFile.advance` its next step.

## Main definitions

* `Launcher.LockFile.Single` — at most one process is between a successful `acquire_lock` and its
  exit
* `Launcher.LockFile.Clear` — no process opens the file while another leaves, and none begins to
  leave while another has the file open without a lock

## Main results

* `Launcher.single_of_clear` — clear steps keep the launcher single, and after a step that is not
  clear there are steps that run two
* `Launcher.not_single` — two launchers that run at once
-/

namespace Nullxes

namespace Launcher

/-- How far a process has come. -/
inductive Phase
  /-- Before the `open` of `acquire_lock`. -/
  | starting
  /-- The file is open, and this is its inode. -/
  | opened (inode : ℕ)
  /-- `acquire_lock` has returned `Ok`: `state::run`. -/
  | running (inode : ℕ)
  /-- `LockGuard::drop` is over. -/
  | unlinked (inode : ℕ)
  /-- The descriptor is closed. -/
  | closed
  /-- `LockAcquireError::Io`: `state::run` under `LockGuard::lockless`. -/
  | lockless
  | exited
  deriving DecidableEq, Repr

namespace Phase

/-- The inode of the descriptor. -/
def inode : Phase → Option ℕ
  | opened i | running i | unlinked i => some i
  | starting | closed | lockless | exited => none

/-- The inode that is locked through the descriptor. -/
def lock : Phase → Option ℕ
  | running i | unlinked i => some i
  | starting | opened _ | closed | lockless | exited => none

/-- In `state::run`, with the lock. -/
def Running : Phase → Prop
  | running _ => True
  | starting | opened _ | unlinked _ | closed | lockless | exited => False

/-- Between the `remove_file` of `LockGuard::drop` and the exit. -/
def Leaving : Phase → Prop
  | unlinked _ | closed => True
  | starting | opened _ | running _ | lockless | exited => False

/-- Between a successful `acquire_lock` and the exit. -/
def Active (ph : Phase) : Prop := ph.Running ∨ ph.Leaving

/-- Between the `open` and the `flock` of `acquire_lock`. -/
def Undecided : Phase → Prop
  | opened _ => True
  | starting | running _ | unlinked _ | closed | lockless | exited => False

/-- The system call that comes next can fail. -/
def CanFail : Phase → Prop
  | starting | opened _ | running _ => True
  | unlinked _ | closed | lockless | exited => False

instance : DecidablePred Running
  | running _ => inferInstanceAs (Decidable True)
  | starting | opened _ | unlinked _ | closed | lockless | exited =>
    inferInstanceAs (Decidable False)

instance : DecidablePred Leaving
  | unlinked _ | closed => inferInstanceAs (Decidable True)
  | starting | opened _ | running _ | lockless | exited => inferInstanceAs (Decidable False)

instance : DecidablePred Active := fun ph => inferInstanceAs (Decidable (ph.Running ∨ ph.Leaving))

instance : DecidablePred Undecided
  | opened _ => inferInstanceAs (Decidable True)
  | starting | running _ | unlinked _ | closed | lockless | exited =>
    inferInstanceAs (Decidable False)

instance : DecidablePred CanFail
  | starting | opened _ | running _ => inferInstanceAs (Decidable True)
  | unlinked _ | closed | lockless | exited => inferInstanceAs (Decidable False)

end Phase

/-- `launcher.lock`, and the processes that use it. -/
structure LockFile where
  processes : List Phase
  /-- The inode that the path leads to. -/
  path : Option ℕ
  /-- How many inodes there have been; they are numbered in order. -/
  inodes : ℕ
  deriving DecidableEq, Repr

inductive LockEvent
  | start
  /-- A process takes its next step. -/
  | advance (p : ℕ)
  /-- The next system call of a process fails. -/
  | fail (p : ℕ)
  | kill (p : ℕ)
  deriving DecidableEq, Repr

namespace LockFile

variable (s : LockFile)

def setPhase (p : ℕ) (ph : Phase) : LockFile := { s with processes := s.processes.set p ph }

/-- Some open descriptor has a lock on the inode. -/
def Locked (i : ℕ) : Prop := ∃ ph ∈ s.processes, ph.lock = some i

instance (i : ℕ) : Decidable (s.Locked i) :=
  inferInstanceAs (Decidable (∃ ph ∈ s.processes, ph.lock = some i))

/-- The next step of a process. -/
def advance (p : ℕ) : LockFile :=
  match s.processes[p]? with
  | none => s
  | some ph =>
    match ph with
    | .starting =>
      -- `O_CREAT`
      match s.path with
      | some i => s.setPhase p (.opened i)
      | none =>
        { s with path := some s.inodes, inodes := s.inodes + 1 }.setPhase p (.opened s.inodes)
    | .opened i =>
      -- `LOCK_EX | LOCK_NB`, and `LockAcquireError::AlreadyHeld`
      if s.Locked i then s.setPhase p .exited else s.setPhase p (.running i)
    | .running i => { s with path := none }.setPhase p (.unlinked i)
    | .unlinked _ => s.setPhase p .closed
    | .closed | .lockless | .exited => s.setPhase p .exited

def step : LockEvent → LockFile
  | .start => { s with processes := s.processes ++ [.starting] }
  | .advance p => s.advance p
  | .fail p =>
    match s.processes[p]? with
    | some .starting => s.setPhase p .lockless
    | some (.opened _) => s.setPhase p .exited
    -- `let _ = std::fs::remove_file(p)`
    | some (.running i) => s.setPhase p (.unlinked i)
    | some _ | none => s
  | .kill p => s.setPhase p .exited

def Enabled : LockEvent → Prop
  | .start => True
  | .advance p | .kill p => ∃ ph ∈ s.processes[p]?, ph ≠ .exited
  | .fail p => ∃ ph ∈ s.processes[p]?, ph.CanFail

instance : (e : LockEvent) → Decidable (s.Enabled e)
  | .start => inferInstanceAs (Decidable True)
  | .advance p | .kill p => inferInstanceAs (Decidable (∃ ph ∈ s.processes[p]?, ph ≠ .exited))
  | .fail p => inferInstanceAs (Decidable (∃ ph ∈ s.processes[p]?, ph.CanFail))

end LockFile

/-- The launchers of a user. The file may be left over from one that was killed. -/
def lockFile : EventMachine LockFile LockEvent where
  Init s := s.processes = [] ∧ ∀ i ∈ s.path, i < s.inodes
  Enabled s e := s.Enabled e
  step s e := s.step e

instance (s : LockFile) (e : LockEvent) : Decidable (lockFile.Enabled s e) :=
  inferInstanceAs (Decidable (s.Enabled e))

namespace LockFile

variable (s : LockFile)

/-- At most one process is between a successful `acquire_lock` and its exit. -/
def Single : Prop :=
  ∀ (p q : ℕ) (ph ph' : Phase), s.processes[p]? = some ph → s.processes[q]? = some ph' →
    ph.Active → ph'.Active → p = q

/-- No process but `p` is in such a phase. -/
def NoOther (p : ℕ) (P : Phase → Prop) : Prop :=
  ∀ q ∈ List.range s.processes.length, ∀ ph ∈ s.processes[q]?, P ph → q = p

instance (p : ℕ) (P : Phase → Prop) [DecidablePred P] : Decidable (s.NoOther p P) :=
  inferInstanceAs (Decidable (∀ q ∈ List.range s.processes.length, ∀ ph ∈ s.processes[q]?,
    P ph → q = p))

/-- The file is not opened while another process leaves, and no process begins to leave while
another has opened it and not tried to lock it. -/
def Clear : LockEvent → Prop
  | .advance p =>
    (s.processes[p]? = some .starting → s.NoOther p Phase.Leaving) ∧
      ((∃ ph ∈ s.processes[p]?, ph.Running) → s.NoOther p Phase.Undecided)
  | .fail p => (∃ ph ∈ s.processes[p]?, ph.Running) → s.NoOther p Phase.Undecided
  | .start | .kill _ => True

instance : (e : LockEvent) → Decidable (s.Clear e)
  | .advance p => inferInstanceAs (Decidable
      ((s.processes[p]? = some .starting → s.NoOther p Phase.Leaving) ∧
        ((∃ ph ∈ s.processes[p]?, ph.Running) → s.NoOther p Phase.Undecided)))
  | .fail p => inferInstanceAs (Decidable
      ((∃ ph ∈ s.processes[p]?, ph.Running) → s.NoOther p Phase.Undecided))
  | .start | .kill _ => inferInstanceAs (Decidable True)

end LockFile

/-! ## Clear steps -/

namespace Phase

/-- What a process that has opened the file or runs takes for the path, is the path. -/
def Names (path : Option ℕ) : Phase → Prop
  | .opened i | .running i => path = some i
  | .starting | .unlinked _ | .closed | .lockless | .exited => True

/-- Two processes may be so far at once. -/
def Beside (ph ph' : Phase) : Prop :=
  ¬ (ph.Active ∧ ph'.Active) ∧ ¬ (ph.Leaving ∧ ph'.Undecided)

theorem Leaving.cases {ph : Phase} (h : ph.Leaving) : (∃ i, ph = .unlinked i) ∨ ph = .closed := by
  cases ph with
  | unlinked i => exact .inl ⟨i, rfl⟩
  | closed => exact .inr rfl
  | starting | opened i | running i | lockless | exited => exact h.elim

theorem active_of_lock {ph : Phase} {i : ℕ} (h : ph.lock = some i) : ph.Active := by
  cases ph with
  | running j => exact .inl trivial
  | unlinked j => exact .inr trivial
  | starting | opened j | closed | lockless | exited => cases h

end Phase

namespace LockFile

variable {s t : LockFile} {p q i : ℕ} {ph ph' : Phase}

theorem noOther_iff {P : Phase → Prop} :
    s.NoOther p P ↔ ∀ (q : ℕ) (ph : Phase), s.processes[q]? = some ph → P ph → q = p := by
  constructor
  · intro h q ph hq
    exact h q (List.mem_range.mpr (List.getElem?_eq_some_iff.mp hq).1) ph hq
  · intro h q _ ph hq
    exact h q ph hq

theorem locked_of_getElem? (hp : s.processes[p]? = some ph) (hi : ph.lock = some i) :
    s.Locked i :=
  ⟨ph, List.mem_of_getElem? hp, hi⟩

variable (s) in
/-- No two processes are in each other's way. -/
structure Orderly : Prop where
  names : ∀ (p : ℕ) (ph : Phase), s.processes[p]? = some ph → ph.Names s.path
  beside : ∀ (p q : ℕ) (ph ph' : Phase), s.processes[p]? = some ph → s.processes[q]? = some ph' →
    p ≠ q → ph.Beside ph'
  fresh : ∀ (p : ℕ) (ph : Phase), s.processes[p]? = some ph → ∀ i ∈ ph.inode, i < s.inodes
  path_lt : ∀ i ∈ s.path, i < s.inodes

theorem Orderly.single (h : s.Orderly) : s.Single := by
  intro p q ph ph' hp hq hph hph'
  by_contra hne
  exact (h.beside p q ph ph' hp hq hne).1 ⟨hph, hph'⟩

/-- One process goes from one phase to another. -/
theorem Orderly.set (h : s.Orderly) (hp : s.processes[p]? = some ph)
    (ht : t.processes = s.processes.set p ph')
    (hother : ∀ (q : ℕ) (ph₂ : Phase), q ≠ p → s.processes[q]? = some ph₂ →
      ph₂.Names t.path ∧ ph'.Beside ph₂ ∧ ph₂.Beside ph')
    (hnames : ph'.Names t.path) (hfresh : ∀ i ∈ ph'.inode, i < t.inodes)
    (hpath : ∀ i ∈ t.path, i < t.inodes) (hle : s.inodes ≤ t.inodes) : t.Orderly := by
  have hcases : ∀ (q : ℕ) (ph₂ : Phase), t.processes[q]? = some ph₂ →
      q = p ∧ ph₂ = ph' ∨ q ≠ p ∧ s.processes[q]? = some ph₂ := by
    intro q ph₂ hq
    rw [ht] at hq
    exact (EventMachine.getElem?_set_eq_some hp).mp hq
  refine ⟨fun q ph₂ hq => ?_, fun q r ph₂ ph₃ hq hr hqr => ?_, fun q ph₂ hq i hi => ?_, hpath⟩
  · rcases hcases q ph₂ hq with ⟨rfl, rfl⟩ | ⟨hne, hq⟩
    · exact hnames
    · exact (hother q ph₂ hne hq).1
  · rcases hcases q ph₂ hq with ⟨rfl, rfl⟩ | ⟨hne, hq⟩ <;>
      rcases hcases r ph₃ hr with ⟨rfl, rfl⟩ | ⟨hne', hr⟩
    · exact absurd rfl hqr
    · exact (hother r ph₃ hne' hr).2.1
    · exact (hother q ph₂ hne hq).2.2
    · exact h.beside q r ph₂ ph₃ hq hr hqr
  · rcases hcases q ph₂ hq with ⟨rfl, rfl⟩ | ⟨hne, hq⟩
    · exact hfresh i hi
    · exact (h.fresh q ph₂ hq i hi).trans_le hle

/-- A process that afterwards is in nobody's way where it was not before. -/
theorem Orderly.setPhase (h : s.Orderly) (hp : s.processes[p]? = some ph)
    (hactive : ph'.Active → ph.Active) (hleaving : ph'.Leaving → ph.Leaving)
    (hundecided : ph'.Undecided → ph.Undecided) (hnames : ph'.Names s.path)
    (hfresh : ∀ i ∈ ph'.inode, i < s.inodes) : (s.setPhase p ph').Orderly := by
  refine h.set hp rfl (fun q ph₂ hne hq => ?_) hnames hfresh h.path_lt le_rfl
  obtain ⟨hactive₁, hapart₁⟩ := h.beside p q ph ph₂ hp hq hne.symm
  obtain ⟨hactive₂, hapart₂⟩ := h.beside q p ph₂ ph hq hp hne
  refine ⟨h.names q ph₂ hq, ⟨fun hboth => hactive₁ ⟨hactive hboth.1, hboth.2⟩, fun hboth => ?_⟩,
    fun hboth => hactive₂ ⟨hboth.1, hactive hboth.2⟩, fun hboth => ?_⟩
  · exact hapart₁ ⟨hleaving hboth.1, hboth.2⟩
  · exact hapart₂ ⟨hboth.1, hundecided hboth.2⟩

/-- A process that leaves a state of the file as it is, and stops. -/
theorem Orderly.exited (h : s.Orderly) (hp : s.processes[p]? = some ph) :
    (s.setPhase p .exited).Orderly := by
  have hnot : ¬ Phase.Active .exited := by decide
  exact h.setPhase hp (fun hactive => absurd hactive hnot) False.elim False.elim trivial
    fun i hi => by cases hi

/-- `open`. -/
theorem Orderly.open (h : s.Orderly) (hp : s.processes[p]? = some .starting)
    (hc : s.NoOther p Phase.Leaving) : (s.advance p).Orderly := by
  have hnot : ∀ i, ¬ (Phase.opened i).Active := fun i hi => hi.elim id id
  have hbeside : ∀ (i q : ℕ) (ph : Phase), q ≠ p → s.processes[q]? = some ph →
      (Phase.opened i).Beside ph ∧ ph.Beside (.opened i) := by
    intro i q ph hne hq
    refine ⟨⟨fun hboth => hnot i hboth.1, fun hboth => hboth.1⟩, fun hboth => hnot i hboth.2,
      fun hboth => ?_⟩
    exact hne (noOther_iff.mp hc q ph hq hboth.1)
  simp only [advance, hp]
  cases hpath : s.path with
  | some i =>
    refine h.set hp rfl (fun q ph hne hq => ⟨h.names q ph hq, hbeside i q ph hne hq⟩) hpath ?_
      h.path_lt le_rfl
    intro j hj
    cases hj
    exact h.path_lt i hpath
  | none =>
    refine h.set hp rfl (fun q ph hne hq => ⟨?_, hbeside s.inodes q ph hne hq⟩) rfl ?_ ?_
      (Nat.le_succ _)
    · -- nobody has a name for a path that was not there
      have hnames := h.names q ph hq
      rw [hpath] at hnames
      cases ph with
      | opened i => cases hnames
      | running i => cases hnames
      | starting | unlinked i | closed | lockless | exited => trivial
    · intro j hj
      cases hj
      exact Nat.lt_succ_self _
    · intro j hj
      cases hj
      exact Nat.lt_succ_self _

/-- `flock`. -/
theorem Orderly.flock (h : s.Orderly) (hp : s.processes[p]? = some (.opened i)) :
    (s.advance p).Orderly := by
  simp only [advance, hp]
  by_cases hlocked : s.Locked i
  · rw [if_pos hlocked]
    exact h.exited hp
  rw [if_neg hlocked]
  have hpath : s.path = some i := h.names p _ hp
  refine h.set hp rfl (fun q ph hne hq => ?_) hpath (fun j hj => h.fresh p _ hp j hj) h.path_lt
    le_rfl
  have hleaving : ¬ ph.Leaving :=
    fun hleaving => (h.beside q p ph _ hq hp hne).2 ⟨hleaving, trivial⟩
  have hrunning : ¬ ph.Running := by
    intro hrunning
    cases ph with
    | running j =>
      -- it runs with the inode of the path, which is this one
      have hj : some j = some i := (h.names q _ hq).symm.trans hpath
      exact hlocked (locked_of_getElem? hq hj)
    | starting | opened j | unlinked j | closed | lockless | exited => exact hrunning
  have hactive : ¬ ph.Active := not_or.mpr ⟨hrunning, hleaving⟩
  exact ⟨h.names q ph hq, ⟨fun hboth => hactive hboth.2, fun hboth => hboth.1⟩,
    fun hboth => hactive hboth.1, fun hboth => hleaving hboth.1⟩

/-- `LockGuard::drop`, whether or not the path can be removed. -/
theorem Orderly.unlink {path : Option ℕ} (h : s.Orderly) (hp : s.processes[p]? = some (.running i))
    (hc : s.NoOther p Phase.Undecided) (hpath : path = none ∨ path = s.path) :
    ({ s with path := path }.setPhase p (.unlinked i)).Orderly := by
  refine h.set hp rfl (fun q ph hne hq => ?_) trivial (fun j hj => h.fresh p _ hp j hj) ?_ le_rfl
  · obtain ⟨hactive, -⟩ := h.beside p q _ ph hp hq hne.symm
    have hnot : ¬ ph.Active := fun hph => hactive ⟨.inl trivial, hph⟩
    have hundecided : ¬ ph.Undecided := fun hph => hne (noOther_iff.mp hc q ph hq hph)
    refine ⟨?_, ⟨fun hboth => hnot hboth.2, fun hboth => hundecided hboth.2⟩,
      fun hboth => hnot hboth.1, fun hboth => hboth.2⟩
    cases ph with
    | opened j => exact absurd trivial hundecided
    | running j => exact absurd (.inl trivial) hnot
    | starting | unlinked j | closed | lockless | exited => trivial
  · rcases hpath with rfl | rfl
    · intro j hj
      cases hj
    · exact h.path_lt

theorem Orderly.advance (h : s.Orderly) (hc : s.Clear (.advance p)) : (s.advance p).Orderly := by
  obtain ⟨hopen, hunlink⟩ := hc
  cases hp : s.processes[p]? with
  | none =>
    simp only [LockFile.advance, hp]
    exact h
  | some ph =>
    cases ph with
    | starting => exact h.open hp (hopen hp)
    | opened i => exact h.flock hp
    | running i =>
      simp only [LockFile.advance, hp]
      exact h.unlink hp (hunlink ⟨_, hp, trivial⟩) (.inl rfl)
    | unlinked i =>
      simp only [LockFile.advance, hp]
      exact h.setPhase hp (fun _ => .inr trivial) (fun _ => trivial) False.elim trivial
        fun j hj => by cases hj
    | closed | lockless | exited =>
      simp only [LockFile.advance, hp]
      exact h.exited hp

theorem Orderly.fail (h : s.Orderly) (hc : s.Clear (.fail p)) : (s.step (.fail p)).Orderly := by
  cases hp : s.processes[p]? with
  | none =>
    simp only [LockFile.step, hp]
    exact h
  | some ph =>
    cases ph with
    | starting =>
      simp only [LockFile.step, hp]
      exact h.setPhase hp (fun hactive => hactive.elim False.elim False.elim) False.elim False.elim
        trivial fun j hj => by cases hj
    | opened i =>
      simp only [LockFile.step, hp]
      exact h.exited hp
    | running i =>
      simp only [LockFile.step, hp]
      exact h.unlink hp (hc ⟨_, hp, trivial⟩) (.inr rfl)
    | unlinked i | closed | lockless | exited =>
      simp only [LockFile.step, hp]
      exact h

theorem Orderly.start (h : s.Orderly) : (s.step .start).Orderly := by
  have hcases : ∀ (q : ℕ) (ph : Phase), (s.step .start).processes[q]? = some ph →
      s.processes[q]? = some ph ∨ q = s.processes.length ∧ ph = .starting := by
    intro q ph hq
    exact EventMachine.getElem?_concat_eq_some.mp hq
  have hnot : ¬ Phase.Active .starting := by decide
  refine ⟨fun q ph hq => ?_, fun q r ph ph' hq hr hne => ?_, fun q ph hq i hi => ?_, h.path_lt⟩
  · rcases hcases q ph hq with hq | ⟨-, rfl⟩
    · exact h.names q ph hq
    · trivial
  · rcases hcases q ph hq with hq | ⟨rfl, rfl⟩
    · rcases hcases r ph' hr with hr | ⟨-, rfl⟩
      · exact h.beside q r ph ph' hq hr hne
      · exact ⟨fun hboth => hnot hboth.2, fun hboth => hboth.2⟩
    · exact ⟨fun hboth => hnot hboth.1, fun hboth => hboth.1⟩
  · rcases hcases q ph hq with hq | ⟨-, rfl⟩
    · exact h.fresh q ph hq i hi
    · cases hi

/-- A clear step leaves no two processes in each other's way. -/
theorem Orderly.step {e : LockEvent} (h : s.Orderly) (hc : s.Clear e) : (s.step e).Orderly := by
  cases e with
  | start => exact h.start
  | advance p => exact h.advance hc
  | fail p => exact h.fail hc
  | kill p =>
    cases hp : s.processes[p]? with
    | none =>
      have hset : s.step (.kill p) = s := by
        rw [LockFile.step, LockFile.setPhase,
          List.set_eq_of_length_le (List.getElem?_eq_none_iff.mp hp)]
      rw [hset]
      exact h
    | some ph => exact h.exited hp

theorem orderly_of_init (h : lockFile.Init s) : s.Orderly := by
  obtain ⟨hnone, hpath⟩ := h
  have hno : ∀ (p : ℕ) (ph : Phase), s.processes[p]? ≠ some ph := by
    intro p ph hp
    rw [hnone] at hp
    cases hp
  exact ⟨fun p ph hp => absurd hp (hno p ph), fun p q ph ph' hp => absurd hp (hno p ph),
    fun p ph hp => absurd hp (hno p ph), hpath⟩

/-! ## A step that is not clear -/

/-- The lock is free once the only process that had it has closed the descriptor. -/
theorem not_single_flock {j : ℕ} (hp : s.processes[p]? = some .closed)
    (hq : s.processes[q]? = some (.opened j))
    (hothers : ∀ (r : ℕ) (ph : Phase), s.processes[r]? = some ph → ph.Active → r = p) :
    ¬ (s.advance q).Single := by
  have hfree : ¬ s.Locked j := by
    rintro ⟨ph, hmem, hlock⟩
    obtain ⟨r, hr⟩ := List.mem_iff_getElem?.mp hmem
    obtain rfl := hothers r ph hr (Phase.active_of_lock hlock)
    obtain rfl := Option.some.inj (hr.symm.trans hp)
    cases hlock
  have hne : p ≠ q := by
    rintro rfl
    rw [hp] at hq
    cases hq
  have hstep : s.advance q = s.setPhase q (.running j) := by
    simp only [advance, hq]
    rw [if_neg hfree]
  have hp' : (s.advance q).processes[p]? = some .closed := by
    rw [hstep, setPhase, List.getElem?_set_ne hne.symm, hp]
  have hq' : (s.advance q).processes[q]? = some (.running j) := by
    rw [hstep, setPhase, List.getElem?_set_self (List.getElem?_eq_some_iff.mp hq).1]
  intro hsingle
  exact hne (hsingle p q _ _ hp' hq' (.inr trivial) (.inl trivial))

/-- A process that has opened the file while another leaves will get a lock. -/
theorem exists_not_single {j : ℕ} (hp : s.processes[p]? = some ph) (hleaving : ph.Leaving)
    (hq : s.processes[q]? = some (.opened j))
    (hothers : ∀ (r : ℕ) (ph : Phase), s.processes[r]? = some ph → ph.Active → r = p) :
    ∃ ps : List ℕ, lockFile.Legal s (ps.map .advance) ∧
      ¬ (lockFile.run s (ps.map .advance)).Single := by
  rcases hleaving.cases with ⟨i, rfl⟩ | rfl
  · have hstep : s.advance p = s.setPhase p .closed := by simp only [advance, hp]
    have hp' : (s.advance p).processes[p]? = some .closed := by
      rw [hstep, setPhase, List.getElem?_set_self (List.getElem?_eq_some_iff.mp hp).1]
    have hne : p ≠ q := by
      rintro rfl
      rw [hp] at hq
      cases hq
    have hq' : (s.advance p).processes[q]? = some (.opened j) := by
      rw [hstep, setPhase, List.getElem?_set_ne hne, hq]
    refine ⟨[p, q], ⟨⟨_, hp, by simp⟩, ⟨_, hq', by simp⟩, trivial⟩, ?_⟩
    have hothers' : ∀ (r : ℕ) (ph : Phase), (s.advance p).processes[r]? = some ph → ph.Active →
        r = p := by
      intro r ph hr hactive
      rw [hstep] at hr
      rcases (EventMachine.getElem?_set_eq_some hp).mp hr with ⟨rfl, -⟩ | ⟨-, hr⟩
      · rfl
      · exact hothers r ph hr hactive
    exact not_single_flock hp' hq' hothers'
  · exact ⟨[q], ⟨⟨_, hq, by simp⟩, trivial⟩, not_single_flock hp hq hothers⟩

theorem Orderly.exists_not_single_open (h : s.Orderly) (hp : s.processes[p]? = some .starting)
    (hc : ¬ s.NoOther p Phase.Leaving) :
    ∃ ps : List ℕ, lockFile.Legal (s.advance p) (ps.map .advance) ∧
      ¬ (lockFile.run (s.advance p) (ps.map .advance)).Single := by
  obtain ⟨q, ph, hq, hleaving, hne⟩ :
      ∃ (q : ℕ) (ph : Phase), s.processes[q]? = some ph ∧ ph.Leaving ∧ q ≠ p := by
    simpa [noOther_iff] using hc
  obtain ⟨j, hstep⟩ : ∃ j, (s.advance p).processes = s.processes.set p (.opened j) := by
    simp only [LockFile.advance, hp]
    cases s.path with
    | some i => exact ⟨i, rfl⟩
    | none => exact ⟨s.inodes, rfl⟩
  have hp' : (s.advance p).processes[p]? = some (.opened j) := by
    rw [hstep, List.getElem?_set_self (List.getElem?_eq_some_iff.mp hp).1]
  have hq' : (s.advance p).processes[q]? = some ph := by
    rw [hstep, List.getElem?_set_ne hne.symm, hq]
  refine exists_not_single hq' hleaving hp' fun r ph' hr hactive => ?_
  rw [hstep] at hr
  rcases (EventMachine.getElem?_set_eq_some hp).mp hr with ⟨-, rfl⟩ | ⟨-, hr⟩
  · exact (hactive.elim id id).elim
  · exact h.single r q ph' ph hr hq hactive (.inr hleaving)

theorem Orderly.exists_not_single_unlink (h : s.Orderly)
    (hp : s.processes[p]? = some (.running i)) (hc : ¬ s.NoOther p Phase.Undecided)
    (ht : t.processes = s.processes.set p (.unlinked i)) :
    ∃ ps : List ℕ, lockFile.Legal t (ps.map .advance) ∧
      ¬ (lockFile.run t (ps.map .advance)).Single := by
  obtain ⟨q, ph, hq, hundecided, hne⟩ :
      ∃ (q : ℕ) (ph : Phase), s.processes[q]? = some ph ∧ ph.Undecided ∧ q ≠ p := by
    simpa [noOther_iff] using hc
  obtain ⟨j, rfl⟩ : ∃ j, ph = .opened j := by
    cases ph with
    | opened j => exact ⟨j, rfl⟩
    | starting | running j | unlinked j | closed | lockless | exited => exact hundecided.elim
  have hp' : t.processes[p]? = some (.unlinked i) := by
    rw [ht, List.getElem?_set_self (List.getElem?_eq_some_iff.mp hp).1]
  have hq' : t.processes[q]? = some (.opened j) := by rw [ht, List.getElem?_set_ne hne.symm, hq]
  refine exists_not_single hp' trivial hq' fun r ph' hr hactive => ?_
  rw [ht] at hr
  rcases (EventMachine.getElem?_set_eq_some hp).mp hr with ⟨rfl, -⟩ | ⟨-, hr⟩
  · rfl
  · exact h.single r p ph' _ hr hp hactive (.inl trivial)

/-- After a step that is not clear, two launchers can come to be at once. -/
theorem Orderly.exists_not_single {e : LockEvent} (h : s.Orderly) (hc : ¬ s.Clear e) :
    ∃ ps : List ℕ, lockFile.Legal (s.step e) (ps.map .advance) ∧
      ¬ (lockFile.run (s.step e) (ps.map .advance)).Single := by
  have hunlink : ∀ (p : ℕ) (t : LockFile), (∀ i, s.processes[p]? = some (.running i) →
      t.processes = s.processes.set p (.unlinked i)) →
      ¬ ((∃ ph ∈ s.processes[p]?, ph.Running) → s.NoOther p Phase.Undecided) →
      ∃ ps : List ℕ, lockFile.Legal t (ps.map .advance) ∧
        ¬ (lockFile.run t (ps.map .advance)).Single := by
    intro p t ht hnot
    obtain ⟨⟨ph, hp, hrunning⟩, hundecided⟩ := Classical.not_imp.mp hnot
    cases ph with
    | running i => exact h.exists_not_single_unlink hp hundecided (ht i hp)
    | starting | opened i | unlinked i | closed | lockless | exited => exact hrunning.elim
  cases e with
  | start => exact absurd trivial hc
  | kill p => exact absurd trivial hc
  | fail p => exact hunlink p _ (fun i hp => by simp only [LockFile.step, hp, LockFile.setPhase]) hc
  | advance p =>
    rcases not_and_or.mp hc with hopen | hnot
    · obtain ⟨hp, hleaving⟩ := Classical.not_imp.mp hopen
      exact h.exists_not_single_open hp hleaving
    · refine hunlink p _ (fun i hp => ?_) hnot
      simp only [LockFile.step, LockFile.advance, hp, LockFile.setPhase]

end LockFile

/-- **One launcher at a time, as long as opening and leaving do not cross.** In a run whose steps
are all clear at most one process is between a successful `acquire_lock` and its exit. After a step
that is not clear there are next steps of the processes after which two are. -/
theorem single_of_clear {s : LockFile} {es : List LockEvent} (h : lockFile.Init s)
    (hl : lockFile.Legal s es) (hc : lockFile.EachStep LockFile.Clear s es) :
    lockFile.Always LockFile.Single s es ∧
      ∀ e, lockFile.Enabled (lockFile.run s es) e → ¬ (lockFile.run s es).Clear e →
        ∃ ps : List ℕ, lockFile.Legal s (es ++ e :: ps.map .advance) ∧
          ¬ lockFile.Always LockFile.Single s (es ++ e :: ps.map .advance) := by
  have horderly : lockFile.Always LockFile.Orderly s es :=
    EventMachine.Always.of_eachStep (fun s e hs _ hc => hs.step hc) (LockFile.orderly_of_init h)
      hl hc
  refine ⟨horderly.mono fun s hs => hs.single, fun e he hnot => ?_⟩
  obtain ⟨ps, hlegal, htwo⟩ := horderly.last.exists_not_single hnot
  refine ⟨ps, (EventMachine.legal_append _).mpr ⟨hl, he, hlegal⟩, fun hall => htwo ?_⟩
  have hlast := hall.last
  rwa [EventMachine.run_append] at hlast

/-- No file, and no process yet. -/
def LockFile.absent : LockFile := ⟨[], none, 0⟩

theorem init_absent : lockFile.Init .absent := by
  refine ⟨rfl, fun i hi => ?_⟩
  cases hi

/-- A launcher runs; a second one finds the lock taken; a third runs after the first has left. -/
def toggled : List LockEvent :=
  [.start, .advance 0, .advance 0, .start, .advance 1, .advance 1, .advance 0, .advance 0,
    .advance 0, .start, .advance 2, .advance 2]

theorem single_of_clear_toggled : lockFile.Always LockFile.Single .absent toggled := by
  have hlegal : lockFile.Legal .absent toggled := by decide
  have hclear : lockFile.EachStep LockFile.Clear .absent toggled := by decide
  exact (single_of_clear init_absent hlegal hclear).1

/-- A second launcher opens the file before the first removes it, and locks it after the first has
closed it; a third creates the file anew. -/
def crossed : List LockEvent :=
  [.start, .advance 0, .advance 0, .start, .advance 1, .advance 0, .advance 0, .advance 0,
    .advance 1, .start, .advance 2, .advance 2]

/-- The second and the third run at once, each with a lock on an inode of its own. -/
theorem not_single : lockFile.Init .absent ∧ lockFile.Legal .absent crossed ∧
    (lockFile.run .absent crossed).processes = [.exited, .running 0, .running 1] ∧
      ¬ lockFile.Always LockFile.Single .absent crossed := by
  refine ⟨init_absent, by decide, by decide, fun hall => ?_⟩
  have hsame : (1 : ℕ) = 2 :=
    hall.last 1 2 (.running 0) (.running 1) (by decide) (by decide) (.inl trivial) (.inl trivial)
  exact absurd hsame (by decide)

end Launcher

end Nullxes
