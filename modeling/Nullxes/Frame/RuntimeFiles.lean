import Mathlib.Data.List.Basic
import Nullxes.Library.EventMachine

/-!
# The runtime files

Every FRAME of a user has the same two files under `$XDG_RUNTIME_DIR/nullxes`: `wayland-display`,
which holds the name of its Wayland socket (`publish_wayland_display`), and the socket `frame.sock`
(`ipc_server::start`). Start-up replaces both whatever they are, and shutdown removes both whatever
they are, so what they are depends on the order in which the steps of several instances fall.

Both backends take these steps in the same order. `Phase` is how far an instance has come with them;
`RuntimeDir.advance` is the next one.

## Main results

* `Frame.owned_of_alone` — as long as no instance starts while another is up, the files are those of
  the instance that runs; and once one does start so, some interleaving leaves a running instance
  without its files
* `Frame.nested_exit_removes` — an instance that is started inside another, and left
-/

namespace Nullxes

namespace Frame

/-- How far an instance has come. -/
inductive Phase
  /-- `ListeningSocketSource::new_auto`. -/
  | listening
  /-- The name is in `wayland-display.tmp`. -/
  | written
  /-- `publish_wayland_display` has renamed it. -/
  | published
  /-- The stale `frame.sock` is removed. -/
  | unlinked
  /-- `frame.sock` is bound. -/
  | bound
  /-- In the event loop. -/
  | running
  /-- The event loop has returned. -/
  | stopped
  /-- `IpcSocket` is dropped. -/
  | dropped
  /-- `wayland-display` is removed. -/
  | leaving
  | gone
  deriving DecidableEq, Repr

namespace Phase

/-- The phase after the next step, if the step does not fail. -/
def next : Phase → Phase
  | listening => written
  | written => published
  | published => unlinked
  | unlinked => bound
  | bound => running
  | running => stopped
  | stopped => dropped
  | dropped => leaving
  | leaving => gone
  | gone => gone

/-- The instance has steps to take that concern the files. -/
def Up (ph : Phase) : Prop := ph ≠ leaving ∧ ph ≠ gone

instance (ph : Phase) : Decidable ph.Up := inferInstanceAs (Decidable (_ ∧ _))

end Phase

structure Instance where
  /-- `socket_name`. -/
  socketName : String
  phase : Phase
  deriving DecidableEq, Repr

/-- `wayland-display`. -/
structure DisplayFile where
  name : String
  /-- The instance that put it there. -/
  publisher : ℕ
  deriving DecidableEq, Repr

/-- `$XDG_RUNTIME_DIR/nullxes` and the instances that use it. -/
structure RuntimeDir where
  instances : List Instance
  /-- `wayland-display.tmp`. -/
  tmp : Option String
  waylandDisplay : Option DisplayFile
  /-- `frame.sock`, by the instance that bound it. -/
  frameSock : Option ℕ
  deriving DecidableEq, Repr

inductive RuntimeEvent
  /-- An instance starts and opens a Wayland socket. -/
  | start (name : String)
  /-- An instance takes its next step. -/
  | advance (p : ℕ)
  /-- The start-up of an instance fails for some other reason, or it is killed. -/
  | fail (p : ℕ)
  deriving DecidableEq, Repr

namespace RuntimeDir

variable (s : RuntimeDir)

def setPhase (p : ℕ) (inst : Instance) (ph : Phase) : RuntimeDir :=
  { s with instances := s.instances.set p { inst with phase := ph } }

/-- The next step of an instance on the files. -/
def advance (p : ℕ) : RuntimeDir :=
  match s.instances[p]? with
  | none => s
  | some inst =>
    match inst.phase with
    | .listening => { s with tmp := some inst.socketName }.setPhase p inst .written
    | .written =>
      match s.tmp with
      | none => s.setPhase p inst .gone
      | some name =>
        { s with tmp := none, waylandDisplay := some ⟨name, p⟩ }.setPhase p inst .published
    | .published => { s with frameSock := none }.setPhase p inst .unlinked
    | .unlinked =>
      match s.frameSock with
      | none => { s with frameSock := some p }.setPhase p inst .bound
      | some _ => s.setPhase p inst .gone
    | .bound => s.setPhase p inst .running
    | .running => s.setPhase p inst .stopped
    | .stopped => { s with frameSock := none }.setPhase p inst .dropped
    | .dropped => { s with waylandDisplay := none }.setPhase p inst .leaving
    | .leaving => s.setPhase p inst .gone
    | .gone => s

def step : RuntimeEvent → RuntimeDir
  | .start name => { s with instances := s.instances ++ [⟨name, .listening⟩] }
  | .advance p => s.advance p
  | .fail p =>
    match s.instances[p]? with
    | none => s
    | some inst => s.setPhase p inst .gone

/-- No two instances have the same Wayland socket. -/
def Enabled : RuntimeEvent → Prop
  | .start name => ∀ inst ∈ s.instances, inst.phase ≠ .gone → inst.socketName ≠ name
  | .advance p => ∃ inst ∈ s.instances[p]?, inst.phase ≠ .gone
  | .fail p => ∃ inst ∈ s.instances[p]?, inst.phase ≠ .gone

instance : (e : RuntimeEvent) → Decidable (s.Enabled e)
  | .start name =>
    inferInstanceAs (Decidable (∀ inst ∈ s.instances, inst.phase ≠ .gone → inst.socketName ≠ name))
  | .advance p => inferInstanceAs (Decidable (∃ inst ∈ s.instances[p]?, inst.phase ≠ .gone))
  | .fail p => inferInstanceAs (Decidable (∃ inst ∈ s.instances[p]?, inst.phase ≠ .gone))

/-- No instance is left; files of theirs may be. -/
def Stale : Prop :=
  (∀ inst ∈ s.instances, inst.phase = .gone) ∧ (∀ p ∈ s.frameSock, p < s.instances.length) ∧
    ∀ file ∈ s.waylandDisplay, file.publisher < s.instances.length

end RuntimeDir

/-- The instances of a user. -/
def runtimeDir : EventMachine RuntimeDir RuntimeEvent where
  Init s := s.Stale
  Enabled s e := s.Enabled e
  step s e := s.step e

instance (s : RuntimeDir) (e : RuntimeEvent) : Decidable (runtimeDir.Enabled s e) :=
  inferInstanceAs (Decidable (s.Enabled e))

namespace RuntimeDir

variable (s : RuntimeDir)

/-- If an instance runs, `frame.sock` is bound by one that does, and `wayland-display` has the name
of one that does. -/
def Owned : Prop :=
  (∃ inst ∈ s.instances, inst.phase = .running) →
    (∃ (p : ℕ) (inst : Instance), s.instances[p]? = some inst ∧ inst.phase = .running ∧
      s.frameSock = some p) ∧
    ∃ inst ∈ s.instances, inst.phase = .running ∧
      ∃ file, s.waylandDisplay = some file ∧ file.name = inst.socketName

/-- What an instance removes when it exits, it put there itself. -/
def RemovesOwn : RuntimeEvent → Prop
  | .advance p => ∀ inst, s.instances[p]? = some inst →
      (inst.phase = .stopped → ∀ q, s.frameSock = some q → q = p) ∧
        (inst.phase = .dropped → ∀ file, s.waylandDisplay = some file → file.publisher = p)
  | _ => True

/-- An instance starts only if no other is up. -/
def Alone : RuntimeEvent → Prop
  | .start _ => ∀ inst ∈ s.instances, ¬ inst.phase.Up
  | _ => True

instance : (e : RuntimeEvent) → Decidable (s.Alone e)
  | .start _ => inferInstanceAs (Decidable (∀ inst ∈ s.instances, ¬ inst.phase.Up))
  | .advance _ | .fail _ => inferInstanceAs (Decidable True)

/-! ## One instance -/

variable {s} {t : RuntimeDir} {p q : ℕ} {inst : Instance}

variable (s) in
/-- What the files are to an instance that nothing has come between. -/
def Files (p : ℕ) (name : String) : Phase → Prop
  | .written => s.tmp = some name
  | .published | .dropped => s.waylandDisplay = some ⟨name, p⟩
  | .unlinked => s.waylandDisplay = some ⟨name, p⟩ ∧ s.frameSock = none
  | .bound | .running | .stopped => s.waylandDisplay = some ⟨name, p⟩ ∧ s.frameSock = some p
  | .listening | .leaving | .gone => True

@[simp] theorem instances_setPhase (inst : Instance) (ph : Phase) :
    (s.setPhase p inst ph).instances = s.instances.set p ⟨inst.socketName, ph⟩ := rfl

@[simp] theorem files_setPhase {inst : Instance} {ph ph' : Phase} {name : String} :
    (s.setPhase p inst ph).Files q name ph' ↔ s.Files q name ph' := by
  cases ph' <;> rfl

/-- An instance that nothing has come between takes its next step, and nothing has. -/
theorem advance_spec (h : s.instances[p]? = some inst)
    (hf : s.Files p inst.socketName inst.phase) :
    (s.advance p).instances = s.instances.set p ⟨inst.socketName, inst.phase.next⟩ ∧
      (s.advance p).Files p inst.socketName inst.phase.next := by
  obtain ⟨name, ph⟩ := inst
  simp only [advance, h]
  cases ph with
  | listening => exact ⟨rfl, rfl⟩
  | written =>
    have htmp : s.tmp = some name := hf
    simp only [htmp]
    exact ⟨rfl, rfl⟩
  | published => exact ⟨rfl, hf, rfl⟩
  | unlinked =>
    obtain ⟨hdisplay, hsock⟩ := hf
    simp only [hsock]
    exact ⟨rfl, hdisplay, rfl⟩
  | bound => exact ⟨rfl, hf⟩
  | running => exact ⟨rfl, hf⟩
  | stopped => exact ⟨rfl, hf.1⟩
  | dropped => exact ⟨rfl, trivial⟩
  | leaving => exact ⟨rfl, trivial⟩
  | gone =>
    obtain ⟨hp, hinst⟩ := List.getElem?_eq_some_iff.mp h
    refine ⟨?_, trivial⟩
    show s.instances = s.instances.set p ⟨name, .gone⟩
    rw [← hinst, List.set_getElem_self hp]

/-! ## One instance at a time -/

variable (s) in
/-- At most one instance is up, and nothing has come between it and the files. -/
def Solo : Prop :=
  ∀ (p : ℕ) (inst : Instance), s.instances[p]? = some inst → inst.phase.Up →
    s.Files p inst.socketName inst.phase ∧
      ∀ (q : ℕ) (inst' : Instance), s.instances[q]? = some inst' → inst'.phase.Up → q = p

/-- The instance that is up takes its next step. -/
theorem Solo.set_up {ph : Phase} (h : s.Solo) (hp : s.instances[p]? = some inst)
    (hup : inst.phase.Up) (ht : t.instances = s.instances.set p ⟨inst.socketName, ph⟩)
    (hf : t.Files p inst.socketName ph) : t.Solo := by
  have hother := (h p inst hp hup).2
  have honly : ∀ (q : ℕ) (inst' : Instance), t.instances[q]? = some inst' → inst'.phase.Up →
      q = p := by
    intro q inst' hq hq'
    rw [ht] at hq
    rcases (EventMachine.getElem?_set_eq_some hp).mp hq with ⟨rfl, -⟩ | ⟨-, hq⟩
    · rfl
    · exact hother q inst' hq hq'
  intro q inst' hq hq'
  obtain rfl := honly q inst' hq hq'
  refine ⟨?_, honly⟩
  rw [ht] at hq
  rcases (EventMachine.getElem?_set_eq_some hp).mp hq with ⟨-, rfl⟩ | ⟨hne, -⟩
  · exact hf
  · exact absurd rfl hne

/-- An instance goes, and touches no file. -/
theorem Solo.set_down {ph : Phase} (h : s.Solo) (hp : s.instances[p]? = some inst)
    (hdown : ¬ ph.Up) : (s.setPhase p inst ph).Solo := by
  have hrest : ∀ (q : ℕ) (inst' : Instance), (s.setPhase p inst ph).instances[q]? = some inst' →
      inst'.phase.Up → s.instances[q]? = some inst' := by
    intro q inst' hq hq'
    rcases (EventMachine.getElem?_set_eq_some hp).mp hq with ⟨-, rfl⟩ | ⟨-, hq⟩
    · exact absurd hq' hdown
    · exact hq
  intro q inst' hq hq'
  obtain ⟨hfiles, honly⟩ := h q inst' (hrest q inst' hq hq') hq'
  refine ⟨files_setPhase.mpr hfiles, fun r inst'' hr hr' => ?_⟩
  exact honly r inst'' (hrest r inst'' hr hr') hr'

theorem Solo.start {name : String} (hc : s.Alone (.start name)) :
    (s.step (.start name)).Solo := by
  have hnew : ∀ (q : ℕ) (inst' : Instance), (s.step (.start name)).instances[q]? = some inst' →
      inst'.phase.Up → q = s.instances.length ∧ inst' = ⟨name, .listening⟩ := by
    intro q inst' hq hq'
    rcases EventMachine.getElem?_concat_eq_some.mp hq with hold | hlast
    · exact absurd hq' (hc inst' (List.mem_of_getElem? hold))
    · exact hlast
  intro q inst' hq hq'
  obtain ⟨rfl, rfl⟩ := hnew q inst' hq hq'
  exact ⟨trivial, fun r inst'' hr hr' => (hnew r inst'' hr hr').1⟩

theorem Solo.advance (h : s.Solo) (p : ℕ) : (s.advance p).Solo := by
  cases hp : s.instances[p]? with
  | none =>
    simp only [RuntimeDir.advance, hp]
    exact h
  | some inst =>
    by_cases hup : inst.phase.Up
    · obtain ⟨hinstances, hfiles⟩ := advance_spec hp (h p inst hp hup).1
      exact h.set_up hp hup hinstances hfiles
    · -- nothing is left of it but its Wayland socket
      obtain ⟨name, ph⟩ := inst
      have hph : ph = .leaving ∨ ph = .gone := by
        by_contra hnot
        exact hup (not_or.mp hnot)
      simp only [RuntimeDir.advance, hp]
      rcases hph with rfl | rfl
      · exact h.set_down hp (by decide)
      · exact h

/-- A step that starts no instance while another is up keeps at most one up. -/
theorem Solo.step {e : RuntimeEvent} (h : s.Solo) (hc : s.Alone e) : (s.step e).Solo := by
  cases e with
  | start name => exact Solo.start hc
  | advance p => exact h.advance p
  | fail p =>
    cases hp : s.instances[p]? with
    | none =>
      simp only [RuntimeDir.step, hp]
      exact h
    | some inst =>
      simp only [RuntimeDir.step, hp]
      exact h.set_down hp (by decide)

theorem Stale.solo (h : s.Stale) : s.Solo := by
  intro p inst hp hup
  exact absurd (h.1 inst (List.mem_of_getElem? hp)) hup.2

/-- The files of an instance that is up. -/
theorem Solo.files {ph : Phase} (h : s.Solo) (hp : s.instances[p]? = some inst)
    (hphase : inst.phase = ph) (hup : ph.Up) : s.Files p inst.socketName ph := by
  subst hphase
  exact (h p inst hp hup).1

theorem Solo.owned (h : s.Solo) : s.Owned := by
  rintro ⟨inst, hinst, hrunning⟩
  obtain ⟨p, hp⟩ := List.mem_iff_getElem?.mp hinst
  obtain ⟨hdisplay, hsock⟩ := h.files hp hrunning (by decide)
  exact ⟨⟨p, inst, hp, hrunning, hsock⟩, inst, hinst, hrunning, _, hdisplay, rfl⟩

theorem Solo.removesOwn (h : s.Solo) (e : RuntimeEvent) : s.RemovesOwn e := by
  cases e with
  | start name => trivial
  | fail p => trivial
  | advance p =>
    intro inst hp
    constructor
    · intro hphase q hq
      have hsock := (h.files hp hphase (by decide)).2
      exact Option.some.inj (hq.symm.trans hsock)
    · intro hphase file hfile
      have hdisplay := h.files hp hphase (by decide)
      obtain rfl := Option.some.inj (hfile.symm.trans hdisplay)
      rfl

/-! ## Two at a time -/

/-- An instance that nothing comes between takes several steps. -/
theorem run_advances {k : ℕ} (h : s.instances[p]? = some inst)
    (hf : s.Files p inst.socketName inst.phase)
    (hlive : ∀ j < k, Phase.next^[j] inst.phase ≠ .gone) :
    let u := runtimeDir.run s (List.replicate k (.advance p))
    runtimeDir.Legal s (List.replicate k (.advance p)) ∧
      u.instances = s.instances.set p ⟨inst.socketName, Phase.next^[k] inst.phase⟩ ∧
      u.Files p inst.socketName (Phase.next^[k] inst.phase) := by
  induction k generalizing s inst with
  | zero =>
    obtain ⟨hp, rfl⟩ := List.getElem?_eq_some_iff.mp h
    exact ⟨trivial, (List.set_getElem_self hp).symm, hf⟩
  | succ k ih =>
    obtain ⟨hinstances, hfiles⟩ := advance_spec h hf
    have hp : p < s.instances.length := (List.getElem?_eq_some_iff.mp h).1
    have hnext : (s.advance p).instances[p]? = some ⟨inst.socketName, inst.phase.next⟩ := by
      rw [hinstances, List.getElem?_set_self hp]
    have hlive' : ∀ j < k, Phase.next^[j] inst.phase.next ≠ .gone := by
      intro j hj
      rw [← Function.iterate_succ_apply]
      exact hlive (j + 1) (by omega)
    obtain ⟨hlegal, hset, hfiles'⟩ := ih hnext hfiles hlive'
    have hfirst : s.Enabled (.advance p) := ⟨inst, h, hlive 0 (by omega)⟩
    refine ⟨⟨hfirst, hlegal⟩, ?_, hfiles'⟩
    rw [List.replicate_succ, EventMachine.run_cons, Function.iterate_succ_apply]
    show (runtimeDir.run (s.advance p) (List.replicate k (.advance p))).instances = _
    rw [hset, hinstances, List.set_set]

theorem not_owned (hp : s.instances[p]? = some inst) (hrunning : inst.phase = .running)
    (hnone : s.frameSock = none ∨ s.waylandDisplay = none) : ¬ s.Owned := by
  intro howned
  obtain ⟨⟨_, _, _, _, hsock⟩, _, _, _, _, hdisplay, _⟩ :=
    howned ⟨inst, List.mem_of_getElem? hp, hrunning⟩
  rcases hnone with hnone | hnone
  · simp [hnone] at hsock
  · simp [hnone] at hdisplay

/-- An instance that starts beside one that runs, or is about to, removes `frame.sock`. -/
theorem exists_disowned_startUp {k : ℕ} {name : String} (hp : s.instances[p]? = some inst)
    (hf : s.Files p inst.socketName inst.phase) (hk : Phase.next^[k] inst.phase = .running)
    (hlive : ∀ j < k, Phase.next^[j] inst.phase ≠ .gone)
    (hq : s.instances[q]? = some ⟨name, .listening⟩) (hne : p ≠ q) :
    ∃ ps : List ℕ, runtimeDir.Legal s (ps.map .advance) ∧
      ¬ (runtimeDir.run s (ps.map .advance)).Owned := by
  obtain ⟨hlegal, hset, -⟩ := run_advances hp hf hlive
  rw [hk] at hset
  have hplt : p < s.instances.length := (List.getElem?_eq_some_iff.mp hp).1
  have hp' : (runtimeDir.run s (List.replicate k (.advance p))).instances[p]? =
      some ⟨inst.socketName, .running⟩ := by
    rw [hset, List.getElem?_set_self hplt]
  have hq' : (runtimeDir.run s (List.replicate k (.advance p))).instances[q]? =
      some ⟨name, .listening⟩ := by
    rw [hset, List.getElem?_set_ne hne, hq]
  have hlive' : ∀ j < 3, Phase.next^[j] .listening ≠ .gone := by decide
  obtain ⟨hlegal', hset', hfiles⟩ := run_advances hq' trivial hlive'
  have hp'' := hp'
  rw [← List.getElem?_set_ne hne.symm, ← hset'] at hp''
  refine ⟨List.replicate k p ++ List.replicate 3 q, ?_⟩
  rw [List.map_append, List.map_replicate, List.map_replicate, EventMachine.legal_append,
    EventMachine.run_append]
  exact ⟨⟨hlegal, hlegal'⟩, not_owned hp'' rfl (.inl hfiles.2)⟩

/-- An instance that exits beside one that has started since removes its files. -/
theorem exists_disowned_exit {name : String} (hp : s.instances[p]? = some inst)
    (hphase : inst.phase = .stopped ∨ inst.phase = .dropped)
    (hq : s.instances[q]? = some ⟨name, .listening⟩) (hne : p ≠ q) :
    ∃ ps : List ℕ, runtimeDir.Legal s (ps.map .advance) ∧
      ¬ (runtimeDir.run s (ps.map .advance)).Owned := by
  have hlive : ∀ j < 5, Phase.next^[j] .listening ≠ .gone := by decide
  obtain ⟨hlegal, hset, -⟩ := run_advances hq trivial hlive
  obtain ⟨t, ht⟩ : ∃ t, runtimeDir.run s (List.replicate 5 (.advance q)) = t := ⟨_, rfl⟩
  rw [ht] at hset
  have hqlt : q < s.instances.length := (List.getElem?_eq_some_iff.mp hq).1
  have hq' : t.instances[q]? = some ⟨name, .running⟩ := by
    rw [hset, List.getElem?_set_self hqlt]
    rfl
  have hp' : t.instances[p]? = some inst := by
    rw [hset, List.getElem?_set_ne hne.symm, hp]
  have hexit : (t.advance p).instances[q]? = some ⟨name, .running⟩ ∧
      ((t.advance p).frameSock = none ∨ (t.advance p).waylandDisplay = none) := by
    simp only [RuntimeDir.advance, hp']
    rcases hphase with hphase | hphase <;> simp [hphase, setPhase, List.getElem?_set_ne hne, hq']
  have hlast : runtimeDir.Legal t [.advance p] := by
    refine ⟨⟨inst, hp', ?_⟩, trivial⟩
    rcases hphase with hphase | hphase <;> simp [hphase]
  refine ⟨List.replicate 5 q ++ [p], ?_⟩
  rw [List.map_append, List.map_replicate, EventMachine.legal_append, EventMachine.run_append, ht]
  exact ⟨⟨hlegal, hlast⟩, not_owned hexit.1 rfl hexit.2⟩

end RuntimeDir

/-- An instance that is up is on its way to the event loop, or on its way out of it. -/
theorem Phase.Up.cases {ph : Phase} (h : ph.Up) :
    (∃ k, Phase.next^[k] ph = .running ∧ ∀ j < k, Phase.next^[j] ph ≠ .gone) ∨
      ph = .stopped ∨ ph = .dropped := by
  cases ph with
  | listening => exact .inl ⟨5, rfl, by decide⟩
  | written => exact .inl ⟨4, rfl, by decide⟩
  | published => exact .inl ⟨3, rfl, by decide⟩
  | unlinked => exact .inl ⟨2, rfl, by decide⟩
  | bound => exact .inl ⟨1, rfl, by decide⟩
  | running => exact .inl ⟨0, rfl, by decide⟩
  | stopped => exact .inr (.inl rfl)
  | dropped => exact .inr (.inr rfl)
  | leaving => exact absurd rfl h.1
  | gone => exact absurd rfl h.2

namespace RuntimeDir

variable {s : RuntimeDir}

/-- If an instance starts while another is up, the two can get in each other's way. -/
theorem Solo.exists_disowned {name : String} (h : s.Solo) (he : s.Enabled (.start name))
    (hc : ¬ s.Alone (.start name)) :
    ∃ ps : List ℕ, runtimeDir.Legal s (.start name :: ps.map .advance) ∧
      ¬ (runtimeDir.run s (.start name :: ps.map .advance)).Owned := by
  obtain ⟨inst, hmem, hup⟩ : ∃ inst ∈ s.instances, inst.phase.Up := by
    simpa [Alone] using hc
  obtain ⟨p, hp⟩ := List.mem_iff_getElem?.mp hmem
  have hplt : p < s.instances.length := (List.getElem?_eq_some_iff.mp hp).1
  have hp' : (s.step (.start name)).instances[p]? = some inst := by
    rw [← hp]
    exact List.getElem?_append_left hplt
  have hq : (s.step (.start name)).instances[s.instances.length]? = some ⟨name, .listening⟩ := by
    simp [RuntimeDir.step]
  have hne : p ≠ s.instances.length := by omega
  have hf : (s.step (.start name)).Files p inst.socketName inst.phase := (h p inst hp hup).1
  have hcontinue : ∃ ps : List ℕ, runtimeDir.Legal (s.step (.start name)) (ps.map .advance) ∧
      ¬ (runtimeDir.run (s.step (.start name)) (ps.map .advance)).Owned := by
    rcases hup.cases with ⟨k, hk, hlive⟩ | hexit
    · exact exists_disowned_startUp hp' hf hk hlive hq hne
    · exact exists_disowned_exit hp' hexit hq hne
  obtain ⟨ps, hlegal, howned⟩ := hcontinue
  exact ⟨ps, ⟨he, hlegal⟩, howned⟩

end RuntimeDir

/-- **The runtime files belong to the instance that runs as long as instances do not overlap.** If
none starts while another is up, then while one runs both files are those of a running one, and what
an instance removes on exit is its own. If one does start while another is up, there are next steps
of the instances that leave a running one without its files. -/
theorem owned_of_alone {s : RuntimeDir} {es : List RuntimeEvent} (h : runtimeDir.Init s)
    (hl : runtimeDir.Legal s es) (hc : runtimeDir.EachStep RuntimeDir.Alone s es) :
    (runtimeDir.Always RuntimeDir.Owned s es ∧ runtimeDir.EachStep RuntimeDir.RemovesOwn s es) ∧
      ∀ name, runtimeDir.Enabled (runtimeDir.run s es) (.start name) →
        ¬ (runtimeDir.run s es).Alone (.start name) →
        ∃ ps : List ℕ, runtimeDir.Legal s (es ++ .start name :: ps.map .advance) ∧
          ¬ runtimeDir.Always RuntimeDir.Owned s (es ++ .start name :: ps.map .advance) := by
  have hsolo : runtimeDir.Always RuntimeDir.Solo s es :=
    EventMachine.Always.of_eachStep (fun s e hs _ hc => hs.step hc) h.solo hl hc
  refine ⟨⟨hsolo.mono fun s hs => hs.owned, hsolo.eachStep fun s e hs => hs.removesOwn e⟩, ?_⟩
  intro name he hnot
  obtain ⟨ps, hlegal, howned⟩ := hsolo.last.exists_disowned he hnot
  refine ⟨ps, (EventMachine.legal_append _).mpr ⟨hl, hlegal⟩, fun hall => howned ?_⟩
  rw [← EventMachine.run_append]
  exact hall.last

/-- No file, and no instance yet. -/
def RuntimeDir.empty : RuntimeDir := ⟨[], none, none, none⟩

theorem init_empty : runtimeDir.Init .empty := by
  refine ⟨fun inst hinst => ?_, fun p hp => ?_, fun file hfile => ?_⟩
  · cases hinst
  · cases hp
  · cases hfile

/-- One instance after the other. -/
def oneByOne : List RuntimeEvent :=
  .start "wayland-1" :: List.replicate 9 (.advance 0) ++
    .start "wayland-2" :: List.replicate 5 (.advance 1)

theorem owned_of_alone_oneByOne :
    runtimeDir.Always RuntimeDir.Owned .empty oneByOne ∧
      runtimeDir.EachStep RuntimeDir.RemovesOwn .empty oneByOne := by
  have hlegal : runtimeDir.Legal .empty oneByOne := by decide
  have halone : runtimeDir.EachStep RuntimeDir.Alone .empty oneByOne := by decide
  exact (owned_of_alone init_empty hlegal halone).1

/-- An instance is started while another runs, and exits. -/
def nested : List RuntimeEvent :=
  .start "wayland-1" :: List.replicate 5 (.advance 0) ++
    .start "wayland-2" :: List.replicate 9 (.advance 1)

/-- The one that still runs has neither of its files. -/
theorem nested_exit_removes :
    runtimeDir.Init .empty ∧ runtimeDir.Legal .empty nested ∧
      runtimeDir.run .empty nested =
        { instances := [⟨"wayland-1", .running⟩, ⟨"wayland-2", .gone⟩]
          tmp := none
          waylandDisplay := none
          frameSock := none } ∧
      ¬ runtimeDir.Always RuntimeDir.Owned .empty nested := by
  refine ⟨init_empty, by decide, rfl, fun halways => ?_⟩
  have hrunning : (runtimeDir.run .empty nested).instances[0]? = some ⟨"wayland-1", .running⟩ := rfl
  exact RuntimeDir.not_owned hrunning rfl (.inl rfl) halways.last

end Frame

end Nullxes
