import Nullxes.Library.EventMachine

/-!
# Laws of a log

A log is what happened, in order. A *law* says of an entry and of everything before it whether the
entry may stand there, and a log is lawful if each of its entries may. So "at most once", "only
after" and "never after" are all of one kind, and a machine that only ever adds to its log keeps
within the law if what each step adds does.

## Main results

* `Logs.lawful_append` — a log is lawful if its beginning is and the rest is after it
* `Logs.always_lawful_iff` — when a machine keeps within the law
* `Logs.last_append_of_mem`, `Logs.last_append_of_notMem` — the last value of a key
* `Logs.fired_iff_first`, `Logs.lawful_latch_iff` — what fires once, and what fires whenever it is
  due
-/

universe u v w

namespace Logs

variable {α : Type u} {law : List α → α → Prop} {log new past : List α} {a : α}

/-- Every entry may stand where it does. -/
def Lawful (law : List α → α → Prop) (log : List α) : Prop :=
  ∀ pre a, pre ++ [a] <+: log → law pre a

@[simp] theorem lawful_nil : Lawful law [] := by
  intro pre a h
  simpa using h.length_le

theorem lawful_concat : Lawful law (log ++ [a]) ↔ Lawful law log ∧ law log a := by
  constructor
  · intro h
    exact ⟨fun pre b hp => h pre b (hp.trans (List.prefix_append _ _)),
      h log a (List.prefix_refl _)⟩
  · rintro ⟨hlog, ha⟩ pre b hp
    rcases List.prefix_concat_iff.mp hp with heq | hp
    · obtain ⟨rfl, hb⟩ := List.append_inj' heq rfl
      rwa [List.singleton_inj.mp hb]
    · exact hlog pre b hp

/-- What is added is lawful after what was there. -/
theorem lawful_append :
    Lawful law (log ++ new) ↔ Lawful law log ∧ Lawful (fun pre => law (log ++ pre)) new := by
  induction new using List.reverseRecOn with
  | nil => simp
  | append_singleton new a ih =>
    rw [← List.append_assoc, lawful_concat, ih, lawful_concat, and_assoc]

theorem lawful_singleton : Lawful law [a] ↔ law [] a := by
  rw [← List.nil_append [a], lawful_concat]
  simp

theorem lawful_cons :
    Lawful law (a :: new) ↔ law [] a ∧ Lawful (fun pre => law (a :: pre)) new := by
  rw [← List.singleton_append, lawful_append, lawful_singleton]
  rfl

/-- Entries that may stand anywhere. -/
theorem lawful_of_forall (h : ∀ a ∈ log, ∀ pre, law pre a) : Lawful law log := by
  intro pre a hp
  have hmem : a ∈ log := hp.mem (by simp)
  exact h a hmem pre

/-- Entries of one kind that may each stand after what was there, if entries of this kind do not
get in each other's way. -/
theorem lawful_map {β : Type v} {f : β → α} {bs : List β} (h : ∀ b ∈ bs, law past (f b))
    (hkind : ∀ b (before : List β), law past (f b) → law (past ++ before.map f) (f b)) :
    Lawful (fun pre => law (past ++ pre)) (bs.map f) := by
  induction bs using List.reverseRecOn with
  | nil => exact lawful_nil
  | append_singleton bs b ih =>
    have hlast : law past (f b) := h b (by simp)
    rw [List.map_append, List.map_singleton, lawful_concat]
    exact ⟨ih fun c hc => h c (List.mem_append_left _ hc), hkind b bs hlast⟩

theorem Lawful.law_of_eq {post : List α} (h : Lawful law log) (heq : log = past ++ a :: post) :
    law past a :=
  h past a ⟨post, by rw [heq, List.append_assoc]; rfl⟩

/-- Whether a log is lawful after another can be run. -/
instance decidableLawful [∀ pre a, Decidable (law pre a)] : (log : List α) →
    (past : List α) → Decidable (Lawful (fun pre => law (past ++ pre)) log)
  | [], _ => .isTrue lawful_nil
  | a :: rest, past =>
    match decidableLawful rest (past ++ [a]) with
    | .isTrue h => decidable_of_iff (law past a) <| by
        simp only [List.append_assoc, List.singleton_append] at h
        rw [lawful_cons, List.append_nil, and_iff_left h]
    | .isFalse h => .isFalse fun hall => h <| by
        simp only [List.append_assoc, List.singleton_append]
        exact (lawful_cons.mp hall).2

instance [∀ pre a, Decidable (law pre a)] (log : List α) : Decidable (Lawful law log) :=
  decidableLawful log []

/-! ### The last value of a key

A log of keys and values says of each key what it was last given. -/

section Last

variable {κ : Type u} {ν : Type v} [DecidableEq κ] {k : κ} {x : ν} {entries more : List (κ × ν)}

/-- The value that the key was last given. -/
def last (k : κ) (entries : List (κ × ν)) : Option ν :=
  (entries.filterMap fun p => if p.1 = k then some p.2 else none).getLast?

theorem last_append_of_notMem (h : k ∉ more.map Prod.fst) :
    last k (entries ++ more) = last k entries := by
  have hnone : (more.filterMap fun p => if p.1 = k then some p.2 else none) = [] := by
    rw [List.filterMap_eq_nil_iff]
    intro p hp
    have hmem : p.1 ∈ more.map Prod.fst := List.mem_map_of_mem hp
    refine if_neg fun heq => h ?_
    rwa [heq] at hmem
  rw [last, List.filterMap_append, hnone, List.append_nil, last]

theorem last_concat : last k (entries ++ [(k, x)]) = some x := by
  simp [last, List.filterMap_append]

/-- Keys that come once have the value that they come with. -/
theorem last_append_of_mem (hkeys : (more.map Prod.fst).Nodup) (h : (k, x) ∈ more) :
    last k (entries ++ more) = some x := by
  obtain ⟨pre, post, rfl⟩ := List.append_of_mem h
  have hpost : k ∉ post.map Prod.fst := by
    rw [List.map_append, List.map_cons, List.nodup_append] at hkeys
    exact (List.nodup_cons.mp hkeys.2.1).1
  have hsplit : entries ++ (pre ++ (k, x) :: post) = entries ++ pre ++ [(k, x)] ++ post := by simp
  rw [hsplit, last_append_of_notMem hpost, last_concat]

end Last

/-! ### Latches

What fires where it is due, but once. -/

section Latch

variable {due fired : α → Prop}

/-- An entry fires if it is due and none before it has. -/
def latch (due fired : α → Prop) (past : List α) (a : α) : Prop :=
  fired a ↔ due a ∧ ∀ b ∈ past, ¬ fired b

theorem Lawful.of_prefix (h : Lawful law log) (hp : past <+: log) : Lawful law past :=
  fun pre a hpre => h pre a (hpre.trans hp)

theorem exists_prefix_of_mem (h : a ∈ log) : ∃ pre, pre ++ [a] <+: log := by
  obtain ⟨pre, post, rfl⟩ := List.append_of_mem h
  exact ⟨pre, post, by simp⟩

/-- Where something is due, something has fired. -/
theorem exists_fired (h : Lawful (latch due fired) log) (ha : a ∈ log) (hdue : due a) :
    ∃ b ∈ log, fired b := by
  by_contra hnone
  obtain ⟨pre, hp⟩ := exists_prefix_of_mem ha
  have hpre : ∀ b ∈ pre, ¬ fired b := fun b hb hfired =>
    hnone ⟨b, hp.mem (List.mem_append_left _ hb), hfired⟩
  exact hnone ⟨a, ha, (h pre a hp).mpr ⟨hdue, hpre⟩⟩

/-- **What fires is the first that is due.** -/
theorem fired_iff_first (h : Lawful (latch due fired) log) (hp : past ++ [a] <+: log) :
    fired a ↔ due a ∧ ∀ b ∈ past, ¬ due b := by
  have hpast := h.of_prefix ((List.prefix_append past [a]).trans hp)
  have hlaw : fired a ↔ due a ∧ ∀ b ∈ past, ¬ fired b := h past a hp
  rw [hlaw]
  refine and_congr_right fun _ => ⟨fun hnone b hb hdue => ?_, fun hnone b hb hfired => ?_⟩
  · obtain ⟨c, hc, hfired⟩ := exists_fired hpast hb hdue
    exact hnone c hc hfired
  · obtain ⟨pre, hpre⟩ := exists_prefix_of_mem hb
    exact hnone b hb ((hpast pre b hpre).mp hfired).1

/-- Nothing fires twice. -/
theorem Lawful.pairwise_latch (h : Lawful (latch due fired) log) :
    log.Pairwise fun a b => ¬ (fired a ∧ fired b) := by
  induction log using List.reverseRecOn with
  | nil => exact .nil
  | append_singleton log a ih =>
    obtain ⟨hlog, ha⟩ := lawful_concat.mp h
    refine List.pairwise_append.mpr ⟨ih hlog, List.pairwise_singleton _ _, fun b hb c hc => ?_⟩
    rw [List.mem_singleton.mp hc]
    exact fun ⟨hfired, hfired'⟩ => (ha.mp hfired').2 b hb hfired

/-- Without a latch nothing fires twice only if nothing is due twice. -/
theorem lawful_latch_iff (h : ∀ a ∈ log, fired a ↔ due a) :
    Lawful (latch due fired) log ↔ log.Pairwise fun a b => ¬ (fired a ∧ fired b) := by
  refine ⟨Lawful.pairwise_latch, fun hpair pre a hp => ?_⟩
  have hprefix := hpair.sublist hp.sublist
  rw [latch, h a (hp.mem (by simp))]
  refine ⟨fun hdue => ⟨hdue, fun b hb hfired => ?_⟩, fun hdue => hdue.1⟩
  have hfired' := (h a (hp.mem (by simp))).mpr hdue
  exact (List.pairwise_append.mp hprefix).2.2 b hb a List.mem_cons_self ⟨hfired, hfired'⟩

end Latch

/-! ### Machines that keep a log -/

variable {σ : Type v} {ε : Type w} {M : EventMachine σ ε} {logOf : σ → List α}
  {added : σ → ε → List α}

/-- **A machine keeps within the law exactly as long as what its steps add is lawful.** -/
theorem always_lawful_iff (hstep : ∀ s e, logOf (M.step s e) = logOf s ++ added s e) {s : σ}
    (hs : Lawful law (logOf s)) (es : List ε) :
    M.Always (fun s => Lawful law (logOf s)) s es ↔
      M.EachStep (fun s e => Lawful (fun pre => law (logOf s ++ pre)) (added s e)) s es := by
  induction es generalizing s with
  | nil => simpa using hs
  | cons e es ih =>
    have hiff : Lawful law (logOf (M.step s e)) ↔
        Lawful (fun pre => law (logOf s ++ pre)) (added s e) := by
      rw [hstep, lawful_append, and_iff_right hs]
    rw [EventMachine.always_cons, EventMachine.eachStep_cons, ← hiff]
    constructor
    · rintro ⟨-, h⟩
      exact ⟨h.start, (ih h.start).mp h⟩
    · rintro ⟨h, hrest⟩
      exact ⟨hs, (ih h).mpr hrest⟩

end Logs
