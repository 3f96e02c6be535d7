import Mathlib.Data.List.Nodup

/-!
# Stacks of placed elements

A finite collection of distinct elements, each with a place, kept in stacking order: the head of
the list is at the bottom, the last entry on top. This is the container a window system keeps its
windows in, but nothing here knows what an element or a place is.

`ZStack` carries the distinctness of its elements as a field, so an element has one place and
`remove` really removes it; no lemma below needs a side condition saying so.

## Main definitions

* `ZStack.place` — put an element on top at a place, wherever it was before
* `ZStack.remove`, `ZStack.raise` — take an element out, and bring it to the top in place
* `ZStack.location`, `ZStack.find`, `ZStack.top`, `ZStack.topmost` — look-ups

## Main results

* `ZStack.mem_place`, `ZStack.mem_remove`, `ZStack.mem_raise` — membership after each operation
* `ZStack.location_place_self` — the place of what was placed
* `ZStack.find_eq_some_iff` — what a bottom-up search returns
* `ZStack.findsOnly_place`, `ZStack.findsOnly_remove`, `ZStack.findsOnly_raise` — when a search goes
  on finding the element it was meant for
-/

universe u v

/-- Distinct elements with places, bottom to top. -/
structure ZStack (α : Type u) (β : Type v) where
  /-- The elements with their places, bottom to top. -/
  entries : List (α × β)
  /-- No element is stacked twice. -/
  nodup : (entries.map Prod.fst).Nodup

namespace ZStack

variable {α : Type u} {β : Type v}

/-- The stack with nothing on it. -/
def empty : ZStack α β := ⟨[], List.nodup_nil⟩

/-- The elements, bottom to top. -/
def elements (s : ZStack α β) : List α := s.entries.map Prod.fst

instance : Membership α (ZStack α β) := ⟨fun s a => a ∈ s.elements⟩

theorem mem_def {s : ZStack α β} {a : α} : a ∈ s ↔ a ∈ s.elements := Iff.rfl

theorem mem_iff_entry {s : ZStack α β} {a : α} : a ∈ s ↔ ∃ b, (a, b) ∈ s.entries := by
  simp [mem_def, elements]

@[simp] theorem not_mem_empty (a : α) : a ∉ (empty : ZStack α β) := by
  simp [mem_def, elements, empty]

instance [DecidableEq α] (a : α) (s : ZStack α β) : Decidable (a ∈ s) :=
  inferInstanceAs (Decidable (a ∈ s.elements))

/-- The lowest element satisfying `p`, searching from the bottom. -/
def find (s : ZStack α β) (p : α → Bool) : Option α := s.elements.find? p

/-- The highest element. -/
def top (s : ZStack α β) : Option α := s.elements.getLast?

/-- The highest entry satisfying `p`, searching from the top. -/
def topmost (s : ZStack α β) (p : α × β → Bool) : Option (α × β) := s.entries.reverse.find? p

theorem mem_of_find {s : ZStack α β} {p : α → Bool} {a : α} (h : s.find p = some a) : a ∈ s :=
  List.mem_of_find?_eq_some h

theorem prop_of_find {s : ZStack α β} {p : α → Bool} {a : α} (h : s.find p = some a) :
    p a = true :=
  List.find?_some h

theorem find_eq_none {s : ZStack α β} {p : α → Bool} :
    s.find p = none ↔ ∀ a ∈ s, ¬ p a = true := List.find?_eq_none

theorem exists_find {s : ZStack α β} {p : α → Bool} {a : α} (ha : a ∈ s) (hp : p a = true) :
    ∃ x, s.find p = some x :=
  Option.isSome_iff_exists.mp (List.find?_isSome.mpr ⟨a, ha, hp⟩)

/-- An element is found exactly when it satisfies `p` and nothing below it does. -/
theorem find_eq_some_iff {s : ZStack α β} {p : α → Bool} {a : α} :
    s.find p = some a ↔
      p a = true ∧ ∃ below above, s.elements = below ++ a :: above ∧ ∀ x ∈ below, ¬ p x = true := by
  rw [find, List.find?_eq_some_iff_append]
  simp

theorem mem_of_top {s : ZStack α β} {a : α} (h : s.top = some a) : a ∈ s :=
  List.mem_of_getLast? h

theorem entry_of_topmost {s : ZStack α β} {p : α × β → Bool} {e : α × β}
    (h : s.topmost p = some e) : e ∈ s.entries :=
  List.mem_reverse.mp (List.mem_of_find?_eq_some h)

theorem mem_of_topmost {s : ZStack α β} {p : α × β → Bool} {a : α} {b : β}
    (h : s.topmost p = some (a, b)) : a ∈ s :=
  mem_iff_entry.mpr ⟨b, entry_of_topmost h⟩

theorem prop_of_topmost {s : ZStack α β} {p : α × β → Bool} {e : α × β}
    (h : s.topmost p = some e) : p e = true :=
  List.find?_some h

/-- The stack with every place changed. -/
def mapPlaces {γ : Type v} (s : ZStack α β) (f : β → γ) : ZStack α γ where
  entries := s.entries.map fun e => (e.1, f e.2)
  nodup := by
    have hfst : (s.entries.map fun e => (e.1, f e.2)).map Prod.fst = s.entries.map Prod.fst := by
      simp [Function.comp_def]
    rw [hfst]
    exact s.nodup

/-- Searching a stack with other places is searching for what has them. -/
theorem topmost_mapPlaces {γ : Type v} (s : ZStack α β) (f : β → γ) (p : α × γ → Bool) :
    (s.mapPlaces f).topmost p =
      (s.topmost fun e => p (e.1, f e.2)).map fun e => (e.1, f e.2) := by
  rw [topmost, mapPlaces, ← List.map_reverse, List.find?_map]
  rfl

variable [DecidableEq α]

/-- The place of an element, if it is on the stack. -/
def location (s : ZStack α β) (a : α) : Option β :=
  (s.entries.find? fun e => e.1 = a).map Prod.snd

/-- Take an element out. -/
def remove (s : ZStack α β) (a : α) : ZStack α β where
  entries := s.entries.filter fun e => e.1 ≠ a
  nodup := s.nodup.sublist (List.filter_sublist.map Prod.fst)

theorem mem_remove {s : ZStack α β} {a x : α} : x ∈ s.remove a ↔ x ≠ a ∧ x ∈ s := by
  simp only [mem_iff_entry, remove, List.mem_filter, decide_eq_true_eq]
  constructor
  · rintro ⟨b, hb, hx⟩
    exact ⟨hx, b, hb⟩
  · rintro ⟨hx, b, hb⟩
    exact ⟨b, hb, hx⟩

/-- Put an element on top at the given place, taking it out of its old position first. -/
def place (s : ZStack α β) (a : α) (b : β) : ZStack α β where
  entries := (s.remove a).entries ++ [(a, b)]
  nodup := by
    rw [List.map_append, List.nodup_append]
    refine ⟨(s.remove a).nodup, by simp, ?_⟩
    intro x hx y hy
    rw [List.map_singleton, List.mem_singleton] at hy
    have hx' : x ∈ s.remove a := hx
    exact hy ▸ (mem_remove.mp hx').1

theorem mem_place {s : ZStack α β} {a x : α} {b : β} : x ∈ s.place a b ↔ x = a ∨ x ∈ s := by
  have happ : x ∈ s.place a b ↔ x ∈ s.remove a ∨ x = a := by
    simp [mem_def, elements, place]
  rw [happ, mem_remove]
  by_cases hx : x = a <;> simp [hx]

/-- Bring an element to the top without moving it. Nothing happens to an element that is not on
the stack. -/
def raise (s : ZStack α β) (a : α) : ZStack α β :=
  match s.location a with
  | some b => s.place a b
  | none => s

theorem location_eq_none {s : ZStack α β} {a : α} : s.location a = none ↔ a ∉ s := by
  simp only [location, Option.map_eq_none_iff, List.find?_eq_none, decide_eq_true_eq,
    mem_iff_entry, not_exists]
  constructor
  · intro h b hb
    exact h (a, b) hb rfl
  · rintro h ⟨x, b⟩ hb rfl
    exact h b hb

theorem mem_iff_location {s : ZStack α β} {a : α} : a ∈ s ↔ ∃ b, s.location a = some b := by
  rw [← Option.isSome_iff_exists, ← Option.ne_none_iff_isSome, ne_eq, location_eq_none, not_not]

theorem mem_raise {s : ZStack α β} {a x : α} : x ∈ s.raise a ↔ x ∈ s := by
  rw [raise]
  split
  next b hb =>
    have ha : a ∈ s := mem_iff_location.mpr ⟨b, hb⟩
    rw [mem_place, or_iff_right_of_imp]
    rintro rfl
    exact ha
  next => exact Iff.rfl

/-! ### Searches -/

theorem mem_of_find_remove {s : ZStack α β} {p : α → Bool} {a x : α}
    (h : (s.remove a).find p = some x) : x ≠ a ∧ x ∈ s ∧ p x = true :=
  ⟨(mem_remove.mp (mem_of_find h)).1, (mem_remove.mp (mem_of_find h)).2, prop_of_find h⟩

theorem find_remove_eq_none {s : ZStack α β} {p : α → Bool} {a : α} :
    (s.remove a).find p = none ↔ ∀ x ∈ s, p x = true → x = a := by
  rw [find_eq_none]
  constructor
  · intro h x hx hpx
    by_contra hne
    exact h x (mem_remove.mpr ⟨hne, hx⟩) hpx
  · intro h x hx hpx
    obtain ⟨hne, hx⟩ := mem_remove.mp hx
    exact hne (h x hx hpx)

/-- Taking out an element that is not the one found does not change the search. -/
theorem find_remove_of_find {s : ZStack α β} {p : α → Bool} {a x : α} (h : s.find p = some x)
    (hne : x ≠ a) : (s.remove a).find p = some x := by
  obtain ⟨hpx, below, above, helems, hbelow⟩ := find_eq_some_iff.mp h
  have hrem : (s.remove a).elements = s.elements.filter (· ≠ a) := by
    simp [elements, remove, List.filter_map, Function.comp_def]
  refine find_eq_some_iff.mpr
    ⟨hpx, below.filter (· ≠ a), above.filter (· ≠ a), ?_, fun y hy => ?_⟩
  · rw [hrem, helems]
    simp [hne]
  · exact hbelow y (List.mem_filter.mp hy).1

theorem find_remove_of_not {s : ZStack α β} {p : α → Bool} {a : α} (h : ¬ p a = true) :
    (s.remove a).find p = s.find p := by
  rcases hf : s.find p with _ | x
  · exact find_remove_eq_none.mpr fun x hx hpx => absurd hpx (find_eq_none.mp hf x hx)
  · refine find_remove_of_find hf ?_
    rintro rfl
    exact h (prop_of_find hf)

/-- What was placed is found only when nothing else is. -/
theorem find_place (s : ZStack α β) (p : α → Bool) (a : α) (b : β) :
    (s.place a b).find p = ((s.remove a).find p).or (if p a then some a else none) := by
  rw [find, find, elements, elements, place, List.map_append, List.find?_append]
  simp [List.find?_cons]
  cases p a <;> rfl

/-! ### Searches with an expected result

A search by a test that is meant to pick out one element can pick out another. `FindsOnly` says that
it does not, and each operation keeps it under a condition on the elements that pass the test. -/

/-- What the search finds, if it finds anything, is `o`. -/
def FindsOnly (s : ZStack α β) (p : α → Bool) (o : Option α) : Prop :=
  ∀ x, s.find p = some x → o = some x

/-- An element just placed is what the search finds when nothing else passes the test. -/
theorem findsOnly_place_self {s : ZStack α β} {p : α → Bool} {a : α} (b : β) (hp : p a = true) :
    (s.place a b).FindsOnly p (some a) ↔ ∀ x ∈ s, p x = true → x = a := by
  rw [← find_remove_eq_none, FindsOnly, find_place, if_pos hp]
  rcases hf : (s.remove a).find p with _ | y
  · simp
  · have hne := (mem_of_find_remove hf).1
    simp [Ne.symm hne]

theorem findsOnly_remove {s : ZStack α β} {p : α → Bool} {a : α} {o : Option α}
    (h : s.FindsOnly p o) :
    (s.remove a).FindsOnly p o ↔ (o = some a → p a = true → ∀ x ∈ s, p x = true → x = a) := by
  constructor
  · rintro h' rfl hp
    refine find_remove_eq_none.mp ?_
    by_contra hne
    obtain ⟨y, hy⟩ := Option.ne_none_iff_exists'.mp hne
    have heq : a = y := Option.some.inj (h' y hy)
    exact (mem_of_find_remove hy).1 heq.symm
  · intro hc x hx
    obtain ⟨hne, hmem, hpx⟩ := mem_of_find_remove hx
    obtain ⟨y, hy⟩ := exists_find hmem hpx
    by_cases hya : y = a
    · rw [hya] at hy
      exact absurd (hc (h a hy) (prop_of_find hy) x hmem hpx) hne
    · have hxy := (find_remove_of_find hy hya).symm.trans hx
      rw [← Option.some.inj hxy]
      exact h y hy

/-- Placing an element disturbs the search only if the element passes the test. -/
theorem findsOnly_place {s : ZStack α β} {p : α → Bool} {a : α} (b : β) {o : Option α}
    (h : s.FindsOnly p o) :
    (s.place a b).FindsOnly p o ↔
      (p a = true → (o = some a → ∀ x ∈ s, p x = true → x = a) ∧
        (o ≠ some a → ∃ x ∈ s, p x = true)) := by
  by_cases hp : p a = true
  · by_cases ho : o = some a
    · subst ho
      simp [findsOnly_place_self b hp, hp]
    · -- the search must still find something below, and that is what it found before
      have hrem : (s.remove a).FindsOnly p o := (findsOnly_remove h).mpr fun h' => absurd h' ho
      have hex : (∃ x ∈ s, p x = true) ↔ (s.remove a).find p ≠ none := by
        rw [ne_eq, find_remove_eq_none]
        constructor
        · rintro ⟨x, hx, hpx⟩ hall
          obtain ⟨y, hy⟩ := exists_find hx hpx
          have hya := hall y (mem_of_find hy) (prop_of_find hy)
          exact ho (hya ▸ h y hy)
        · intro hall
          by_contra hno
          exact hall fun x hx hpx => absurd ⟨x, hx, hpx⟩ hno
      simp only [hp, ho, hex, FindsOnly, find_place, ne_eq, not_false_eq_true, forall_const,
        false_implies, true_and, if_true]
      rcases hf : (s.remove a).find p with _ | y
      · simpa using ho
      · simpa using hrem y hf
  · rw [FindsOnly, find_place, if_neg hp, Option.or_none, find_remove_of_not hp]
    exact iff_of_true h fun hpa => absurd hpa hp

/-- Bringing an element to the top disturbs the search as placing it does. -/
theorem findsOnly_raise {s : ZStack α β} {p : α → Bool} {a : α} {o : Option α}
    (h : s.FindsOnly p o) (ha : a ∈ s) :
    (s.raise a).FindsOnly p o ↔ (p a = true → o = some a → ∀ x ∈ s, p x = true → x = a) := by
  obtain ⟨b, hb⟩ := mem_iff_location.mp ha
  rw [raise, hb]
  refine (findsOnly_place b h).trans (imp_congr_right fun hp => ?_)
  exact and_iff_left fun _ => ⟨a, ha, hp⟩

/-! ### Places -/

@[simp] theorem location_place_self (s : ZStack α β) (a : α) (b : β) :
    (s.place a b).location a = some b := by
  have hnone : (s.remove a).entries.find? (fun e => decide (e.1 = a)) = none := by
    simp [remove]
  rw [location, place, List.find?_append, hnone]
  simp

end ZStack
