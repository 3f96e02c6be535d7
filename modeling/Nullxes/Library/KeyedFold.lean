import Mathlib.Data.List.AList

/-!
# One candidate for each key

Elements arrive in order, each under a key, and a map keeps one of them for each key: the first,
until one arrives that is preferred to what is kept. What is kept for a key depends only on the
elements with that key (`KeyedFold.lookup_foldl_keep`). Where the preferred elements form a class
and an element of the class is preferred to one outside it, the one that is kept is the first of
the class, or the first if the class has none (`KeyedFold.survivor_eq`).

## Main definitions

* `KeyedFold.keep` — one arrival
* `KeyedFold.survivor` — what is left of a list when each element challenges what is kept
* `KeyedFold.firstIn` — the first of a class, otherwise the first
-/

universe u v

namespace KeyedFold

variable {α : Type u} {κ : Type v}

/-- The new one takes the place of the old if it is preferred. -/
def challenge (prefer : α → α → Bool) : Option α → α → Option α
  | none, new => some new
  | some old, new => if prefer new old then some new else some old

/-- What is left when all have challenged. -/
def survivor (prefer : α → α → Bool) (l : List α) : Option α := l.foldl (challenge prefer) none

/-- The first element of the class, or the first of all if there is none in the class. -/
def firstIn (p : α → Bool) (l : List α) : Option α := (l.find? p).or l.head?

section FirstIn

variable {p : α → Bool} {l : List α} {a b : α}

theorem mem_of_firstIn (h : firstIn p l = some a) : a ∈ l := by
  rcases Option.or_eq_some_iff.mp h with hfind | ⟨-, hhead⟩
  · exact List.mem_of_find?_eq_some hfind
  · exact List.mem_of_head? hhead

@[simp] theorem firstIn_eq_none : firstIn p l = none ↔ l = [] := by
  rw [firstIn, Option.or_eq_none_iff, List.head?_eq_none_iff]
  constructor
  · exact fun h => h.2
  · rintro rfl
    exact ⟨rfl, rfl⟩

/-- There is a first where there is any. -/
theorem exists_firstIn (h : a ∈ l) : ∃ b, firstIn p l = some b := by
  refine Option.ne_none_iff_exists'.mp fun hnone => ?_
  rw [firstIn_eq_none.mp hnone] at h
  exact List.not_mem_nil h

/-- Of a list that is converted in part, the first is what the first was converted to, if it
was. -/
theorem firstIn_filterMap {β : Type u} {q : β → Bool} {f : β → Option α} {l : List β} {b : β}
    (hpq : ∀ b a, f b = some a → p a = q b) (h : firstIn q l = some b) (hb : f b = some a) :
    firstIn p (l.filterMap f) = some a := by
  rcases Option.or_eq_some_iff.mp h with hfind | ⟨hnone, hhead⟩
  · obtain ⟨hq, as, bs, rfl, has⟩ := List.find?_eq_some_iff_append.mp hfind
    have hfound : ((as ++ b :: bs).filterMap f).find? p = some a := by
      rw [List.filterMap_append, List.filterMap_cons_some hb]
      refine List.find?_eq_some_iff_append.mpr
        ⟨(hpq b a hb).trans hq, as.filterMap f, bs.filterMap f, rfl, fun a' ha' => ?_⟩
      obtain ⟨b', hb', hf⟩ := List.mem_filterMap.mp ha'
      rw [hpq b' a' hf]
      exact has b' hb'
    rw [firstIn, hfound]
    rfl
  · have hnone' : (l.filterMap f).find? p = none := by
      rw [List.find?_eq_none] at hnone ⊢
      intro a' ha'
      obtain ⟨b', hb', hf⟩ := List.mem_filterMap.mp ha'
      rw [hpq b' a' hf]
      exact hnone b' hb'
    have hhead' : (l.filterMap f).head? = some a := by
      cases l with
      | nil => cases hhead
      | cons b' bs =>
        obtain rfl : b' = b := Option.some.inj hhead
        rw [List.filterMap_cons_some hb]
        rfl
    rw [firstIn, hnone', hhead']
    rfl

end FirstIn

/-! ### What survives -/

section Survivor

variable {prefer : α → α → Bool} {p : α → Bool}

/-- What is left was there at first or has challenged. -/
theorem mem_of_foldl_challenge {l : List α} {old : Option α} {a : α}
    (h : l.foldl (challenge prefer) old = some a) : a ∈ l ∨ old = some a := by
  induction l generalizing old with
  | nil => exact .inr h
  | cons b l ih =>
    rcases ih h with hl | hb
    · exact .inl (List.mem_cons_of_mem _ hl)
    · cases old with
      | none =>
        obtain rfl : b = a := Option.some.inj hb
        exact .inl List.mem_cons_self
      | some old =>
        rw [challenge] at hb
        split at hb
        · obtain rfl : b = a := Option.some.inj hb
          exact .inl List.mem_cons_self
        · exact .inr hb

theorem foldl_challenge_some (hprefer : ∀ a b, prefer a b = (p a && !p b)) (l : List α) (old : α) :
    l.foldl (challenge prefer) (some old) = some (if p old then old else (l.find? p).getD old) := by
  induction l generalizing old with
  | nil => simp
  | cons a l ih =>
    rw [List.foldl_cons, challenge, hprefer]
    cases hold : p old with
    | true => simp [ih, hold]
    | false =>
      cases ha : p a with
      | true => simp [ih, ha]
      | false => simp [ih, hold, ha]

/-- **The survivor where a class is preferred.** -/
theorem survivor_eq (hprefer : ∀ a b, prefer a b = (p a && !p b)) (l : List α) :
    survivor prefer l = firstIn p l := by
  cases l with
  | nil => rfl
  | cons a l =>
    have hrest := foldl_challenge_some hprefer l a
    rw [survivor, List.foldl_cons, challenge, hrest, firstIn, List.find?_cons]
    cases ha : p a with
    | true => simp
    | false => cases hfind : l.find? p <;> simp

end Survivor

/-! ### The map -/

section Keep

variable [DecidableEq κ] (key : α → κ) (prefer : α → α → Bool)

/-- An element arrives. -/
def keep (kept : AList fun _ : κ => α) (a : α) : AList fun _ : κ => α :=
  match kept.lookup (key a) with
  | none => kept.insert (key a) a
  | some old => if prefer a old then kept.insert (key a) a else kept

/-- The values of a map, in the order it has them. -/
def values (kept : AList fun _ : κ => α) : List α := kept.entries.map Sigma.snd

variable {key prefer} {kept : AList fun _ : κ => α} {a : α} {k : κ}

theorem lookup_keep (kept : AList fun _ : κ => α) (a : α) (k : κ) :
    (keep key prefer kept a).lookup k =
      if key a = k then challenge prefer (kept.lookup k) a else kept.lookup k := by
  rw [keep]
  by_cases hk : key a = k
  · subst hk
    rw [if_pos rfl]
    cases hlookup : kept.lookup (key a) with
    | none => exact AList.lookup_insert kept
    | some old =>
      dsimp only [challenge]
      split
      · exact AList.lookup_insert kept
      · exact hlookup
  · rw [if_neg hk]
    have hinsert : (kept.insert (key a) a).lookup k = kept.lookup k :=
      AList.lookup_insert_ne (Ne.symm hk)
    split
    · exact hinsert
    · split
      · exact hinsert
      · rfl

/-- **What is kept for a key.** -/
theorem lookup_foldl_keep (l : List α) (kept : AList fun _ : κ => α) (k : κ) :
    (l.foldl (keep key prefer) kept).lookup k =
      (l.filter fun a => key a = k).foldl (challenge prefer) (kept.lookup k) := by
  induction l generalizing kept with
  | nil => rfl
  | cons a l ih =>
    rw [List.foldl_cons, ih, lookup_keep]
    by_cases hk : key a = k <;> simp [hk]

/-- Every element is kept under its own key. -/
def Keyed (key : α → κ) (kept : AList fun _ : κ => α) : Prop :=
  ∀ k a, kept.lookup k = some a → key a = k

theorem keyed_foldl_keep (l : List α) : Keyed key (l.foldl (keep key prefer) ∅) := by
  intro k a hlookup
  rw [lookup_foldl_keep, AList.lookup_empty] at hlookup
  rcases mem_of_foldl_challenge hlookup with hl | hnone
  · simpa using (List.mem_filter.mp hl).2
  · cases hnone

theorem mem_values (hkeyed : Keyed key kept) :
    a ∈ values kept ↔ kept.lookup (key a) = some a := by
  rw [values, List.mem_map]
  constructor
  · rintro ⟨⟨k, b⟩, hmem, rfl⟩
    have hlookup : kept.lookup k = some b := AList.mem_lookup_iff.mpr hmem
    rwa [hkeyed k b hlookup]
  · intro hlookup
    exact ⟨⟨key a, a⟩, AList.mem_lookup_iff.mp hlookup, rfl⟩

/-- No two values have one key. -/
theorem nodup_values (hkeyed : Keyed key kept) : ((values kept).map key).Nodup := by
  have hkeys : (values kept).map key = kept.keys := by
    rw [values, List.map_map, AList.keys, List.keys]
    refine List.map_congr_left fun entry hmem => ?_
    exact hkeyed entry.1 entry.2 (AList.mem_lookup_iff.mpr hmem)
  rw [hkeys]
  exact kept.keys_nodup

end Keep

end KeyedFold
