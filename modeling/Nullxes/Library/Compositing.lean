import Mathlib.Data.List.Nodup

/-!
# Front-to-back compositing

A drawn element changes, at each point, the colour of what lies behind it. A list of elements is
composed front to back: the first element is the topmost one, and what no element covers shows
the background. Points and colours are arbitrary types, and an element is an arbitrary function of
both, so blending needs no arithmetic here.

## Main results

* `compose_append` — a list in front of another draws over its image
* `compose_of_clear` — elements clear at a point do not matter there
* `compose_flatMap_of_alone` — where all groups but one are clear, that one is what is seen
-/

universe u v

namespace Compositing

variable {P : Type u} {γ : Type v}

/-- What an element does at a point to the colour behind it. -/
abbrev Ink (P : Type u) (γ : Type v) := P → γ → γ

/-- `e` leaves the point alone. -/
def Clear (e : Ink P γ) (p : P) : Prop := ∀ c, e p c = c

/-- The image of a list of elements over a background, the first element topmost. -/
def compose (es : List (Ink P γ)) (bg : γ) (p : P) : γ := es.foldr (fun e c => e p c) bg

@[simp] theorem compose_nil (bg : γ) (p : P) : compose [] bg p = bg := rfl

@[simp] theorem compose_cons (e : Ink P γ) (es : List (Ink P γ)) (bg : γ) (p : P) :
    compose (e :: es) bg p = e p (compose es bg p) := rfl

theorem compose_append (es fs : List (Ink P γ)) (bg : γ) (p : P) :
    compose (es ++ fs) bg p = compose es (compose fs bg p) p := List.foldr_append

theorem compose_of_clear {es : List (Ink P γ)} {p : P} (h : ∀ e ∈ es, Clear e p) (bg : γ) :
    compose es bg p = bg := by
  induction es with
  | nil => rfl
  | cons e es ih =>
    rw [compose_cons, h e (by simp), ih fun f hf => h f (List.mem_cons_of_mem e hf)]

theorem compose_flatMap_of_clear {ι : Type*} {l : List ι} {es : ι → List (Ink P γ)} {p : P}
    (h : ∀ a ∈ l, ∀ e ∈ es a, Clear e p) (bg : γ) : compose (l.flatMap es) bg p = bg := by
  refine compose_of_clear (fun e he => ?_) bg
  obtain ⟨a, ha, hea⟩ := List.mem_flatMap.mp he
  exact h a ha e hea

/-- Where all groups but one are clear, that one is what is seen. -/
theorem compose_flatMap_of_alone {ι : Type*} {l : List ι} (hl : l.Nodup) {a : ι} (ha : a ∈ l)
    {es : ι → List (Ink P γ)} {p : P} (h : ∀ b ∈ l, b ≠ a → ∀ e ∈ es b, Clear e p) (bg : γ) :
    compose (l.flatMap es) bg p = compose (es a) bg p := by
  obtain ⟨s, t, rfl⟩ := List.append_of_mem ha
  have hne : ∀ b ∈ s ++ t, b ≠ a := by
    have hcons := (List.nodup_middle.mp hl)
    intro b hb hba
    exact (List.nodup_cons.mp hcons).1 (hba ▸ hb)
  have hs : ∀ b ∈ s, ∀ e ∈ es b, Clear e p := fun b hb =>
    h b (List.mem_append_left _ hb) (hne b (List.mem_append_left _ hb))
  have ht : ∀ b ∈ t, ∀ e ∈ es b, Clear e p := fun b hb =>
    h b (List.mem_append_right _ (List.mem_cons_of_mem _ hb)) (hne b (List.mem_append_right _ hb))
  rw [List.flatMap_append, List.flatMap_cons, compose_append, compose_append,
    compose_flatMap_of_clear ht, compose_flatMap_of_clear hs]

end Compositing
