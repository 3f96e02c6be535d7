import Mathlib.Tactic.SplitIfs
import Nullxes.Library.Json

/-!
# JSON texts that are cut off

The reader looks no further than the value that it reads, except that a number goes on as long as
it can. So what it reads of a text it reads of every longer one, if it did not stop at the end of
the text; and an object ends with its brace. Therefore no part of the text of an object that lacks
its end is a text.

## Main results

* `Json.parseValue_append` — what is read does not depend on what follows it
* `Json.parse_prefix` — the text of an object that is cut off is refused
-/

namespace Json

variable {q : List Char}

/-! ## Branches -/

section

variable {α : Type} {z z' : α × List Char}

/-- A branch is read on as each of its two sides is. -/
theorem ite_append {p : Prop} [Decidable p] {x y x' y' : Option (α × List Char)}
    (hx : x = some z → x' = some z') (hy : y = some z → y' = some z')
    (h : (if p then x else y) = some z) : (if p then x' else y') = some z' := by
  by_cases hp : p
  · rw [if_pos hp] at h ⊢
    exact hx h
  · rw [if_neg hp] at h ⊢
    exact hy h

theorem none_append {x : Option (α × List Char)} (h : none = some z) : x = some z' := by
  cases h

theorem some_append {a b : α} {cs r : List Char} (h : some (a, cs) = some (b, r)) :
    some (a, cs ++ q) = some (b, r ++ q) := by
  cases h
  rfl

end

/-! ## Strings -/

theorem parseHex_append {cs r : List Char} {n : ℕ} (h : parseHex cs = some (n, r)) :
    parseHex (cs ++ q) = some (n, r ++ q) := by
  match cs with
  | a :: b :: c :: d :: cs =>
    simp only [parseHex, List.cons_append, Option.bind_eq_bind, Option.bind_eq_some_iff,
      Option.some.injEq, Prod.mk.injEq] at h ⊢
    obtain ⟨a', ha, b', hb, c', hc, d', hd, rfl, rfl⟩ := h
    exact ⟨a', ha, b', hb, c', hc, d', hd, rfl, rfl⟩
  | [] | [_] | [_, _] | [_, _, _] => cases h

theorem parseUnicode_append {cs r : List Char} {c : Char} (h : parseUnicode cs = some (c, r)) :
    parseUnicode (cs ++ q) = some (c, r ++ q) := by
  simp only [parseUnicode, Option.bind_eq_bind, Option.bind_eq_some_iff] at h ⊢
  obtain ⟨⟨n, s⟩, hhex, h⟩ := h
  refine ⟨(n, s ++ q), parseHex_append hhex, ?_⟩
  dsimp only at h ⊢
  refine ite_append none_append (ite_append (fun h => ?_) some_append) h
  split at h
  next s' =>
    simp only [List.cons_append, Option.bind_eq_some_iff] at h ⊢
    obtain ⟨⟨m, s''⟩, hhex, h⟩ := h
    exact ⟨(m, s'' ++ q), parseHex_append hhex, ite_append some_append none_append h⟩
  · cases h

theorem parseEscape_append {cs r : List Char} {c : Char} (h : parseEscape cs = some (c, r)) :
    parseEscape (cs ++ q) = some (c, r ++ q) := by
  match cs with
  | [] => cases h
  | d :: cs =>
    rw [List.cons_append]
    rw [parseEscape] at h ⊢
    -- Only a unicode escape reads on.
    revert h
    iterate 8 refine ite_append some_append ?_
    exact ite_append parseUnicode_append none_append

theorem parseChars_append {n n' : ℕ} {cs r s : List Char} (h : parseChars n cs = some (s, r))
    (hn : n ≤ n') : parseChars n' (cs ++ q) = some (s, r ++ q) := by
  induction n generalizing n' cs s r with
  | zero => cases h
  | succ n ih =>
    obtain ⟨n', rfl⟩ : ∃ m, n' = m + 1 := ⟨n' - 1, by omega⟩
    have hn : n ≤ n' := Nat.le_of_succ_le_succ hn
    match cs with
    | [] => cases h
    | c :: cs =>
      rw [List.cons_append]
      rw [parseChars] at h ⊢
      refine ite_append some_append (ite_append (fun h => ?_) (ite_append none_append
        fun h => ?_)) h
      · obtain ⟨⟨d, r₁⟩, hescape, h⟩ := Option.bind_eq_some_iff.mp h
        obtain ⟨⟨ds, r₂⟩, hchars, h⟩ := Option.bind_eq_some_iff.mp h
        rw [parseEscape_append hescape]
        dsimp only [Option.bind_eq_bind, Option.bind_some]
        rw [ih hchars hn]
        exact some_append h
      · obtain ⟨⟨ds, r₁⟩, hchars, h⟩ := Option.bind_eq_some_iff.mp h
        rw [ih hchars hn]
        exact some_append h

/-! ## Numbers -/

/-- Digits that something stands behind. -/
theorem digits_append_of_ne_nil {cs : List Char} (h : (digits cs).2 ≠ []) :
    digits (cs ++ q) = ((digits cs).1, (digits cs).2 ++ q) := by
  have hdrop : cs.dropWhile Char.isDigit ≠ [] := h
  have htake : (cs.takeWhile Char.isDigit).length ≠ cs.length := by
    intro hlen
    have hsplit := congrArg List.length
      (List.takeWhile_append_dropWhile (p := Char.isDigit) (l := cs))
    rw [List.length_append] at hsplit
    exact hdrop (List.length_eq_zero_iff.mp (by omega))
  rw [digits, List.takeWhile_append, if_neg htake, List.dropWhile_append,
    if_neg (by simpa using hdrop)]
  rfl

theorem parseFraction_append {cs f r : List Char} (h : parseFraction cs = some (f, r))
    (hr : r ≠ []) : parseFraction (cs ++ q) = some (f, r ++ q) := by
  unfold parseFraction at h
  split at h
  next s =>
    dsimp only at h
    split_ifs at h with hds
    cases h
    rw [List.cons_append, parseFraction]
    rw [digits_append_of_ne_nil hr]
    dsimp only
    rw [if_neg hds]
  next hpoint =>
    cases h
    cases cs with
    | nil => exact absurd rfl hr
    | cons c cs =>
      rw [List.cons_append, parseFraction]
      rintro s heq
      exact hpoint cs (by rw [(List.cons.inj heq).1])

theorem parseMinus_append {cs : List Char} (h : cs ≠ []) :
    parseMinus (cs ++ q) = ((parseMinus cs).1, (parseMinus cs).2 ++ q) := by
  match cs with
  | [] => exact absurd rfl h
  | c :: cs =>
    by_cases hc : c = '-'
    · subst hc
      rfl
    · have hno : ∀ s, parseMinus (c :: s) = ([], c :: s) := by
        intro s
        unfold parseMinus
        split
        next heq => exact absurd (List.cons.inj heq).1 hc
        · rfl
      rw [List.cons_append, hno, hno]
      rfl

theorem parseSign_append {cs : List Char} (h : cs ≠ []) :
    parseSign (cs ++ q) = ((parseSign cs).1, (parseSign cs).2 ++ q) := by
  match cs with
  | [] => exact absurd rfl h
  | c :: cs =>
    by_cases hplus : c = '+'
    · subst hplus
      rfl
    by_cases hminus : c = '-'
    · subst hminus
      rfl
    · have hno : ∀ s, parseSign (c :: s) = ([], c :: s) := by
        intro s
        unfold parseSign
        split
        next heq => exact absurd (List.cons.inj heq).1 hplus
        next heq => exact absurd (List.cons.inj heq).1 hminus
        · rfl
      rw [List.cons_append, hno, hno]
      rfl

theorem parseExponent_append {cs e r : List Char} (h : parseExponent cs = some (e, r))
    (hr : r ≠ []) : parseExponent (cs ++ q) = some (e, r ++ q) := by
  match cs with
  | [] =>
    cases h
    exact absurd rfl hr
  | c :: cs =>
    rw [List.cons_append]
    rw [parseExponent] at h ⊢
    dsimp only at h ⊢
    split_ifs at h with hc hds
    · cases h
      have hcs : cs ≠ [] := by
        rintro rfl
        exact hds rfl
      rw [if_pos hc, parseSign_append hcs, digits_append_of_ne_nil hr]
      dsimp only
      rw [if_neg hds]
    · cases h
      rw [if_neg hc]
      rfl

variable {inRange : List Char → Bool}

/-- A number that something stands behind. -/
theorem parseNumber_append {cs r : List Char} {k : Number}
    (h : parseNumber inRange cs = some (k, r)) (hr : r ≠ []) :
    parseNumber inRange (cs ++ q) = some (k, r ++ q) := by
  simp only [parseNumber, Option.bind_eq_bind] at h ⊢
  split_ifs at h with hint
  obtain ⟨⟨frac, r₁⟩, hfrac, h⟩ := Option.bind_eq_some_iff.mp h
  obtain ⟨⟨exp, r₂⟩, hexp, h⟩ := Option.bind_eq_some_iff.mp h
  obtain ⟨k', hread, h⟩ := Option.bind_eq_some_iff.mp h
  cases h
  dsimp only at hexp hfrac hread
  have hr₁ : r₁ ≠ [] := by
    rintro rfl
    cases hexp
    exact hr rfl
  have hdigits : (digits (parseMinus cs).2).2 ≠ [] := by
    intro hnil
    rw [hnil] at hfrac
    cases hfrac
    exact hr₁ rfl
  have hcs : cs ≠ [] := by
    rintro rfl
    exact hdigits rfl
  rw [parseMinus_append hcs, digits_append_of_ne_nil hdigits]
  dsimp only
  rw [if_neg hint, parseFraction_append hfrac hr₁, Option.bind_some, parseExponent_append hexp hr,
    Option.bind_some, hread]
  rfl

/-! ## Values -/

theorem skipSpace_append {cs r : List Char} {c : Char} (h : skipSpace cs = c :: r) :
    skipSpace (cs ++ q) = c :: (r ++ q) := by
  have hne : ¬ (cs.dropWhile isSpace).isEmpty := by
    rw [skipSpace] at h
    simp [h]
  rw [skipSpace, List.dropWhile_append, if_neg hne]
  rw [skipSpace] at h
  rw [h]
  rfl

/-- What comes next is something else, whatever follows. -/
theorem skipSpace_append_ne {cs : List Char} {c : Char} (hne : skipSpace cs ≠ [])
    (hc : ∀ s, skipSpace cs ≠ c :: s) (s : List Char) : skipSpace (cs ++ q) ≠ c :: s := by
  obtain ⟨c', s', hskip⟩ := List.exists_cons_of_ne_nil hne
  rw [skipSpace_append hskip]
  intro heq
  exact hc s' (by rw [hskip, (List.cons.inj heq).1])

theorem ne_nil_of_parseElements {n d : ℕ} {cs : List Char} {x : List Json × List Char}
    (h : parseElements inRange n d cs = some x) : cs ≠ [] := by
  rintro rfl
  cases n <;> rw [parseElements] at h <;> cases h

theorem ne_nil_of_parseMembers {n d : ℕ} {cs : List Char} {x : List (String × Json) × List Char}
    (h : parseMembers inRange n d cs = some x) : cs ≠ [] := by
  rintro rfl
  cases n <;> rw [parseMembers] at h <;> cases h

theorem parseValue_ne_nil {n d : ℕ} {cs : List Char} {x : Json × List Char}
    (h : parseValue inRange n d cs = some x) : skipSpace cs ≠ [] := by
  intro hnil
  cases n with
  | zero =>
    rw [parseValue] at h
    cases h
  | succ n =>
    rw [parseValue, hnil] at h
    cases h

theorem parseMember_ne_nil {n d : ℕ} {cs : List Char} {x : (String × Json) × List Char}
    (h : parseMember inRange n d cs = some x) : skipSpace cs ≠ [] := by
  intro hnil
  cases n with
  | zero =>
    rw [parseMember] at h
    cases h
  | succ n =>
    rw [parseMember, hnil] at h
    cases h

mutual

/-- **What is read does not depend on what follows it**, unless it is not an object and may go
on. -/
theorem parseValue_append {n n' d : ℕ} {cs r : List Char} {v : Json}
    (h : parseValue inRange n d cs = some (v, r)) (hn : n ≤ n')
    (hr : r ≠ [] ∨ ∃ ms, v = .obj ms) : parseValue inRange n' d (cs ++ q) = some (v, r ++ q) := by
  match n, n' with
  | 0, _ =>
    rw [parseValue] at h
    cases h
  | n + 1, 0 => exact absurd hn (Nat.not_succ_le_zero n)
  | n + 1, n' + 1 =>
    have hn : n ≤ n' := Nat.le_of_succ_le_succ hn
    rw [parseValue] at h ⊢
    match hskip : skipSpace cs with
    | [] =>
      rw [hskip] at h
      cases h
    | c :: s =>
      rw [hskip] at h
      rw [skipSpace_append hskip]
      revert h
      refine ite_append ?null (ite_append ?yes (ite_append ?no (ite_append ?string
        (ite_append ?array (ite_append ?object ?number)))))
      case null | yes | no =>
        intro h
        split at h
        · exact some_append h
        · cases h
      case string =>
        intro h
        obtain ⟨⟨ds, r₁⟩, hchars, h⟩ := Option.bind_eq_some_iff.mp h
        rw [parseChars_append hchars hn]
        exact some_append h
      case array =>
        intro h
        split at h
        · split at h
          next hclose =>
            rw [skipSpace_append hclose]
            exact some_append h
          next hopen =>
            obtain ⟨⟨v, r₁⟩, hv, h⟩ := Option.bind_eq_some_iff.mp h
            obtain ⟨⟨vs, r₂⟩, hvs, h⟩ := Option.bind_eq_some_iff.mp h
            have hr : r₁ ≠ [] := ne_nil_of_parseElements hvs
            split
            next heq => exact absurd heq (skipSpace_append_ne (parseValue_ne_nil hv) hopen _)
            · rw [parseValue_append hv hn (.inl hr)]
              dsimp only [Option.bind_eq_bind, Option.bind_some]
              rw [parseElements_append hvs hn]
              exact some_append h
        · cases h
      case object =>
        intro h
        split at h
        · split at h
          next hclose =>
            rw [skipSpace_append hclose]
            exact some_append h
          next hopen =>
            obtain ⟨⟨m, r₁⟩, hm, h⟩ := Option.bind_eq_some_iff.mp h
            obtain ⟨⟨ms, r₂⟩, hms, h⟩ := Option.bind_eq_some_iff.mp h
            have hr : r₁ ≠ [] := ne_nil_of_parseMembers hms
            split
            next heq => exact absurd heq (skipSpace_append_ne (parseMember_ne_nil hm) hopen _)
            · rw [parseMember_append hm hn hr]
              dsimp only [Option.bind_eq_bind, Option.bind_some]
              rw [parseMembers_append hms hn]
              exact some_append h
        · cases h
      case number =>
        intro h
        obtain ⟨⟨k, r₁⟩, hnumber, h⟩ := Option.bind_eq_some_iff.mp h
        have hr' : r₁ ≠ [] := by
          cases h
          exact hr.resolve_right (by simp)
        rw [← List.cons_append, parseNumber_append hnumber hr']
        exact some_append h

theorem parseElements_append {n n' d : ℕ} {cs r : List Char} {vs : List Json}
    (h : parseElements inRange n d cs = some (vs, r)) (hn : n ≤ n') :
    parseElements inRange n' d (cs ++ q) = some (vs, r ++ q) := by
  match n, n' with
  | 0, _ =>
    rw [parseElements] at h
    cases h
  | n + 1, 0 => exact absurd hn (Nat.not_succ_le_zero n)
  | n + 1, n' + 1 =>
    have hn : n ≤ n' := Nat.le_of_succ_le_succ hn
    rw [parseElements] at h ⊢
    split at h
    next hskip =>
      cases h
      rw [skipSpace_append hskip]
      rfl
    next s hskip =>
      simp only [Option.bind_eq_bind] at h
      obtain ⟨⟨v, r₁⟩, hv, h⟩ := Option.bind_eq_some_iff.mp h
      obtain ⟨⟨vs, r₂⟩, hvs, h⟩ := Option.bind_eq_some_iff.mp h
      cases h
      have hr : r₁ ≠ [] := ne_nil_of_parseElements hvs
      rw [skipSpace_append hskip]
      simp only [parseValue_append hv hn (.inl hr), parseElements_append hvs hn,
        Option.bind_eq_bind, Option.bind_some]
    · cases h

theorem parseMember_append {n n' d : ℕ} {cs r : List Char} {m : String × Json}
    (h : parseMember inRange n d cs = some (m, r)) (hn : n ≤ n') (hr : r ≠ []) :
    parseMember inRange n' d (cs ++ q) = some (m, r ++ q) := by
  match n, n' with
  | 0, _ =>
    rw [parseMember] at h
    cases h
  | n + 1, 0 => exact absurd hn (Nat.not_succ_le_zero n)
  | n + 1, n' + 1 =>
    have hn : n ≤ n' := Nat.le_of_succ_le_succ hn
    rw [parseMember] at h ⊢
    split at h
    next s hskip =>
      simp only [Option.bind_eq_bind] at h
      obtain ⟨⟨k, r₁⟩, hk, h⟩ := Option.bind_eq_some_iff.mp h
      dsimp only at h
      split at h
      next s' hskip' =>
        obtain ⟨⟨v, r₂⟩, hv, h⟩ := Option.bind_eq_some_iff.mp h
        cases h
        rw [skipSpace_append hskip]
        simp only [parseChars_append hk hn, skipSpace_append hskip',
          parseValue_append hv hn (.inl hr), Option.bind_eq_bind, Option.bind_some]
      · cases h
    · cases h

theorem parseMembers_append {n n' d : ℕ} {cs r : List Char} {ms : List (String × Json)}
    (h : parseMembers inRange n d cs = some (ms, r)) (hn : n ≤ n') :
    parseMembers inRange n' d (cs ++ q) = some (ms, r ++ q) := by
  match n, n' with
  | 0, _ =>
    rw [parseMembers] at h
    cases h
  | n + 1, 0 => exact absurd hn (Nat.not_succ_le_zero n)
  | n + 1, n' + 1 =>
    have hn : n ≤ n' := Nat.le_of_succ_le_succ hn
    rw [parseMembers] at h ⊢
    split at h
    next hskip =>
      cases h
      rw [skipSpace_append hskip]
      rfl
    next s hskip =>
      simp only [Option.bind_eq_bind] at h
      obtain ⟨⟨m, r₁⟩, hm, h⟩ := Option.bind_eq_some_iff.mp h
      obtain ⟨⟨ms, r₂⟩, hms, h⟩ := Option.bind_eq_some_iff.mp h
      cases h
      have hr : r₁ ≠ [] := ne_nil_of_parseMembers hms
      rw [skipSpace_append hskip]
      simp only [parseMember_append hm hn hr, parseMembers_append hms hn,
        Option.bind_eq_bind, Option.bind_some]
    · cases h

end

/-- What starts with a brace is an object. -/
theorem parseValue_brace {n d : ℕ} {s r : List Char} {v : Json}
    (h : parseValue inRange n d ('\x7b' :: s) = some (v, r)) : ∃ ms, v = .obj ms := by
  cases n with
  | zero =>
    rw [parseValue] at h
    cases h
  | succ n =>
    rw [parseValue, skipSpace_cons (by decide)] at h
    simp only [if_neg (show '\x7b' ≠ 'n' by decide), if_neg (show '\x7b' ≠ 't' by decide),
      if_neg (show '\x7b' ≠ 'f' by decide), if_neg (show '\x7b' ≠ '"' by decide),
      if_neg (show '\x7b' ≠ '[' by decide), if_true, Option.bind_eq_bind] at h
    split at h
    · split at h
      · cases h
        exact ⟨[], rfl⟩
      · obtain ⟨⟨m, r₁⟩, -, h⟩ := Option.bind_eq_some_iff.mp h
        obtain ⟨⟨ms, r₂⟩, -, h⟩ := Option.bind_eq_some_iff.mp h
        cases h
        exact ⟨m :: ms, rfl⟩
    · cases h

/-- **The text of an object that is cut off is refused.** -/
theorem parse_prefix {ms : List (String × Json)} (hp : (Json.obj ms).Plain)
    (hd : (Json.obj ms).depth < depthLimit) {cs : List Char} (hcs : cs <+: text (.obj ms))
    (hne : cs ≠ text (.obj ms)) : parse inRange cs = none := by
  obtain ⟨q, hq⟩ := hcs
  have hqne : q ≠ [] := by
    rintro rfl
    rw [List.append_nil] at hq
    exact hne hq
  by_contra hsome
  obtain ⟨v, hv⟩ := Option.ne_none_iff_exists'.mp hsome
  obtain ⟨⟨v', r⟩, hvalue, -⟩ := Option.bind_eq_some_iff.mp hv
  have hbrace : ∃ s, cs = '\x7b' :: s := by
    match cs with
    | [] => exact absurd rfl (parseValue_ne_nil hvalue)
    | c :: s =>
      have hhead : ∃ s', text (.obj ms) = '\x7b' :: s' := by
        cases ms <;> exact ⟨_, by rw [text]⟩
      obtain ⟨s', hs'⟩ := hhead
      rw [hs', List.cons_append] at hq
      exact ⟨s, by rw [(List.cons.inj hq).1]⟩
  obtain ⟨s, rfl⟩ := hbrace
  -- The whole text would be read like the part of it, with the rest left over.
  have hlonger : parseValue inRange ((text (.obj ms)).length + 1) depthLimit ('\x7b' :: s ++ q) =
      some (v', r ++ q) :=
    parseValue_append hvalue (by rw [← hq, List.length_append]; omega)
      (.inr (parseValue_brace hvalue))
  have hwhole := parseValue_text inRange (.obj ms) hp hd
    (n := (text (.obj ms) ++ []).length + 1) (Nat.lt_succ_self _) ends_nil
  rw [List.append_nil] at hwhole
  rw [hq, hwhole] at hlonger
  have hrest := (Prod.mk.inj (Option.some.inj hlonger)).2
  exact hqne (List.append_eq_nil_iff.mp hrest.symm).2

end Json
