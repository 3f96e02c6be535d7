import Mathlib.Data.List.Basic

/-!
# Streams of lines

A stream is cut into lines at a terminator, which belongs to the line it ends; a last line may lack
it. Reading one line and cutting the whole stream are both defined, and agree.

The second half is UTF-8: the bytes of a text, and the text of bytes that have one. A line feed byte
occurs only where a line feed character does, so a text without line feeds is one line.

## Main results

* `Lines.lines_flatten` — a stream made of complete lines is cut back into them
* `Utf8.decode_encode`, `Utf8.newline_mem_encode` — texts survive, and so do their lines
-/

universe u

namespace Lines

variable {α : Type u} [DecidableEq α] (sep : α)

/-- The first line of a stream, with its terminator if it has one, and what follows. -/
def nextLine : List α → List α × List α
  | [] => ([], [])
  | a :: s => if a = sep then ([a], s) else (a :: (nextLine s).1, (nextLine s).2)

/-- All lines of a stream. -/
def lines : List α → List (List α)
  | [] => []
  | a :: s =>
    if a = sep then [a] :: lines s
    else
      match lines s with
      | [] => [[a]]
      | l :: ls => (a :: l) :: ls

/-- A complete line: nothing but its last element is a terminator. -/
def IsLine (l : List α) : Prop := ∃ body, sep ∉ body ∧ l = body ++ [sep]

variable {sep} {l s : List α}

variable (sep) in
theorem nextLine_append (s : List α) : (nextLine sep s).1 ++ (nextLine sep s).2 = s := by
  induction s with
  | nil => rfl
  | cons a s ih =>
    rw [nextLine]
    split
    · rfl
    · simpa using ih

variable (sep) in
theorem nextLine_ne_nil (h : s ≠ []) : (nextLine sep s).1 ≠ [] := by
  cases s with
  | nil => exact absurd rfl h
  | cons a s =>
    rw [nextLine]
    split <;> simp

theorem isLine_nextLine (h : sep ∈ s) : IsLine sep (nextLine sep s).1 := by
  induction s with
  | nil => cases h
  | cons a s ih =>
    rw [nextLine]
    split
    · next ha => exact ⟨[], by simp, by simp [ha]⟩
    · next ha =>
      obtain ⟨body, hbody, hline⟩ := ih ((List.mem_cons.mp h).resolve_left (Ne.symm ha))
      refine ⟨a :: body, ?_, by simp [hline]⟩
      rintro (_ | ⟨_, hmem⟩)
      · exact ha rfl
      · exact hbody hmem

theorem nextLine_isLine_append (h : IsLine sep l) (s : List α) :
    nextLine sep (l ++ s) = (l, s) := by
  obtain ⟨body, hbody, rfl⟩ := h
  induction body with
  | nil => simp [nextLine]
  | cons a body ih =>
    have ha : a ≠ sep := fun heq => hbody (heq ▸ List.mem_cons_self)
    have hrest := ih fun hmem => hbody (List.mem_cons_of_mem a hmem)
    rw [List.cons_append, List.cons_append, nextLine, if_neg ha, hrest]

/-- Reading line by line is cutting the stream. -/
theorem nextLine_isLine (h : IsLine sep l) : nextLine sep l = (l, []) := by
  simpa using nextLine_isLine_append h []

theorem lines_eq_nextLine (h : s ≠ []) :
    lines sep s = (nextLine sep s).1 :: lines sep (nextLine sep s).2 := by
  induction s with
  | nil => exact absurd rfl h
  | cons a s ih =>
    rw [lines, nextLine]
    by_cases ha : a = sep
    · simp [ha]
    · rw [if_neg ha, if_neg ha]
      cases s with
      | nil => rfl
      | cons b s => rw [ih (List.cons_ne_nil b s)]

omit [DecidableEq α] in
theorem IsLine.ne_nil (h : IsLine sep l) : l ≠ [] := by
  obtain ⟨body, -, rfl⟩ := h
  simp

omit [DecidableEq α] in
/-- What is left of a line when its end has not been read. -/
theorem IsLine.drop (h : IsLine sep l) {n : ℕ} (hn : sep ∉ l.take n) : IsLine sep (l.drop n) := by
  obtain ⟨body, hbody, rfl⟩ := h
  have hle : n ≤ body.length := by
    by_contra hlt
    have hlen : (body ++ [sep]).length ≤ n := by simp; omega
    rw [List.take_of_length_le hlen] at hn
    exact hn (by simp)
  refine ⟨body.drop n, fun hmem => hbody (List.mem_of_mem_drop hmem), ?_⟩
  exact List.drop_append_of_le_length hle

omit [DecidableEq α] in
theorem IsLine.mem (h : IsLine sep l) : sep ∈ l := by
  obtain ⟨body, -, rfl⟩ := h
  simp

omit [DecidableEq α] in
/-- A stream that has the terminator has the whole line. -/
theorem IsLine.isPrefix (h : IsLine sep l) {t : List α} (hp : s <+: l ++ t) (hmem : sep ∈ s) :
    l <+: s := by
  obtain ⟨body, hbody, rfl⟩ := h
  refine List.prefix_of_prefix_length_le (List.prefix_append _ t) hp ?_
  by_contra hlt
  have hshort : s.length ≤ body.length := by
    rw [List.length_append, List.length_singleton] at hlt
    omega
  rw [List.append_assoc] at hp
  have hpre : s <+: body := List.prefix_of_prefix_length_le hp (List.prefix_append _ _) hshort
  exact hbody (hpre.subset hmem)

omit [DecidableEq α] in
/-- Lines that are written one after another begin with those that are read from them. -/
theorem isPrefix_of_flatten {ls ms : List (List α)} (hl : ∀ l ∈ ls, IsLine sep l)
    (hm : ∀ m ∈ ms, IsLine sep m) (h : ls.flatten <+: ms.flatten) : ls <+: ms := by
  induction ls generalizing ms with
  | nil => exact List.nil_prefix
  | cons l ls ih =>
    have hline := hl l List.mem_cons_self
    cases ms with
    | nil => exact absurd (List.append_eq_nil_iff.mp (List.prefix_nil.mp h)).1 hline.ne_nil
    | cons m ms =>
      have hline' := hm m List.mem_cons_self
      rw [List.flatten_cons, List.flatten_cons] at h
      have hle : m <+: l ++ ls.flatten :=
        hline'.isPrefix h (List.mem_append_left _ hline.mem)
      have hge : l <+: m ++ ms.flatten := (List.prefix_append l _).trans h
      obtain rfl : l = m :=
        (hline.isPrefix hle hline'.mem).eq_of_length_le (hline'.isPrefix hge hline.mem).length_le
      refine List.cons_prefix_cons.mpr ⟨rfl, ih (fun x hx => hl x (List.mem_cons_of_mem _ hx))
        (fun x hx => hm x (List.mem_cons_of_mem _ hx)) ?_⟩
      exact (List.prefix_append_right_inj l).mp h

theorem lines_isLine_append (h : IsLine sep l) (s : List α) :
    lines sep (l ++ s) = l :: lines sep s := by
  have hne : l ++ s ≠ [] := by simp [h.ne_nil]
  rw [lines_eq_nextLine hne, nextLine_isLine_append h]

/-- **A stream of complete lines is cut back into them.** -/
theorem lines_flatten {ls : List (List α)} (h : ∀ l ∈ ls, IsLine sep l) (s : List α) :
    lines sep (ls.flatten ++ s) = ls ++ lines sep s := by
  induction ls with
  | nil => rfl
  | cons l ls ih =>
    have hrest := ih fun m hm => h m (List.mem_cons_of_mem l hm)
    rw [List.flatten_cons, List.append_assoc, lines_isLine_append (h l List.mem_cons_self), hrest,
      List.cons_append]

/-- What has no terminator is one line. -/
theorem lines_of_notMem (hne : s ≠ []) (h : sep ∉ s) : lines sep s = [s] := by
  induction s with
  | nil => exact absurd rfl hne
  | cons a s ih =>
    have ha : a ≠ sep := fun heq => h (heq ▸ List.mem_cons_self)
    rw [lines, if_neg ha]
    cases s with
    | nil => rfl
    | cons b s => rw [ih (List.cons_ne_nil b s) fun hmem => h (List.mem_cons_of_mem a hmem)]

/-- **What is cut off from a stream of lines** is cut into some of them and the beginning of the
next. -/
theorem getElem?_lines_prefix {ls : List (List α)} (hl : ∀ l ∈ ls, IsLine sep l)
    (h : s <+: ls.flatten) {i : ℕ} {l : List α} (hi : (lines sep s)[i]? = some l) :
    ∃ m, ls[i]? = some m ∧ l <+: m := by
  induction ls generalizing s i with
  | nil =>
    rw [List.prefix_nil.mp h] at hi
    cases hi
  | cons m ms ih =>
    have hline := hl m List.mem_cons_self
    rw [List.flatten_cons] at h
    by_cases hmem : sep ∈ s
    · obtain ⟨t, rfl⟩ := hline.isPrefix h hmem
      rw [lines_isLine_append hline] at hi
      cases i with
      | zero =>
        cases hi
        exact ⟨_, rfl, List.prefix_rfl⟩
      | succ i =>
        exact ih (fun x hx => hl x (List.mem_cons_of_mem _ hx))
          ((List.prefix_append_right_inj m).mp h) hi
    · by_cases hne : s = []
      · rw [hne] at hi
        cases hi
      rw [lines_of_notMem hne hmem] at hi
      obtain ⟨rfl, hls⟩ : i = 0 ∧ l = s := by
        cases i with
        | zero => exact ⟨rfl, (Option.some.inj hi).symm⟩
        | succ i => cases hi
      rw [hls]
      refine ⟨m, rfl, List.prefix_of_prefix_length_le h (List.prefix_append _ _) ?_⟩
      by_contra hlt
      have hwhole : m <+: s :=
        List.prefix_of_prefix_length_le (List.prefix_append _ _) h (by omega)
      exact hmem (hwhole.subset hline.mem)

end Lines

namespace Utf8

/-- The bytes of a text. -/
def encode (cs : List Char) : List UInt8 := cs.flatMap String.utf8EncodeChar

/-- The text of some bytes, if they are valid. -/
def decode (bytes : List UInt8) : Option (List Char) :=
  bytes.toByteArray.utf8Decode?.map Array.toList

theorem decode_encode (cs : List Char) : decode (encode cs) = some cs := by
  have h : (encode cs).toByteArray = cs.utf8Encode := rfl
  rw [decode, h, List.utf8Decode?_utf8Encode]
  rfl

theorem encode_of_decode {bytes : List UInt8} {cs : List Char} (h : decode bytes = some cs) :
    encode cs = bytes := by
  obtain ⟨chars, hchars, rfl⟩ := Option.map_eq_some_iff.mp h
  have hsome : bytes.toByteArray.utf8Decode?.isSome := by simp [hchars]
  have hget := ByteArray.utf8Encode_get_utf8Decode? (h := hsome)
  simp only [hchars, Option.get_some] at hget
  exact List.toByteArray_inj.mp hget

theorem encode_append (cs ds : List Char) : encode (cs ++ ds) = encode cs ++ encode ds :=
  List.flatMap_append

/-- The bytes of a text begin with those of another only where the text begins with it. -/
theorem isPrefix_of_encode {cs ds : List Char} (h : encode cs <+: encode ds) : cs <+: ds := by
  obtain ⟨rest, hrest⟩ := h
  refine List.isPrefix_of_utf8Encode_append_eq_utf8Encode rest.toByteArray ?_
  have hbytes : cs.utf8Encode ++ rest.toByteArray = (encode cs ++ rest).toByteArray :=
    List.toByteArray_append.symm
  rw [hbytes, hrest]
  rfl

/-- A line feed byte belongs to a line feed character. -/
theorem newline_mem_encodeChar {c : Char} (h : 0x0a ∈ String.utf8EncodeChar c) : c = '\n' := by
  have hbyte : ∀ n < 256, (0x0a : UInt8) = UInt8.ofNat n → n = 10 := by
    intro n hn heq
    have hval := congrArg UInt8.toNat heq
    rw [UInt8.toNat_ofNat_of_lt' hn] at hval
    exact hval.symm
  simp only [String.utf8EncodeChar] at h
  split_ifs at h with h1 h2 h3
  · have hval := hbyte c.val.toNat (by omega) (List.mem_singleton.mp h)
    exact Char.ext (UInt32.toNat_inj.mp hval)
  -- every byte of a longer encoding is at least `0x80`
  all_goals
    simp only [List.mem_cons, List.not_mem_nil, or_false] at h
    have hlarge : ∀ n, 0x80 ≤ n → n < 256 → (0x0a : UInt8) ≠ UInt8.ofNat n := by
      intro n hge hlt heq
      have hten := hbyte n hlt heq
      omega
  · rcases h with h | h <;> exact absurd h (hlarge _ (by omega) (by omega))
  · rcases h with h | h | h <;> exact absurd h (hlarge _ (by omega) (by omega))
  · rcases h with h | h | h | h <;> exact absurd h (hlarge _ (by omega) (by omega))

theorem newline_mem_encode {cs : List Char} : 0x0a ∈ encode cs ↔ '\n' ∈ cs := by
  constructor
  · intro h
    obtain ⟨c, hc, hmem⟩ := List.mem_flatMap.mp h
    exact newline_mem_encodeChar hmem ▸ hc
  · intro h
    exact List.mem_flatMap.mpr ⟨'\n', h, by decide⟩

/-- The bytes of a text without line feeds, ended by a line feed, are one line. -/
theorem isLine_encode {cs : List Char} (h : '\n' ∉ cs) :
    Lines.IsLine 0x0a (encode (cs ++ ['\n'])) := by
  refine ⟨encode cs, fun hmem => h (newline_mem_encode.mp hmem), ?_⟩
  rw [encode_append]
  rfl

end Utf8
