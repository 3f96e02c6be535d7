import Mathlib.Algebra.Group.Nat.Defs
import Mathlib.Data.List.Basic
import Mathlib.Data.List.TakeWhile

/-!
# JSON texts

JSON values, the compact text a writer makes of one, and a reader of texts. The writer escapes what
JSON requires and nothing else, so no control character occurs in a text it makes. The reader
accepts the whole grammar with white space wherever it may stand, refuses lone surrogates and
nesting beyond a limit, and keeps the members of an object in order, repeated names included.

Integers that fit 64 bits are kept; any other number is kept as its text, and `inRange` says which
of those the reader accepts.

## Main results

* `Json.parse_text` — what is written is read back
* `Json.printable_text` — a written text has no control character, hence no line feed
-/

/-- A JSON number: a 64-bit integer, or anything else as it is spelled. -/
inductive Json.Number
  | unsigned (n : UInt64)
  /-- `-n`, for `n` from `1` to `2 ^ 63`. -/
  | negative (n : ℕ)
  | float (spelling : List Char)
  deriving DecidableEq, Repr

/-- A JSON value; an object is the list of its members. -/
inductive Json
  | null
  | bool (b : Bool)
  | num (n : Json.Number)
  | str (s : String)
  | arr (elements : List Json)
  | obj (members : List (String × Json))
  deriving Repr

namespace Json

/-! ## Writing -/

/-- A character inside a string literal. -/
def escapeChar (c : Char) : List Char :=
  if c = '"' then ['\\', '"']
  else if c = '\\' then ['\\', '\\']
  else if c = '\x08' then ['\\', 'b']
  else if c = '\t' then ['\\', 't']
  else if c = '\n' then ['\\', 'n']
  else if c = '\x0c' then ['\\', 'f']
  else if c = '\r' then ['\\', 'r']
  else if c.toNat < 0x20 then
    ['\\', 'u', '0', '0', Nat.digitChar (c.toNat / 16), Nat.digitChar (c.toNat % 16)]
  else [c]

/-- A string literal. -/
def quote (s : String) : List Char := '"' :: s.toList.flatMap escapeChar ++ ['"']

def Number.text : Number → List Char
  | .unsigned n => Nat.toDigits 10 n.toNat
  | .negative n => '-' :: Nat.toDigits 10 n
  | .float spelling => spelling

mutual

/-- The compact text of a value. -/
def text : Json → List Char
  | .null => ['n', 'u', 'l', 'l']
  | .bool true => ['t', 'r', 'u', 'e']
  | .bool false => ['f', 'a', 'l', 's', 'e']
  | .num n => n.text
  | .str s => quote s
  | .arr [] => ['[', ']']
  | .arr (v :: vs) => '[' :: (text v ++ elementsText vs)
  | .obj [] => ['\x7b', '\x7d']
  | .obj ((k, v) :: ms) => '\x7b' :: (quote k ++ ':' :: (text v ++ membersText ms))

/-- The elements after the first one, and the closing bracket. -/
def elementsText : List Json → List Char
  | [] => [']']
  | v :: vs => ',' :: (text v ++ elementsText vs)

/-- The members after the first one, and the closing brace. -/
def membersText : List (String × Json) → List Char
  | [] => ['\x7d']
  | (k, v) :: ms => ',' :: (quote k ++ ':' :: (text v ++ membersText ms))

end

/-! ## Reading -/

/-- JSON's white space. -/
def isSpace (c : Char) : Bool := c = ' ' || c = '\n' || c = '\t' || c = '\r'

def skipSpace (cs : List Char) : List Char := cs.dropWhile isSpace

def hexVal (c : Char) : Option ℕ :=
  if '0' ≤ c ∧ c ≤ '9' then some (c.toNat - 48)
  else if 'a' ≤ c ∧ c ≤ 'f' then some (c.toNat - 87)
  else if 'A' ≤ c ∧ c ≤ 'F' then some (c.toNat - 55)
  else none

/-- Four hexadecimal digits. -/
def parseHex : List Char → Option (ℕ × List Char)
  | a :: b :: c :: d :: r => do
    let a ← hexVal a
    let b ← hexVal b
    let c ← hexVal c
    let d ← hexVal d
    some (((a * 16 + b) * 16 + c) * 16 + d, r)
  | _ => none

/-- The rest of a unicode escape; two surrogates make one character. -/
def parseUnicode (cs : List Char) : Option (Char × List Char) := do
  let (n, r) ← parseHex cs
  if 0xdc00 ≤ n ∧ n ≤ 0xdfff then none
  else if 0xd800 ≤ n ∧ n ≤ 0xdbff then
    match r with
    | '\\' :: 'u' :: r => do
      let (m, r) ← parseHex r
      if 0xdc00 ≤ m ∧ m ≤ 0xdfff then
        some (Char.ofNat (0x10000 + (n - 0xd800) * 0x400 + (m - 0xdc00)), r)
      else none
    | _ => none
  else some (Char.ofNat n, r)

/-- What follows a backslash. -/
def parseEscape : List Char → Option (Char × List Char)
  | [] => none
  | c :: r =>
    if c = '"' then some ('"', r)
    else if c = '\\' then some ('\\', r)
    else if c = '/' then some ('/', r)
    else if c = 'b' then some ('\x08', r)
    else if c = 'f' then some ('\x0c', r)
    else if c = 'n' then some ('\n', r)
    else if c = 'r' then some ('\r', r)
    else if c = 't' then some ('\t', r)
    else if c = 'u' then parseUnicode r
    else none

/-- The characters of a string literal up to its closing quote. -/
def parseChars : ℕ → List Char → Option (List Char × List Char)
  | 0, _ => none
  | _ + 1, [] => none
  | n + 1, c :: r =>
    if c = '"' then some ([], r)
    else if c = '\\' then do
      let (c, r) ← parseEscape r
      let (cs, r) ← parseChars n r
      some (c :: cs, r)
    else if c.toNat < 0x20 then none
    else do
      let (cs, r) ← parseChars n r
      some (c :: cs, r)

/-- The digits at the head of a text. -/
def digits (cs : List Char) : List Char × List Char :=
  (cs.takeWhile Char.isDigit, cs.dropWhile Char.isDigit)

/-- A fraction, if there is one, with its point. -/
def parseFraction : List Char → Option (List Char × List Char)
  | '.' :: r =>
    let (ds, r) := digits r
    if ds = [] then none else some ('.' :: ds, r)
  | cs => some ([], cs)

/-- The sign of a number: a minus or nothing. -/
def parseMinus : List Char → List Char × List Char
  | '-' :: r => (['-'], r)
  | r => ([], r)

/-- The sign of an exponent. -/
def parseSign : List Char → List Char × List Char
  | '+' :: r => (['+'], r)
  | '-' :: r => (['-'], r)
  | r => ([], r)

/-- An exponent, if there is one, with its letter and sign. -/
def parseExponent : List Char → Option (List Char × List Char)
  | c :: r =>
    if c = 'e' ∨ c = 'E' then
      let (sign, r) := parseSign r
      let (ds, r) := digits r
      if ds = [] then none else some (c :: (sign ++ ds), r)
    else some ([], c :: r)
  | [] => some ([], [])

section

variable (inRange : List Char → Bool)

/-- The number with this sign, integer part, fraction and exponent. -/
def readNumber (sign int frac exp : List Char) : Option Number :=
  let spelling := sign ++ int ++ frac ++ exp
  let n := Nat.ofDigitChars 10 int 0
  if frac = [] ∧ exp = [] ∧ sign = [] ∧ n < UInt64.size then some (.unsigned (UInt64.ofNat n))
  else if frac = [] ∧ exp = [] ∧ sign ≠ [] ∧ 0 < n ∧ n ≤ 9223372036854775808 then
    some (.negative n)
  else if inRange spelling then some (.float spelling)
  else none

/-- A number; the integer part has no needless zero. -/
def parseNumber (cs : List Char) : Option (Number × List Char) := do
  let (sign, r) := parseMinus cs
  let (int, r) := digits r
  if int = [] ∨ (int.head? = some '0' ∧ 1 < int.length) then none
  else do
    let (frac, r) ← parseFraction r
    let (exp, r) ← parseExponent r
    let n ← readNumber inRange sign int frac exp
    some (n, r)

mutual

/-- A value, with leading white space. `depth` is how many more levels may be entered, and one. -/
def parseValue : ℕ → ℕ → List Char → Option (Json × List Char)
  | 0, _, _ => none
  | n + 1, depth, cs =>
    match skipSpace cs with
    | [] => none
    | c :: r =>
      if c = 'n' then
        match r with
        | 'u' :: 'l' :: 'l' :: r => some (.null, r)
        | _ => none
      else if c = 't' then
        match r with
        | 'r' :: 'u' :: 'e' :: r => some (.bool true, r)
        | _ => none
      else if c = 'f' then
        match r with
        | 'a' :: 'l' :: 's' :: 'e' :: r => some (.bool false, r)
        | _ => none
      else if c = '"' then do
        let (s, r) ← parseChars n r
        some (.str (String.ofList s), r)
      else if c = '[' then
        match depth with
        | depth + 2 =>
          match skipSpace r with
          | ']' :: r => some (.arr [], r)
          | _ => do
            let (v, r) ← parseValue n (depth + 1) r
            let (vs, r) ← parseElements n (depth + 1) r
            some (.arr (v :: vs), r)
        | _ => none
      else if c = '\x7b' then
        match depth with
        | depth + 2 =>
          match skipSpace r with
          | '\x7d' :: r => some (.obj [], r)
          | _ => do
            let (m, r) ← parseMember n (depth + 1) r
            let (ms, r) ← parseMembers n (depth + 1) r
            some (.obj (m :: ms), r)
        | _ => none
      else do
        let (k, r) ← parseNumber inRange (c :: r)
        some (.num k, r)

/-- The elements after the first one, and the closing bracket. -/
def parseElements : ℕ → ℕ → List Char → Option (List Json × List Char)
  | 0, _, _ => none
  | n + 1, depth, cs =>
    match skipSpace cs with
    | ']' :: r => some ([], r)
    | ',' :: r => do
      let (v, r) ← parseValue n depth r
      let (vs, r) ← parseElements n depth r
      some (v :: vs, r)
    | _ => none

/-- A member of an object. -/
def parseMember : ℕ → ℕ → List Char → Option ((String × Json) × List Char)
  | 0, _, _ => none
  | n + 1, depth, cs =>
    match skipSpace cs with
    | '"' :: r => do
      let (k, r) ← parseChars n r
      match skipSpace r with
      | ':' :: r => do
        let (v, r) ← parseValue n depth r
        some ((String.ofList k, v), r)
      | _ => none
    | _ => none

/-- The members after the first one, and the closing brace. -/
def parseMembers : ℕ → ℕ → List Char → Option (List (String × Json) × List Char)
  | 0, _, _ => none
  | n + 1, depth, cs =>
    match skipSpace cs with
    | '\x7d' :: r => some ([], r)
    | ',' :: r => do
      let (m, r) ← parseMember n depth r
      let (ms, r) ← parseMembers n depth r
      some (m :: ms, r)
    | _ => none

end

/-- How deeply a text may be nested, and one. -/
def depthLimit : ℕ := 128

/-- The value of a whole text. -/
def parse (cs : List Char) : Option Json := do
  let (v, r) ← parseValue inRange (cs.length + 1) depthLimit cs
  if skipSpace r = [] then some v else none

end

/-! ## Strings are read back -/

theorem skipSpace_cons {c : Char} {r : List Char} (h : isSpace c = false) :
    skipSpace (c :: r) = c :: r := by
  simp [skipSpace, h]

theorem hexVal_digitChar : ∀ k < 16, hexVal (Nat.digitChar k) = some k := by decide

theorem parseUnicode_control {k : ℕ} (h : k < 0x20) (r : List Char) :
    parseUnicode ('0' :: '0' :: Nat.digitChar (k / 16) :: Nat.digitChar (k % 16) :: r) =
      some (Char.ofNat k, r) := by
  have hzero : hexVal '0' = some 0 := by decide
  have hhigh := hexVal_digitChar (k / 16) (by omega)
  have hlow := hexVal_digitChar (k % 16) (by omega)
  have hk : k / 16 * 16 + k % 16 = k := by omega
  have hsmall : ¬ (0xdc00 ≤ k ∧ k ≤ 0xdfff) ∧ ¬ (0xd800 ≤ k ∧ k ≤ 0xdbff) := by omega
  simp [parseUnicode, parseHex, hzero, hhigh, hlow, hk, hsmall.1, hsmall.2]

/-- How a character is written: with a short escape, as a unicode escape, or as it is. -/
inductive Escapes (c : Char) : List Char → Prop
  | short (e : Char) (he : 0x20 ≤ e.toNat) (hread : ∀ r, parseEscape (e :: r) = some (c, r)) :
    Escapes c ['\\', e]
  | control (hc : c.toNat < 0x20) :
    Escapes c ['\\', 'u', '0', '0', Nat.digitChar (c.toNat / 16), Nat.digitChar (c.toNat % 16)]
  | plain (hquote : c ≠ '"') (hback : c ≠ '\\') (hc : ¬ c.toNat < 0x20) : Escapes c [c]

theorem escapes_escapeChar (c : Char) : Escapes c (escapeChar c) := by
  by_cases h1 : c = '"'
  · subst h1
    exact .short '"' (by decide) fun _ => rfl
  by_cases h2 : c = '\\'
  · subst h2
    exact .short '\\' (by decide) fun _ => rfl
  by_cases h3 : c = '\x08'
  · subst h3
    exact .short 'b' (by decide) fun _ => rfl
  by_cases h4 : c = '\t'
  · subst h4
    exact .short 't' (by decide) fun _ => rfl
  by_cases h5 : c = '\n'
  · subst h5
    exact .short 'n' (by decide) fun _ => rfl
  by_cases h6 : c = '\x0c'
  · subst h6
    exact .short 'f' (by decide) fun _ => rfl
  by_cases h7 : c = '\r'
  · subst h7
    exact .short 'r' (by decide) fun _ => rfl
  rw [escapeChar, if_neg h1, if_neg h2, if_neg h3, if_neg h4, if_neg h5, if_neg h6, if_neg h7]
  by_cases h8 : c.toNat < 0x20
  · rw [if_pos h8]
    exact .control h8
  · rw [if_neg h8]
    exact .plain h1 h2 h8

/-- An escaped character is read in one step. -/
theorem parseChars_escapeChar (n : ℕ) (c : Char) (r : List Char) :
    parseChars (n + 1) (escapeChar c ++ r) =
      (parseChars n r).map fun p => (c :: p.1, p.2) := by
  have hstep : ∀ e r', parseEscape (e :: r') = some (c, r) →
      parseChars (n + 1) ('\\' :: e :: r') = (parseChars n r).map fun p => (c :: p.1, p.2) := by
    intro e r' he
    rw [parseChars, if_neg (by decide), if_pos rfl, he]
    simp only [Option.bind_eq_bind, Option.bind_some]
    cases parseChars n r <;> rfl
  have hesc := escapes_escapeChar c
  generalize escapeChar c = written at hesc ⊢
  cases hesc with
  | short e he hread => exact hstep e r (hread r)
  | control hc =>
    have hunicode := parseUnicode_control hc r
    rw [Char.ofNat_toNat] at hunicode
    exact hstep 'u' _ hunicode
  | plain hquote hback hc =>
    rw [List.cons_append, List.nil_append, parseChars, if_neg hquote, if_neg hback, if_neg hc]
    simp only [Option.bind_eq_bind]
    cases parseChars n r <;> rfl

theorem parseChars_flatMap {n : ℕ} {cs : List Char} (r : List Char) (h : cs.length < n) :
    parseChars n (cs.flatMap escapeChar ++ '"' :: r) = some (cs, r) := by
  induction cs generalizing n with
  | nil =>
    cases n with
    | zero => cases h
    | succ n => simp [parseChars]
  | cons c cs ih =>
    cases n with
    | zero => cases h
    | succ n =>
      rw [List.flatMap_cons, List.append_assoc, parseChars_escapeChar,
        ih (Nat.lt_of_succ_lt_succ h)]
      rfl

theorem length_flatMap_escapeChar (cs : List Char) :
    cs.length ≤ (cs.flatMap escapeChar).length := by
  induction cs with
  | nil => exact Nat.le_refl 0
  | cons c cs ih =>
    have hone : 1 ≤ (escapeChar c).length := by
      have hesc := escapes_escapeChar c
      generalize escapeChar c = written at hesc ⊢
      cases hesc <;> exact Nat.succ_pos _
    rw [List.flatMap_cons, List.length_append, List.length_cons]
    omega

/-! ## Numbers are read back -/

/-- What follows a number does not go on with it. -/
def Ends (r : List Char) : Prop :=
  ∀ c ∈ r.head?, c.isDigit = false ∧ c ≠ '.' ∧ c ≠ 'e' ∧ c ≠ 'E'

theorem ends_cons {c : Char} {r : List Char}
    (h : c.isDigit = false ∧ c ≠ '.' ∧ c ≠ 'e' ∧ c ≠ 'E') : Ends (c :: r) := by
  intro d hd
  obtain rfl : c = d := by simpa using hd
  exact h

theorem ends_nil : Ends [] := by
  intro c hc
  cases hc

theorem digits_append {ds r : List Char} (hds : ∀ c ∈ ds, c.isDigit = true) (hr : Ends r) :
    digits (ds ++ r) = (ds, r) := by
  have hstop : r.takeWhile Char.isDigit = [] ∧ r.dropWhile Char.isDigit = r := by
    cases r with
    | nil => simp
    | cons c r => simp [(hr c (by simp)).1]
  rw [digits, List.takeWhile_append_of_pos hds, List.dropWhile_append_of_pos hds, hstop.1, hstop.2,
    List.append_nil]

theorem ofDigitChars_lt {ds : List Char} (h : ∀ c ∈ ds, c.isDigit = true) :
    Nat.ofDigitChars 10 ds 0 < 10 ^ ds.length := by
  induction ds with
  | nil => simp
  | cons c ds ih =>
    have hdigit : c.toNat - '0'.toNat < 10 := by
      have hc := h c List.mem_cons_self
      have hle : c.toNat ≤ 57 := by
        simp only [Char.isDigit, Bool.and_eq_true, decide_eq_true_eq] at hc
        exact hc.2
      have hzero : '0'.toNat = 48 := rfl
      omega
    have hrest := ih fun d hd => h d (List.mem_cons_of_mem c hd)
    rw [Nat.ofDigitChars_cons, Nat.ofDigitChars_eq_ofDigitChars_zero, Nat.mul_zero, Nat.zero_add,
      List.length_cons, Nat.pow_succ]
    calc 10 ^ ds.length * (c.toNat - '0'.toNat) + Nat.ofDigitChars 10 ds 0
        < 10 ^ ds.length * (c.toNat - '0'.toNat) + 10 ^ ds.length := by omega
      _ = 10 ^ ds.length * (c.toNat - '0'.toNat + 1) := by rw [Nat.mul_succ]
      _ ≤ 10 ^ ds.length * 10 := Nat.mul_le_mul_left _ hdigit

/-- A number is written without a needless zero. -/
theorem length_toDigits_of_head {n : ℕ} (h : (Nat.toDigits 10 n).head? = some '0') :
    (Nat.toDigits 10 n).length ≤ 1 := by
  have hdigits : ∀ c ∈ Nat.toDigits 10 n, c.isDigit = true :=
    fun c hc => Nat.isDigit_of_mem_toDigits (by decide) (by decide) hc
  cases hd : Nat.toDigits 10 n with
  | nil => exact Nat.zero_le 1
  | cons c ds =>
    obtain rfl : c = '0' := by simpa [hd] using h
    have hvalue : Nat.ofDigitChars 10 ds 0 = n := by
      rw [← Nat.ofDigitChars_ten_toDigits (n := n), hd, Nat.ofDigitChars_cons]
      rfl
    have hbound : n < 10 ^ ds.length := by
      rw [← hvalue]
      exact ofDigitChars_lt fun c hc => hdigits c (hd ▸ List.mem_cons_of_mem _ hc)
    by_contra hlong
    have hpos : 0 < ds.length := by
      rw [List.length_cons] at hlong
      omega
    have hshort := (Nat.length_toDigits_le_iff (b := 10) (by decide) hpos).mpr hbound
    rw [hd, List.length_cons] at hshort
    omega

theorem parseNumber_toDigits (inRange : List Char → Bool) (n : UInt64) {r : List Char}
    (hr : Ends r) :
    parseNumber inRange (Nat.toDigits 10 n.toNat ++ r) = some (.unsigned n, r) := by
  have hdigits : ∀ c ∈ Nat.toDigits 10 n.toNat, c.isDigit = true :=
    fun c hc => Nat.isDigit_of_mem_toDigits (by decide) (by decide) hc
  have hne : Nat.toDigits 10 n.toNat ≠ [] := Nat.toDigits_ne_nil
  have hsign : parseMinus (Nat.toDigits 10 n.toNat ++ r) = ([], Nat.toDigits 10 n.toNat ++ r) := by
    cases hd : Nat.toDigits 10 n.toNat with
    | nil => exact absurd hd hne
    | cons c ds =>
      have hc := hdigits c (hd ▸ List.mem_cons_self)
      rw [List.cons_append, parseMinus]
      rintro r' heq
      obtain ⟨rfl, -⟩ := List.cons.inj heq
      exact absurd hc (by decide)
  have hzero : ¬ (Nat.toDigits 10 n.toNat = [] ∨
      ((Nat.toDigits 10 n.toNat).head? = some '0' ∧ 1 < (Nat.toDigits 10 n.toNat).length)) := by
    rintro (hnil | ⟨hhead, hlen⟩)
    · exact hne hnil
    · exact absurd (length_toDigits_of_head hhead) (Nat.not_le.mpr hlen)
  have hfraction : parseFraction r = some ([], r) := by
    cases r with
    | nil => rfl
    | cons c r =>
      rw [parseFraction]
      rintro r' heq
      obtain ⟨rfl, -⟩ := List.cons.inj heq
      exact (hr '.' rfl).2.1 rfl
  have hexponent : parseExponent r = some ([], r) := by
    cases r with
    | nil => rfl
    | cons c r =>
      obtain ⟨-, -, hlower, hupper⟩ := hr c rfl
      simp only [parseExponent, hlower, hupper, or_self, if_false]
  rw [parseNumber]
  simp only [hsign, digits_append hdigits hr, if_neg hzero, hfraction, hexponent, readNumber,
    Option.bind_eq_bind, Option.bind_some, Nat.ofDigitChars_ten_toDigits, true_and,
    if_pos n.toNat_lt_size, UInt64.ofNat_toNat]

/-! ## Values are read back -/

mutual

/-- How deeply a value is nested. -/
def depth : Json → ℕ
  | .arr vs => elementsDepth vs + 1
  | .obj ms => membersDepth ms + 1
  | _ => 0

def elementsDepth : List Json → ℕ
  | [] => 0
  | v :: vs => max (depth v) (elementsDepth vs)

def membersDepth : List (String × Json) → ℕ
  | [] => 0
  | (_, v) :: ms => max (depth v) (membersDepth ms)

end

mutual

/-- Every number of the value is unsigned. -/
def Plain : Json → Prop
  | .num (.unsigned _) => True
  | .num _ => False
  | .arr vs => ElementsPlain vs
  | .obj ms => MembersPlain ms
  | _ => True

def ElementsPlain : List Json → Prop
  | [] => True
  | v :: vs => Plain v ∧ ElementsPlain vs

def MembersPlain : List (String × Json) → Prop
  | [] => True
  | (_, v) :: ms => Plain v ∧ MembersPlain ms

end

/-- Only unsigned numbers, and nested at most so deeply. -/
structure Shallow (d : ℕ) (v : Json) : Prop where
  plain : v.Plain
  depth_le : v.depth ≤ d

theorem shallow_arr {d : ℕ} {vs : List Json} (h : ∀ v ∈ vs, Shallow d v) :
    Shallow (d + 1) (.arr vs) := by
  induction vs with
  | nil => exact ⟨trivial, Nat.le_add_left _ d⟩
  | cons v vs ih =>
    have hv := h v List.mem_cons_self
    have hvs := ih fun w hw => h w (List.mem_cons_of_mem v hw)
    exact ⟨⟨hv.plain, hvs.plain⟩,
      Nat.succ_le_succ (Nat.max_le.mpr ⟨hv.depth_le, Nat.le_of_succ_le_succ hvs.depth_le⟩)⟩

theorem shallow_obj {d : ℕ} {ms : List (String × Json)} (h : ∀ m ∈ ms, Shallow d m.2) :
    Shallow (d + 1) (.obj ms) := by
  induction ms with
  | nil => exact ⟨trivial, Nat.le_add_left _ d⟩
  | cons m ms ih =>
    have hm := h m List.mem_cons_self
    have hms := ih fun w hw => h w (List.mem_cons_of_mem m hw)
    exact ⟨⟨hm.plain, hms.plain⟩,
      Nat.succ_le_succ (Nat.max_le.mpr ⟨hm.depth_le, Nat.le_of_succ_le_succ hms.depth_le⟩)⟩

theorem shallow_null {d : ℕ} : Shallow d .null := ⟨trivial, Nat.zero_le d⟩

theorem shallow_bool {d : ℕ} (b : Bool) : Shallow d (.bool b) := ⟨trivial, Nat.zero_le d⟩

theorem shallow_unsigned {d : ℕ} (n : UInt64) : Shallow d (.num (.unsigned n)) :=
  ⟨trivial, Nat.zero_le d⟩

theorem shallow_str {d : ℕ} (s : String) : Shallow d (.str s) := ⟨trivial, Nat.zero_le d⟩

/-- A written value starts neither with white space nor with a closing bracket. -/
theorem head_text {v : Json} (h : v.Plain) :
    ∃ c cs, text v = c :: cs ∧ isSpace c = false ∧ c ≠ ']' := by
  cases v with
  | null => exact ⟨_, _, rfl, by decide, by decide⟩
  | bool b => cases b <;> exact ⟨_, _, rfl, by decide, by decide⟩
  | num n =>
    cases n with
    | unsigned n =>
      cases hd : Nat.toDigits 10 n.toNat with
      | nil => exact absurd hd Nat.toDigits_ne_nil
      | cons c cs =>
        have hc : c.isDigit = true :=
          Nat.isDigit_of_mem_toDigits (by decide) (by decide) (hd ▸ List.mem_cons_self)
        refine ⟨c, cs, hd, ?_, ?_⟩
        · simp only [isSpace, Bool.or_eq_false_iff, decide_eq_false_iff_not]
          refine ⟨⟨⟨?_, ?_⟩, ?_⟩, ?_⟩ <;> rintro rfl <;> exact absurd hc (by decide)
        · rintro rfl
          exact absurd hc (by decide)
    | _ => exact absurd h (by simp [Plain])
  | str s => exact ⟨_, _, rfl, by decide, by decide⟩
  | arr vs => cases vs <;> exact ⟨_, _, rfl, by decide, by decide⟩
  | obj ms => cases ms <;> exact ⟨_, _, rfl, by decide, by decide⟩

theorem ends_elementsText (vs : List Json) (r : List Char) : Ends (elementsText vs ++ r) := by
  cases vs <;> exact ends_cons (by decide)

theorem ends_membersText (ms : List (String × Json)) (r : List Char) :
    Ends (membersText ms ++ r) := by
  cases ms <;> exact ends_cons (by decide)

theorem quote_append (k : String) (r : List Char) :
    quote k ++ r = '"' :: (k.toList.flatMap escapeChar ++ '"' :: r) := by
  simp [quote]

theorem length_lt_quote (k : String) : k.toList.length < (quote k).length := by
  have hle := length_flatMap_escapeChar k.toList
  simp only [quote, List.length_append, List.length_cons, List.length_nil]
  omega

section

variable (inRange : List Char → Bool)

theorem parseMember_text {k : String} {v : Json} {n d : ℕ} {r : List Char}
    (hk : k.toList.length < n) (hv : parseValue inRange n d (text v ++ r) = some (v, r)) :
    parseMember inRange (n + 1) d (quote k ++ ':' :: (text v ++ r)) = some ((k, v), r) := by
  rw [parseMember, quote_append, skipSpace_cons (by decide)]
  simp only [parseChars_flatMap _ hk, Option.bind_eq_bind, Option.bind_some,
    skipSpace_cons (show isSpace ':' = false by decide), hv, String.ofList_toList]

/-- A text that starts like a number is read as one. -/
theorem parseValue_digit {n d : ℕ} {c : Char} {r : List Char} (hc : c.isDigit = true) :
    parseValue inRange (n + 1) d (c :: r) =
      (parseNumber inRange (c :: r)).map fun p => (.num p.1, p.2) := by
  have hne : ∀ c' : Char, c'.isDigit = false → c ≠ c' := by
    rintro c' hc' rfl
    exact absurd hc (by simp [hc'])
  have hspace : isSpace c = false := by
    simp only [isSpace, Bool.or_eq_false_iff, decide_eq_false_iff_not]
    exact ⟨⟨⟨hne _ rfl, hne _ rfl⟩, hne _ rfl⟩, hne _ rfl⟩
  rw [parseValue, skipSpace_cons hspace]
  simp only [if_neg (hne 'n' rfl), if_neg (hne 't' rfl), if_neg (hne 'f' rfl), if_neg (hne '"' rfl),
    if_neg (hne '[' rfl), if_neg (hne '\x7b' rfl), Option.bind_eq_bind]
  cases parseNumber inRange (c :: r) <;> rfl

theorem parseValue_string {s : String} {n d : ℕ} {r : List Char} (h : s.toList.length < n) :
    parseValue inRange (n + 1) d (quote s ++ r) = some (.str s, r) := by
  rw [quote_append, parseValue, skipSpace_cons (by decide)]
  simp only [if_neg (show '"' ≠ 'n' by decide), if_neg (show '"' ≠ 't' by decide),
    if_neg (show '"' ≠ 'f' by decide), if_true, parseChars_flatMap _ h, Option.bind_eq_bind,
    Option.bind_some, String.ofList_toList]

/-- An array with a first element. -/
theorem parseValue_array {n d : ℕ} {c : Char} {cs r r' : List Char} {v : Json} {vs : List Json}
    (hspace : isSpace c = false) (hc : c ≠ ']')
    (hv : parseValue inRange n (d + 1) (c :: cs) = some (v, r))
    (hvs : parseElements inRange n (d + 1) r = some (vs, r')) :
    parseValue inRange (n + 1) (d + 2) ('[' :: c :: cs) = some (.arr (v :: vs), r') := by
  rw [parseValue, skipSpace_cons (by decide)]
  simp only [if_neg (show '[' ≠ 'n' by decide), if_neg (show '[' ≠ 't' by decide),
    if_neg (show '[' ≠ 'f' by decide), if_neg (show '[' ≠ '"' by decide), if_true,
    skipSpace_cons hspace, Option.bind_eq_bind]
  split
  · next heq => exact absurd (List.cons.inj heq).1 hc
  · simp only [hv, Option.bind_some, hvs]

/-- An object with a first member. -/
theorem parseValue_object {n d : ℕ} {cs r r' : List Char} {m : String × Json}
    {ms : List (String × Json)}
    (hm : parseMember inRange n (d + 1) ('"' :: cs) = some (m, r))
    (hms : parseMembers inRange n (d + 1) r = some (ms, r')) :
    parseValue inRange (n + 1) (d + 2) ('\x7b' :: '"' :: cs) = some (.obj (m :: ms), r') := by
  rw [parseValue, skipSpace_cons (by decide)]
  simp only [if_neg (show '\x7b' ≠ 'n' by decide), if_neg (show '\x7b' ≠ 't' by decide),
    if_neg (show '\x7b' ≠ 'f' by decide), if_neg (show '\x7b' ≠ '"' by decide),
    if_neg (show '\x7b' ≠ '[' by decide), if_true,
    skipSpace_cons (show isSpace '"' = false by decide), Option.bind_eq_bind]
  split
  · next heq => exact absurd (List.cons.inj heq).1 (by decide)
  · simp only [hm, Option.bind_some, hms]

mutual

theorem parseValue_text : ∀ (v : Json) {n d : ℕ} {r : List Char}, v.Plain → v.depth < d →
    (text v ++ r).length < n → Ends r → parseValue inRange n d (text v ++ r) = some (v, r)
  | _, 0, _, _, _, _, hn, _ => absurd hn (Nat.not_lt_zero _)
  | .null, n + 1, d, r, _, _, _, _ => by
    simp [text, parseValue, skipSpace_cons (show isSpace 'n' = false by decide)]
  | .bool true, n + 1, d, r, _, _, _, _ => by
    simp [text, parseValue, skipSpace_cons (show isSpace 't' = false by decide)]
  | .bool false, n + 1, d, r, _, _, _, _ => by
    simp [text, parseValue, skipSpace_cons (show isSpace 'f' = false by decide)]
  | .num (.negative _), n + 1, d, r, hp, _, _, _ => absurd hp (by simp [Plain])
  | .num (.float _), n + 1, d, r, hp, _, _, _ => absurd hp (by simp [Plain])
  | .num (.unsigned k), n + 1, d, r, _, _, _, hr => by
    have hnumber := parseNumber_toDigits inRange k hr
    rw [text, Number.text]
    cases hd : Nat.toDigits 10 k.toNat with
    | nil => exact absurd hd Nat.toDigits_ne_nil
    | cons c cs =>
      have hc : c.isDigit = true :=
        Nat.isDigit_of_mem_toDigits (by decide) (by decide) (hd ▸ List.mem_cons_self)
      rw [hd] at hnumber
      rw [List.cons_append, parseValue_digit inRange hc, ← List.cons_append, hnumber]
      rfl
  | .str s, n + 1, d, r, _, _, hn, _ => by
    have hlen := length_lt_quote s
    rw [text, List.length_append] at hn
    exact parseValue_string inRange (by omega)
  | .arr [], n + 1, d + 2, r, _, hd, _, _ => by
    simp [text, parseValue, skipSpace_cons (show isSpace '[' = false by decide),
      skipSpace_cons (show isSpace ']' = false by decide)]
  | .obj [], n + 1, d + 2, r, _, hd, _, _ => by
    simp [text, parseValue, skipSpace_cons (show isSpace '\x7b' = false by decide),
      skipSpace_cons (show isSpace '\x7d' = false by decide)]
  | .arr (v :: vs), n + 1, d + 2, r, hp, hd, hn, _ => by
    rw [depth, elementsDepth] at hd
    rw [text, List.cons_append, List.append_assoc, List.length_cons] at hn
    have hv := parseValue_text v hp.1 (show v.depth < d + 1 by omega) (Nat.lt_of_succ_lt_succ hn)
      (ends_elementsText vs r)
    have hvs := parseElements_text vs (r := r) (n := n) hp.2
      (show elementsDepth vs < d + 1 by omega) (by rw [List.length_append] at hn; omega)
    obtain ⟨c, cs, htext, hspace, hc⟩ := head_text hp.1
    rw [text, List.cons_append, List.append_assoc]
    rw [htext, List.cons_append] at hv ⊢
    exact parseValue_array inRange hspace hc hv hvs
  | .obj ((k, v) :: ms), n + 1, d + 2, r, hp, hd, hn, _ => by
    have hk := length_lt_quote k
    rw [depth, membersDepth] at hd
    rw [text, List.cons_append, List.append_assoc, List.cons_append, List.append_assoc,
      List.length_cons, List.length_append, List.length_cons] at hn
    obtain ⟨n, rfl⟩ : ∃ n', n = n' + 1 := ⟨n - 1, by omega⟩
    have hv := parseValue_text v (n := n) hp.1 (show v.depth < d + 1 by omega) (by omega)
      (ends_membersText ms r)
    have hms := parseMembers_text ms (r := r) (n := n + 1) hp.2
      (show membersDepth ms < d + 1 by omega) (by rw [List.length_append] at hn; omega)
    have hm := parseMember_text inRange (show k.toList.length < n by omega) hv
    rw [text, List.cons_append, List.append_assoc, List.cons_append, List.append_assoc]
    rw [quote_append] at hm ⊢
    exact parseValue_object inRange hm hms
  | .arr _, n + 1, 0, r, _, hd, _, _ => absurd hd (Nat.not_lt_zero _)
  | .obj _, n + 1, 0, r, _, hd, _, _ => absurd hd (Nat.not_lt_zero _)
  | .arr _, n + 1, 1, r, _, hd, _, _ => by
    rw [depth] at hd
    omega
  | .obj _, n + 1, 1, r, _, hd, _, _ => by
    rw [depth] at hd
    omega

theorem parseElements_text : ∀ (vs : List Json) {n d : ℕ} {r : List Char}, ElementsPlain vs →
    elementsDepth vs < d → (elementsText vs ++ r).length < n →
      parseElements inRange n d (elementsText vs ++ r) = some (vs, r)
  | _, 0, _, _, _, _, hn => absurd hn (Nat.not_lt_zero _)
  | [], n + 1, d, r, _, _, _ => by
    rw [elementsText, List.cons_append, parseElements, skipSpace_cons (by decide)]
    rfl
  | v :: vs, n + 1, d, r, hp, hd, hn => by
    rw [elementsDepth] at hd
    rw [elementsText, List.cons_append, List.append_assoc, List.length_cons] at hn
    have hv := parseValue_text v hp.1 (show v.depth < d by omega) (Nat.lt_of_succ_lt_succ hn)
      (ends_elementsText vs r)
    have hvs := parseElements_text vs (r := r) (n := n) hp.2
      (show elementsDepth vs < d by omega) (by rw [List.length_append] at hn; omega)
    rw [elementsText, List.cons_append, List.append_assoc, parseElements,
      skipSpace_cons (by decide)]
    simp only [hv, Option.bind_eq_bind, Option.bind_some, hvs]

theorem parseMembers_text : ∀ (ms : List (String × Json)) {n d : ℕ} {r : List Char},
    MembersPlain ms → membersDepth ms < d → (membersText ms ++ r).length < n →
      parseMembers inRange n d (membersText ms ++ r) = some (ms, r)
  | _, 0, _, _, _, _, hn => absurd hn (Nat.not_lt_zero _)
  | [], n + 1, d, r, _, _, _ => by
    rw [membersText, List.cons_append, parseMembers, skipSpace_cons (by decide)]
    rfl
  | (k, v) :: ms, n + 1, d, r, hp, hd, hn => by
    have hk := length_lt_quote k
    rw [membersDepth] at hd
    rw [membersText, List.cons_append, List.append_assoc, List.cons_append, List.append_assoc,
      List.length_cons, List.length_append, List.length_cons] at hn
    obtain ⟨n, rfl⟩ : ∃ n', n = n' + 1 := ⟨n - 1, by omega⟩
    have hv := parseValue_text v (n := n) hp.1 (show v.depth < d by omega) (by omega)
      (ends_membersText ms r)
    have hms := parseMembers_text ms (r := r) (n := n + 1) hp.2
      (show membersDepth ms < d by omega) (by rw [List.length_append] at hn; omega)
    have hm := parseMember_text inRange (show k.toList.length < n by omega) hv
    rw [membersText, List.cons_append, List.append_assoc, List.cons_append, List.append_assoc,
      parseMembers, skipSpace_cons (by decide)]
    simp only [hm, Option.bind_eq_bind, Option.bind_some, hms]

end

/-- A written value is read back, also with white space after it. -/
theorem parse_text {v : Json} (hp : v.Plain) (hd : v.depth < depthLimit) (space : List Char)
    (hspace : ∀ c ∈ space, isSpace c = true) : parse inRange (text v ++ space) = some v := by
  have hends : Ends space := by
    cases space with
    | nil => exact ends_nil
    | cons c r =>
      have hc := hspace c List.mem_cons_self
      simp only [isSpace, Bool.or_eq_true, decide_eq_true_eq] at hc
      rcases hc with ((rfl | rfl) | rfl) | rfl <;> exact ends_cons (by decide)
  have hskip : skipSpace space = [] := List.dropWhile_eq_nil_iff.mpr hspace
  have hv := parseValue_text inRange v hp hd (Nat.lt_succ_self _) hends
  simp only [parse, hv, Option.bind_eq_bind, Option.bind_some, hskip, if_true]

end

/-! ## How a text ends -/

theorem membersText_eq_append (ms : List (String × Json)) :
    ∃ cs, membersText ms = cs ++ ['\x7d'] := by
  induction ms with
  | nil => exact ⟨[], rfl⟩
  | cons m ms ih =>
    obtain ⟨cs, hcs⟩ := ih
    exact ⟨',' :: (quote m.1 ++ ':' :: (text m.2 ++ cs)), by rw [membersText, hcs]; simp⟩

/-- The text of an object ends with its closing brace. -/
theorem text_obj_eq_append (ms : List (String × Json)) : ∃ cs, text (.obj ms) = cs ++ ['\x7d'] := by
  cases ms with
  | nil => exact ⟨['\x7b'], rfl⟩
  | cons m ms =>
    obtain ⟨cs, hcs⟩ := membersText_eq_append ms
    exact ⟨'\x7b' :: (quote m.1 ++ ':' :: (text m.2 ++ cs)), by rw [text, hcs]; simp⟩

/-! ## No control character is written -/

/-- No character of the text is a control character. -/
def Printable (cs : List Char) : Prop := ∀ c ∈ cs, 0x20 ≤ c.toNat

instance (cs : List Char) : Decidable (Printable cs) := List.decidableBAll _ cs

theorem printable_nil : Printable [] := fun _ hc => nomatch hc

theorem printable_cons {c : Char} {cs : List Char} (hc : 0x20 ≤ c.toNat) (hcs : Printable cs) :
    Printable (c :: cs) :=
  List.forall_mem_cons.mpr ⟨hc, hcs⟩

theorem printable_append {cs ds : List Char} (hcs : Printable cs) (hds : Printable ds) :
    Printable (cs ++ ds) :=
  List.forall_mem_append.mpr ⟨hcs, hds⟩

theorem printable_digitChar : ∀ k < 16, 0x20 ≤ (Nat.digitChar k).toNat := by decide

theorem printable_escapeChar (c : Char) : Printable (escapeChar c) := by
  have hesc := escapes_escapeChar c
  generalize escapeChar c = written at hesc ⊢
  cases hesc with
  | short e he hread => exact printable_cons (by decide) (printable_cons he printable_nil)
  | control hc =>
    have hhigh := printable_digitChar (c.toNat / 16) (by omega)
    have hlow := printable_digitChar (c.toNat % 16) (by omega)
    exact printable_append (show Printable ['\\', 'u', '0', '0'] by decide)
      (printable_cons hhigh (printable_cons hlow printable_nil))
  | plain hquote hback hc => exact printable_cons (Nat.le_of_not_lt hc) printable_nil

theorem printable_quote (s : String) : Printable (quote s) := by
  have hchars : Printable (s.toList.flatMap escapeChar) := by
    intro c hc
    obtain ⟨d, -, hcd⟩ := List.mem_flatMap.mp hc
    exact printable_escapeChar d c hcd
  exact printable_append (printable_cons (by decide) hchars)
    (printable_cons (by decide) printable_nil)

theorem printable_toDigits (n : ℕ) : Printable (Nat.toDigits 10 n) := by
  intro c hc
  have hdigit := Nat.isDigit_of_mem_toDigits (by decide) (by decide) hc
  simp only [Char.isDigit, Bool.and_eq_true, decide_eq_true_eq] at hdigit
  have hge : 48 ≤ c.toNat := hdigit.1
  omega

mutual

theorem printable_text : ∀ v : Json, v.Plain → Printable (text v)
  | .null, _ => by decide
  | .bool true, _ => by decide
  | .bool false, _ => by decide
  | .num (.unsigned n), _ => printable_toDigits n.toNat
  | .num (.negative _), hp => absurd hp (by simp [Plain])
  | .num (.float _), hp => absurd hp (by simp [Plain])
  | .str s, _ => printable_quote s
  | .arr [], _ => by decide
  | .arr (v :: vs), hp => by
    rw [text]
    exact printable_cons (by decide)
      (printable_append (printable_text v hp.1) (printable_elementsText vs hp.2))
  | .obj [], _ => by decide
  | .obj ((k, v) :: ms), hp => by
    rw [text]
    exact printable_cons (by decide) (printable_append (printable_quote k)
      (printable_cons (by decide)
        (printable_append (printable_text v hp.1) (printable_membersText ms hp.2))))

theorem printable_elementsText : ∀ vs : List Json, ElementsPlain vs → Printable (elementsText vs)
  | [], _ => by decide
  | v :: vs, hp => by
    rw [elementsText]
    exact printable_cons (by decide)
      (printable_append (printable_text v hp.1) (printable_elementsText vs hp.2))

theorem printable_membersText :
    ∀ ms : List (String × Json), MembersPlain ms → Printable (membersText ms)
  | [], _ => by decide
  | (k, v) :: ms, hp => by
    rw [membersText]
    exact printable_cons (by decide) (printable_append (printable_quote k)
      (printable_cons (by decide)
        (printable_append (printable_text v hp.1) (printable_membersText ms hp.2))))

end

end Json
