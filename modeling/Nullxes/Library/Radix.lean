import Mathlib.Data.Nat.Notation
import Mathlib.Tactic.Ring

/-!
# Numbers in a radix

The parser of unsigned integers: an optional plus sign and at least one digit, of either case, read
from the left with checked arithmetic. What it accepts is a grammar together with a bound on the
value, and the bound is one on the digits after the leading zeros if it is a power of the radix.

## Main definitions

* `Radix.toDigit`, `Radix.fromStrRadix` — a digit, and the parser
* `Radix.value` — what digits stand for

## Main results

* `Radix.fromStrRadix_eq_some_iff` — what is accepted
* `Radix.value_lt_pow_iff` — a bound on the value is one on the digits
-/

namespace Radix

/-- What a character stands for in radix 36; `36` is no digit. -/
def charValue (c : Char) : ℕ :=
  if '0'.toNat ≤ c.toNat ∧ c.toNat ≤ '9'.toNat then c.toNat - '0'.toNat
  else if 'a'.toNat ≤ c.toNat ∧ c.toNat ≤ 'z'.toNat then c.toNat - 'a'.toNat + 10
  else if 'A'.toNat ≤ c.toNat ∧ c.toNat ≤ 'Z'.toNat then c.toNat - 'A'.toNat + 10
  else 36

/-- `char::to_digit`, for a radix up to 36. -/
def toDigit (c : Char) (radix : ℕ) : Option ℕ :=
  if charValue c < radix then some (charValue c) else none

/-- Arithmetic that fails where it does not fit. -/
def checked (size n : ℕ) : Option ℕ := if n < size then some n else none

/-- The loop over the digits. -/
def fromDigits (size radix : ℕ) : List Char → ℕ → Option ℕ
  | [], result => some result
  | c :: digits, result =>
    (toDigit c radix).bind fun x =>
      (checked size (result * radix)).bind fun mul =>
        (checked size (mul + x)).bind fun result => fromDigits size radix digits result

/-- The digits, after a plus sign. -/
def unsigned : List Char → List Char
  | '+' :: digits => digits
  | digits => digits

/-- `from_str_radix` of an unsigned type with this many values. -/
def fromStrRadix (size radix : ℕ) (src : List Char) : Option ℕ :=
  if (unsigned src).isEmpty then none else fromDigits size radix (unsigned src) 0

/-! ## Values -/

/-- What a digit stands for. -/
def digit (radix : ℕ) (c : Char) : ℕ := (toDigit c radix).getD 0

/-- What digits stand for, after what came before them. -/
def valueFrom (radix result : ℕ) (cs : List Char) : ℕ :=
  cs.foldl (fun result c => result * radix + digit radix c) result

/-- What digits stand for. -/
def value (radix : ℕ) (cs : List Char) : ℕ := valueFrom radix 0 cs

section

variable {size radix : ℕ}

theorem toDigit_eq_some_iff {c : Char} {d : ℕ} :
    toDigit c radix = some d ↔ charValue c = d ∧ d < radix := by
  rw [toDigit]
  split
  next hlt =>
    rw [Option.some.injEq]
    exact ⟨fun h => ⟨h, h ▸ hlt⟩, fun h => h.1⟩
  next hge =>
    refine iff_of_false (fun h => by cases h) fun h => hge ?_
    rw [h.1]
    exact h.2

theorem checked_eq_some_iff {n m : ℕ} : checked size n = some m ↔ n = m ∧ n < size := by
  rw [checked]
  split
  next hlt =>
    rw [Option.some.injEq]
    exact ⟨fun h => ⟨h, hlt⟩, fun h => h.1⟩
  next hge => exact iff_of_false (fun h => by cases h) fun h => hge h.2

theorem digit_lt (hradix : 0 < radix) (c : Char) : digit radix c < radix := by
  rw [digit]
  cases h : toDigit c radix with
  | none => exact hradix
  | some d => exact (toDigit_eq_some_iff.mp h).2

theorem valueFrom_cons (result : ℕ) (c : Char) (cs : List Char) :
    valueFrom radix result (c :: cs) = valueFrom radix (result * radix + digit radix c) cs := rfl

theorem valueFrom_append (result : ℕ) (cs ds : List Char) :
    valueFrom radix result (cs ++ ds) = valueFrom radix (valueFrom radix result cs) ds :=
  List.foldl_append

/-- What came before the digits is moved to the left of them. -/
theorem valueFrom_eq (result : ℕ) (cs : List Char) :
    valueFrom radix result cs = result * radix ^ cs.length + value radix cs := by
  induction cs generalizing result with
  | nil =>
    rw [List.length_nil, Nat.pow_zero, Nat.mul_one]
    rfl
  | cons c cs ih =>
    have hvalue : value radix (c :: cs) = valueFrom radix (0 * radix + digit radix c) cs := rfl
    rw [hvalue, valueFrom_cons, ih, ih (0 * radix + digit radix c), List.length_cons]
    ring

theorem value_cons (c : Char) (cs : List Char) :
    value radix (c :: cs) = digit radix c * radix ^ cs.length + value radix cs := by
  rw [value, valueFrom_cons, valueFrom_eq, Nat.zero_mul, Nat.zero_add]

theorem value_append (cs ds : List Char) :
    value radix (cs ++ ds) = value radix cs * radix ^ ds.length + value radix ds := by
  rw [value, valueFrom_append, valueFrom_eq, ← value]

theorem le_valueFrom (hradix : 0 < radix) (result : ℕ) (cs : List Char) :
    result ≤ valueFrom radix result cs := by
  rw [valueFrom_eq]
  have hpow : 0 < radix ^ cs.length := Nat.pow_pos hradix
  calc result = result * 1 := (Nat.mul_one result).symm
    _ ≤ result * radix ^ cs.length := Nat.mul_le_mul_left _ hpow
    _ ≤ result * radix ^ cs.length + value radix cs := Nat.le_add_right _ _

theorem value_lt_pow (hradix : 0 < radix) (cs : List Char) :
    value radix cs < radix ^ cs.length := by
  induction cs with
  | nil => exact Nat.one_pos
  | cons c cs ih =>
    rw [value_cons, List.length_cons]
    calc digit radix c * radix ^ cs.length + value radix cs
        < digit radix c * radix ^ cs.length + radix ^ cs.length := Nat.add_lt_add_left ih _
      _ = (digit radix c + 1) * radix ^ cs.length := by ring
      _ ≤ radix * radix ^ cs.length := Nat.mul_le_mul_right _ (digit_lt hradix c)
      _ = radix ^ (cs.length + 1) := by ring

/-- The digits at the end. -/
theorem value_append_mod (hradix : 0 < radix) (cs ds : List Char) :
    value radix (cs ++ ds) % radix ^ ds.length = value radix ds := by
  rw [value_append, Nat.add_comm, Nat.add_mul_mod_self_right]
  exact Nat.mod_eq_of_lt (value_lt_pow hradix ds)

/-! ## What is accepted -/

/-- **The loop reads digits whose value fits.** -/
theorem fromDigits_eq_some_iff (hradix : 0 < radix) {cs : List Char} {result v : ℕ}
    (hresult : result < size) : fromDigits size radix cs result = some v ↔
      (∀ c ∈ cs, (toDigit c radix).isSome = true) ∧ valueFrom radix result cs = v ∧ v < size := by
  induction cs generalizing result with
  | nil =>
    rw [fromDigits, Option.some.injEq]
    constructor
    · rintro rfl
      exact ⟨fun c hc => absurd hc List.not_mem_nil, rfl, hresult⟩
    · rintro ⟨-, hv, -⟩
      exact hv
  | cons c cs ih =>
    rw [fromDigits, valueFrom_cons]
    cases hdigit : toDigit c radix with
    | none =>
      refine iff_of_false (fun h => by cases h) fun h => ?_
      have hc := h.1 c List.mem_cons_self
      rw [hdigit] at hc
      cases hc
    | some x =>
      have hx : digit radix c = x := by rw [digit, hdigit, Option.getD_some]
      rw [Option.bind_some, hx]
      by_cases hfits : result * radix + x < size
      · have hmul : checked size (result * radix) = some (result * radix) :=
          if_pos (by omega)
        have hadd : checked size (result * radix + x) = some (result * radix + x) :=
          if_pos hfits
        rw [hmul, Option.bind_some, hadd, Option.bind_some, ih hfits, List.forall_mem_cons, hdigit,
          Option.isSome_some]
        exact ⟨fun h => ⟨⟨rfl, h.1⟩, h.2⟩, fun h => ⟨h.1.2, h.2⟩⟩
      · refine iff_of_false (fun h => ?_) fun h => ?_
        · obtain ⟨mul, hmul, hrest⟩ := Option.bind_eq_some_iff.mp h
          obtain ⟨add, hadd, -⟩ := Option.bind_eq_some_iff.mp hrest
          obtain ⟨rfl, -⟩ := checked_eq_some_iff.mp hmul
          exact hfits (checked_eq_some_iff.mp hadd).2
        · have hle := le_valueFrom hradix (result * radix + x) cs
          omega

/-- **What the parser accepts**, and what it makes of it. -/
theorem fromStrRadix_eq_some_iff (hradix : 0 < radix) (hsize : 0 < size) {src : List Char} {v : ℕ} :
    fromStrRadix size radix src = some v ↔ unsigned src ≠ [] ∧
      (∀ c ∈ unsigned src, (toDigit c radix).isSome = true) ∧
      value radix (unsigned src) = v ∧ v < size := by
  rw [fromStrRadix]
  split
  next hempty =>
    exact iff_of_false (fun h => by cases h) fun h => h.1 (List.isEmpty_iff.mp hempty)
  next hne =>
    rw [fromDigits_eq_some_iff hradix hsize, value]
    exact ⟨fun h => ⟨fun hnil => hne (List.isEmpty_iff.mpr hnil), h⟩, fun h => h.2⟩

/-! ## Leading zeros -/

/-- The characters of a value. -/
theorem charValue_eq_iff {c : Char} {v : ℕ} (hv : v < 36) :
    charValue c = v ↔ (v < 10 ∧ c.toNat = '0'.toNat + v) ∨
      (10 ≤ v ∧ (c.toNat + 10 = 'a'.toNat + v ∨ c.toNat + 10 = 'A'.toNat + v)) := by
  have hcodes : '0'.toNat = 48 ∧ '9'.toNat = 57 ∧ 'a'.toNat = 97 ∧ 'z'.toNat = 122 ∧
      'A'.toNat = 65 ∧ 'Z'.toNat = 90 := by decide
  rw [charValue]
  split
  · omega
  · split
    · omega
    · split
      · omega
      · omega

theorem charValue_eq_zero_iff {c : Char} : charValue c = 0 ↔ c = '0' := by
  rw [charValue_eq_iff (by omega), ← Char.toNat_inj]
  omega

/-- **A bound on the value is one on the digits** after the leading zeros. -/
theorem value_lt_pow_iff (hradix : 1 < radix) {cs : List Char}
    (h : ∀ c ∈ cs, (toDigit c radix).isSome = true) (n : ℕ) :
    value radix cs < radix ^ n ↔ (cs.dropWhile fun c => c = '0').length ≤ n := by
  induction cs with
  | nil => exact iff_of_true (Nat.pow_pos (by omega)) (Nat.zero_le n)
  | cons c cs ih =>
    have hrest := ih fun c hc => h c (List.mem_cons_of_mem _ hc)
    obtain ⟨d, hd⟩ := Option.isSome_iff_exists.mp (h c List.mem_cons_self)
    have hdigit : digit radix c = d := by rw [digit, hd, Option.getD_some]
    obtain ⟨hchar, hlt⟩ := toDigit_eq_some_iff.mp hd
    rw [value_cons, hdigit]
    by_cases hzero : c = '0'
    · have hd0 : d = 0 := by rw [← hchar, charValue_eq_zero_iff.mpr hzero]
      rw [List.dropWhile_cons, if_pos (decide_eq_true hzero), hd0, Nat.zero_mul, Nat.zero_add]
      exact hrest
    · have hpos : 1 ≤ d := Nat.pos_of_ne_zero fun h0 =>
        hzero (charValue_eq_zero_iff.mp (hchar.trans h0))
      rw [List.dropWhile_cons, if_neg (fun hd => hzero (of_decide_eq_true hd)), List.length_cons]
      have hlow : radix ^ cs.length ≤ d * radix ^ cs.length + value radix cs :=
        (Nat.le_mul_of_pos_left _ hpos).trans (Nat.le_add_right _ _)
      have hhigh := value_lt_pow (by omega : 0 < radix) (c :: cs)
      rw [value_cons, hdigit, List.length_cons] at hhigh
      constructor
      · intro hv
        exact (Nat.pow_lt_pow_iff_right hradix).mp (hlow.trans_lt hv)
      · intro hle
        exact hhigh.trans_le (Nat.pow_le_pow_right (by omega) hle)

end

end Radix
