import Mathlib.Data.Int.Notation
import Mathlib.Data.Nat.Notation

/-!
# Structs read from TOML

The readers that are derived for structs whose missing fields are filled from a default, on top of a
format that is given: how text becomes a value and a value text.

A struct is read from a table by the names of its fields, from an array by their order. A date is
read like a table that has none of them. Other values are refused, and so is a field whose value is
not of its type; names that no field has are passed over.

Reading a struct twice, with two defaults, is accepted or refused alike, and a field comes out the
same exactly if it is there or its defaults are the same.

## Main definitions

* `Toml.Value`, `Toml.Format` — values, and the text that stands for them
* `Toml.Value.get?` — what is there for a field
* `Toml.Value.field` — a field that is filled from a default

## Main results

* `Toml.Value.field_eq_some_iff` — a field that was read was there, or was filled
* `Toml.Value.exists_field`, `Toml.Value.exists_table` — reading with another default
-/

universe u

namespace Toml

variable {α β : Type u}

/-- A value. -/
inductive Value
  | string (s : String)
  | integer (n : ℤ)
  | float (x : Float)
  | boolean (b : Bool)
  | datetime (s : String)
  | array (vs : List Value)
  | table (ms : List (String × Value))

/-- A format: reading text, and writing it. Either can fail. -/
structure Format where
  parse : String → Option Value
  pretty : Value → Option String

/-- A value is written, and read back from what was written. -/
def Format.ReadsBack (toml : Format) (v : Value) : Prop :=
  ∃ text, toml.pretty v = some text ∧ toml.parse text = some v

/-! ## Plain values -/

/-- `bool`. -/
def boolean : Value → Option Bool
  | .boolean b => some b
  | _ => none

/-- `String`. -/
def string : Value → Option String
  | .string s => some s
  | _ => none

/-- `f64`: an integer is converted. -/
def float64 : Value → Option Float
  | .float x => some x
  | .integer n => some (Float.ofInt n)
  | _ => none

/-- An integer from `lo` up to but not including `hi`. -/
def integer (lo hi : ℤ) : Value → Option ℤ
  | .integer n => if lo ≤ n ∧ n < hi then some n else none
  | _ => none

/-- `u8`. -/
def uint8 (v : Value) : Option UInt8 := (integer 0 UInt8.size v).map fun n => .ofNat n.toNat

/-- `u32`. -/
def uint32 (v : Value) : Option UInt32 := (integer 0 UInt32.size v).map fun n => .ofNat n.toNat

/-- `u64`. -/
def uint64 (v : Value) : Option UInt64 := (integer 0 UInt64.size v).map fun n => .ofNat n.toNat

/-- `i32`. -/
def int32 (v : Value) : Option Int32 := (integer (-2147483648) 2147483648 v).map .ofInt

@[simp] theorem boolean_boolean (b : Bool) : boolean (.boolean b) = some b := rfl

@[simp] theorem string_string (s : String) : string (.string s) = some s := rfl

@[simp] theorem float64_float (x : Float) : float64 (.float x) = some x := rfl

theorem integer_integer {lo hi n : ℤ} (hlo : lo ≤ n) (hhi : n < hi) :
    integer lo hi (.integer n) = some n := if_pos ⟨hlo, hhi⟩

@[simp] theorem uint8_toNat (n : UInt8) : uint8 (.integer n.toNat) = some n := by
  have hlt : (n.toNat : ℤ) < UInt8.size := mod_cast n.toNat_lt_size
  rw [uint8, integer_integer (Int.natCast_nonneg _) hlt]
  simp

@[simp] theorem uint32_toNat (n : UInt32) : uint32 (.integer n.toNat) = some n := by
  have hlt : (n.toNat : ℤ) < UInt32.size := mod_cast n.toNat_lt_size
  rw [uint32, integer_integer (Int.natCast_nonneg _) hlt]
  simp

@[simp] theorem uint64_toNat (n : UInt64) : uint64 (.integer n.toNat) = some n := by
  have hlt : (n.toNat : ℤ) < UInt64.size := mod_cast n.toNat_lt_size
  rw [uint64, integer_integer (Int.natCast_nonneg _) hlt]
  simp

@[simp] theorem int32_toInt (n : Int32) : int32 (.integer n.toInt) = some n := by
  have hle : -2147483648 ≤ n.toInt := n.le_toInt
  have hlt : n.toInt < 2147483648 := n.toInt_lt
  rw [int32, integer_integer hle hlt]
  simp

/-! ## Fields

A field is known by its place in the struct and by its name. -/

namespace Value

/-- Whether a struct can be read from the value at all. -/
def isStruct : Value → Bool
  | .table _ | .array _ | .datetime _ => true
  | _ => false

/-- What is there for a field. -/
def get? (i : ℕ) (name : String) : Value → Option Value
  | .table ms => ms.lookup name
  | .array vs => vs[i]?
  | _ => none

/-- A field that is filled from a default when nothing is there. -/
def field (v : Value) (i : ℕ) (name : String) (read : Value → Option α) (default : α) : Option α :=
  if v.isStruct then
    match v.get? i name with
    | some u => read u
    | none => some default
  else none

variable {v : Value} {i : ℕ} {name : String} {read : Value → Option α} {d a : α}

@[simp] theorem isStruct_table (ms : List (String × Value)) : (table ms).isStruct = true := rfl

@[simp] theorem get?_table (ms : List (String × Value)) :
    (table ms).get? i name = ms.lookup name := rfl

/-- Something is there and it is read, or nothing is and the default is taken. -/
theorem field_eq_some_iff :
    v.field i name read d = some a ↔
      v.isStruct ∧ ((∃ u, v.get? i name = some u ∧ read u = some a) ∨
        v.get? i name = none ∧ a = d) := by
  rw [field]
  cases v.get? i name with
  | none => simp [eq_comm (a := d)]
  | some u => simp

theorem field_of_get? {w : Value} (hs : v.isStruct) (hw : v.get? i name = some w)
    (hr : read w = some a) : v.field i name read d = some a :=
  field_eq_some_iff.mpr ⟨hs, .inl ⟨w, hw, hr⟩⟩

/-- Reading with another default: the outcome is the same exactly if the field is there or the
defaults are the same. -/
theorem exists_field (d' : α) (h : v.field i name read d = some a) :
    ∃ a', v.field i name read d' = some a' ∧ (a' = a ↔ (v.get? i name).isSome ∨ d' = d) := by
  obtain ⟨hs, ⟨u, hu, hr⟩ | ⟨hu, rfl⟩⟩ := field_eq_some_iff.mp h
  · exact ⟨a, field_of_get? hs hu hr, by simp [hu]⟩
  · exact ⟨d', field_eq_some_iff.mpr ⟨hs, .inr ⟨hu, rfl⟩⟩, by simp [hu]⟩

/-- Reading a table as another type, from another default: the outcomes stand for the same exactly
if the table is there and what it holds makes them. -/
theorem exists_table {read' : Value → Option β} {conv : β → α} {P : Value → Prop} (d' : β)
    (hd : conv d' ≠ d)
    (hread : ∀ u k, read u = some k → ∃ c, read' u = some c ∧ (conv c = k ↔ P u))
    (h : v.field i name read d = some a) :
    ∃ c, v.field i name read' d' = some c ∧
      (conv c = a ↔ ∃ u, v.get? i name = some u ∧ P u) := by
  obtain ⟨hs, ⟨u, hu, hr⟩ | ⟨hu, rfl⟩⟩ := field_eq_some_iff.mp h
  · obtain ⟨c, hc, hiff⟩ := hread u a hr
    exact ⟨c, field_of_get? hs hu hc, by simp [hu, hiff]⟩
  · exact ⟨d', field_eq_some_iff.mpr ⟨hs, .inr ⟨hu, rfl⟩⟩, by simp [hu, hd]⟩

/-! ## Which fields are there -/

/-- The fields are there. -/
def Has (keys : List (ℕ × String)) (v : Value) : Prop := ∀ key ∈ keys, (v.get? key.1 key.2).isSome

/-- The table is there, with the fields. -/
def HasIn (i : ℕ) (name : String) (keys : List (ℕ × String)) (v : Value) : Prop :=
  ∃ u, v.get? i name = some u ∧ u.Has keys

end Value

end Toml
