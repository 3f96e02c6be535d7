import Nullxes.Library.Json

/-!
# Reading derived types from JSON

The readers that are derived for structs and enums, given by their field and variant names: an
adjacently tagged enum keeps its variant and its content under two names of an object, an internally
tagged one keeps its variant among its own fields. Members may come in any order, members of other
names are passed over, and a name that is read must not occur twice.

A value that was buffered before it is read is *owned*; some forms are taken only then.

## Main results

* `Serde.elements_map` — a list is read back if its elements are
* `Serde.field_eq_some_iff` — a required field is read from the only member of its name
-/

universe u

namespace Serde

variable {α β : Type u}

/-! ## Plain values -/

/-- `u64`. -/
def uint64 : Json → Option UInt64
  | .num (.unsigned n) => some n
  | _ => none

/-- `usize`, on a 64-bit machine. -/
def usize (v : Json) : Option ℕ := (uint64 v).map UInt64.toNat

/-- `u32`. -/
def uint32 (v : Json) : Option UInt32 :=
  (uint64 v).bind fun n => if n.toNat < UInt32.size then some (UInt32.ofNat n.toNat) else none

/-- `u8`. -/
def uint8 (v : Json) : Option UInt8 :=
  (uint64 v).bind fun n => if n.toNat < UInt8.size then some (UInt8.ofNat n.toNat) else none

/-- `bool`. -/
def boolean : Json → Option Bool
  | .bool b => some b
  | _ => none

/-- `String`. -/
def string : Json → Option String
  | .str s => some s
  | _ => none

/-- `Vec`. -/
def elements (read : Json → Option α) : Json → Option (List α)
  | .arr vs => vs.mapM read
  | _ => none

/-- `Option`. -/
def nullable (read : Json → Option α) : Json → Option (Option α)
  | .null => some none
  | v => (read v).map some

/-! ## Fields -/

/-- The values of the members with a name. -/
def values (name : String) (ms : List (String × Json)) : List Json :=
  (ms.filter fun m => m.1 = name).map Prod.snd

/-- A field that must be there. -/
def field (name : String) (read : Json → Option α) (ms : List (String × Json)) : Option α :=
  match values name ms with
  | [v] => read v
  | _ => none

/-- A field of type `Option`: one that is missing is nothing. -/
def optionField (name : String) (read : Json → Option α) (ms : List (String × Json)) :
    Option (Option α) :=
  match values name ms with
  | [] => some none
  | [v] => nullable read v
  | _ => none

/-! ## Enums -/

/-- A variant identified by its name or its number. -/
def variant (vs : List (String × β)) : Json → Option β
  | .str s => vs.lookup s
  | .num (.unsigned n) => vs[n.toNat]?.map Prod.snd
  | _ => none

/-- The name of a variant without content: alone, or as the only member of an object. -/
def variantName (owned : Bool) : Json → Option String
  | .str s => some s
  | .obj [(name, .null)] => some name
  | .obj [(name, .obj [])] => if owned then some name else none
  | _ => none

/-- What a variant holds. -/
inductive Payload (α : Type u)
  | unit (a : α)
  | newtype (read : Json → Option α)
  | struct (read : List (String × Json) → Option α)

/-- A variant with the content found for it, if any. -/
def Payload.read : Payload α → Option Json → Option α
  | .unit a, none => some a
  | .unit a, some .null => some a
  | .newtype read, some v => read v
  | .struct read, some (.obj ms) => read ms
  | _, _ => none

/-- An adjacently tagged enum among the members of an object. -/
def adjacentMembers (tag content : String) (owned : Bool) (vs : List (String × Payload α))
    (ms : List (String × Json)) : Option α :=
  match values tag ms, values content ms with
  | [t], [] => (variantName owned t).bind fun name => (vs.lookup name).bind fun p => p.read none
  | [t], [c] =>
    (variantName owned t).bind fun name => (vs.lookup name).bind fun p => p.read (some c)
  | _, _ => none

/-- An adjacently tagged enum; as an array it is its variant and its content. -/
def adjacent (tag content : String) (owned : Bool) (vs : List (String × Payload α)) :
    Json → Option α
  | .obj ms => adjacentMembers tag content owned vs ms
  | .arr [t, c] => (variant vs t).bind fun p => p.read (some c)
  | _ => none

/-- An internally tagged enum of struct variants among the members of an object. -/
def internalMembers (tag : String) (vs : List (String × (List (String × Json) → Option α)))
    (ms : List (String × Json)) : Option α :=
  match values tag ms with
  | [t] => (variant vs t).bind fun read => read (ms.filter fun m => m.1 ≠ tag)
  | _ => none

/-! ## Reading back -/

@[simp] theorem values_nil (name : String) : values name [] = [] := rfl

@[simp] theorem values_cons (name : String) (m : String × Json) (ms : List (String × Json)) :
    values name (m :: ms) = if m.1 = name then m.2 :: values name ms else values name ms := by
  by_cases h : m.1 = name <;> simp [values, h]

@[simp] theorem uint64_unsigned (n : UInt64) : uint64 (.num (.unsigned n)) = some n := rfl

@[simp] theorem usize_ofNat {n : ℕ} (h : n < UInt64.size) :
    usize (.num (.unsigned (UInt64.ofNat n))) = some n := by
  rw [usize, uint64_unsigned, Option.map_some, UInt64.toNat_ofNat_of_lt' h]

@[simp] theorem uint32_ofNat (n : UInt32) :
    uint32 (.num (.unsigned (UInt64.ofNat n.toNat))) = some n := by
  have hlt := n.toNat_lt_size
  have h64 : n.toNat < UInt64.size := Nat.lt_trans hlt (by decide)
  rw [uint32, uint64_unsigned, Option.bind_some, UInt64.toNat_ofNat_of_lt' h64, if_pos hlt,
    UInt32.ofNat_toNat]

@[simp] theorem uint8_ofNat (n : UInt8) :
    uint8 (.num (.unsigned (UInt64.ofNat n.toNat))) = some n := by
  have hlt := n.toNat_lt_size
  have h64 : n.toNat < UInt64.size := Nat.lt_trans hlt (by decide)
  rw [uint8, uint64_unsigned, Option.bind_some, UInt64.toNat_ofNat_of_lt' h64, if_pos hlt,
    UInt8.ofNat_toNat]

@[simp] theorem boolean_bool (b : Bool) : boolean (.bool b) = some b := rfl

@[simp] theorem string_str (s : String) : string (.str s) = some s := rfl

theorem elements_map {read : Json → Option α} {write : α → Json} {as : List α}
    (h : ∀ a ∈ as, read (write a) = some a) : elements read (.arr (as.map write)) = some as := by
  rw [elements]
  induction as with
  | nil => rfl
  | cons a as ih =>
    have hrest := ih fun b hb => h b (List.mem_cons_of_mem a hb)
    simp [h a List.mem_cons_self, hrest]

theorem field_eq_some_iff {name : String} {read : Json → Option α} {ms : List (String × Json)}
    {a : α} : field name read ms = some a ↔ ∃ v, values name ms = [v] ∧ read v = some a := by
  rw [field]
  split
  · next v hv => simp [hv]
  · next hne =>
    constructor
    · rintro ⟨⟩
    · rintro ⟨v, hv, -⟩
      exact absurd hv (hne v)

end Serde
