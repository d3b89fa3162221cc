import Mathlib.Tactic.Common
import PeatGateway.Lib.Json

/-!
# Records as JSON values

How a value is written as JSON and read back, in the way derived for records and
enumerations: a record is an object with an entry for each field, an enumeration is the name
of its variant, or an object with one entry under that name.

A reader is laxer than the writer.  It passes over entries it does not know, takes the
elements of an array for the fields in their order, and lets some entries be missing.

## Main definitions

* `Codec` — a writer, and a reader that reads back what is written.
* `Codec.string`, `Codec.uint32`, `Codec.option`, … — the codecs of simple values.
* `Json.entries`, `Codec.field` — reading a record.
* `Json.variant` — reading an enumeration.

## Main results

* `readNat_repr` — a number is read back from its decimal digits.
* `Codec.field_cons_self`, `Codec.field_cons_of_ne` — reading the entries one after the other.
-/

/-- How the values of a type are written, and read back. -/
structure Codec (α : Type) where
  write : α → Json
  read : Json → Option α
  /-- What a missing entry stands for, if it may be missing. -/
  absent : Option α
  read_write : ∀ a, read (write a) = some a

/-! ### Numbers -/

/-- The number that a text of decimal digits stands for. -/
def readNat (text : String) : Option ℕ :=
  if text.toList ≠ [] ∧ text.toList.all Char.isDigit = true then
    some (Nat.ofDigitChars 10 text.toList 0)
  else none

/-- **A number is read back from its decimal digits.** -/
@[simp] theorem readNat_repr (n : ℕ) : readNat n.repr = some n := by
  have hdigits : (Nat.toDigits 10 n).all Char.isDigit = true := by
    rw [List.all_eq_true]
    intro c hc
    exact Nat.isDigit_of_mem_toDigits (by decide) (by decide) hc
  unfold readNat
  rw [Nat.toList_repr, if_pos ⟨Nat.toDigits_ne_nil, hdigits⟩, Nat.ofDigitChars_ten_toDigits]

/-- A number below a bound, from the text of a JSON number. -/
def Json.readBelow (bound : ℕ) : Json → Option ℕ
  | .number text => (readNat text).filter (· < bound)
  | _ => none

theorem Json.readBelow_number {bound n : ℕ} (hn : n < bound) :
    (Json.number n.repr).readBelow bound = some n := by
  simp [Json.readBelow, hn]

namespace Codec

variable {α : Type}

/-! ### Simple values -/

/-- A text. -/
def string : Codec String where
  write := .string
  read := Json.asStr
  absent := none
  read_write _ := rfl

/-- A truth value. -/
def bool : Codec Bool where
  write := .bool
  read
    | .bool b => some b
    | _ => none
  absent := none
  read_write _ := rfl

/-- A number below 2^32. -/
def uint32 : Codec UInt32 where
  write n := .number n.toNat.repr
  read j := (j.readBelow (2 ^ 32)).map UInt32.ofNat
  absent := none
  read_write n := by
    rw [Json.readBelow_number n.toNat_lt, Option.map_some, UInt32.ofNat_toNat]

/-- A number below 2^64. -/
def uint64 : Codec UInt64 where
  write n := .number n.toNat.repr
  read j := (j.readBelow (2 ^ 64)).map UInt64.ofNat
  absent := none
  read_write n := by
    rw [Json.readBelow_number n.toNat_lt, Option.map_some, UInt64.ofNat_toNat]

/-- A value or `null`, for values that are never written as `null`.  A missing entry is
`null`. -/
def option (c : Codec α) (hc : ∀ a, c.write a ≠ .null) : Codec (Option α) where
  write
    | none => .null
    | some a => c.write a
  read
    | .null => some none
    | j => (c.read j).map some
  absent := some none
  read_write a := by
    cases a with
    | none => rfl
    | some a =>
      -- the reader takes the second branch, since the value is not written as `null`
      have hread := c.read_write a
      have hne := hc a
      dsimp only
      generalize c.write a = j at hread hne
      cases j with
      | null => exact absurd rfl hne
      | _ => simp [hread]

/-- An entry that may be missing, with what it stands for then. -/
def withDefault (c : Codec α) (a : α) : Codec α := { c with absent := some a }

/-! ### Records -/

/-- The entry of a field.  A field that is given twice is not accepted. -/
def field (c : Codec α) (name : String) (entries : JsonMap) : Option α :=
  match entries.filter (·.1 == name) with
  | [] => c.absent
  | [(_, v)] => c.read v
  | _ => none

section Field

variable {c : Codec α} {name : String} {entries : JsonMap}

@[simp] theorem field_nil : c.field name [] = c.absent := rfl

theorem field_cons_of_ne {key : String} {v : Json} (h : key ≠ name) :
    c.field name ((key, v) :: entries) = c.field name entries := by
  unfold field
  rw [List.filter_cons_of_neg (by simpa using h)]

theorem field_cons_self {v : Json} (h : ∀ e ∈ entries, e.1 ≠ name) :
    c.field name ((name, v) :: entries) = c.read v := by
  have hnil : entries.filter (·.1 == name) = [] := by
    rw [List.filter_eq_nil_iff]
    intro e he heq
    exact h e he (beq_iff_eq.mp heq)
  unfold field
  rw [List.filter_cons_of_pos (by simp), hnil]

end Field

end Codec

/-- The entries of a record with the given fields.  An array gives them in their order, and
only the last few, of which there are `optional`, may be missing. -/
def Json.entries (fields : List String) (optional : ℕ) : Json → Option JsonMap
  | .object m => some m
  | .array vs =>
    if vs.length ≤ fields.length ∧ fields.length ≤ vs.length + optional then some (fields.zip vs)
    else none
  | _ => none

@[simp] theorem Json.entries_object (fields : List String) (optional : ℕ) (m : JsonMap) :
    (Json.object m).entries fields optional = some m := rfl

/-! ### Enumerations -/

/-- The name of a variant and what it holds: nothing, if the name stands alone. -/
def Json.variant : Json → Option (String × Json)
  | .string name => some (name, .null)
  | .object [(name, v)] => some (name, v)
  | _ => none

/-! ### Rules for writing -/

namespace Codec

attribute [simp] read_write

@[simp] theorem string_ne_null (s : String) : string.write s ≠ .null := by simp [string]

@[simp] theorem uint32_ne_null (n : UInt32) : uint32.write n ≠ .null := by simp [uint32]

@[simp] theorem uint64_ne_null (n : UInt64) : uint64.write n ≠ .null := by simp [uint64]

@[simp] theorem withDefault_write {α : Type} (c : Codec α) (a b : α) :
    (c.withDefault a).write b = c.write b := rfl

@[simp] theorem withDefault_read {α : Type} (c : Codec α) (a : α) (j : Json) :
    (c.withDefault a).read j = c.read j := rfl

@[simp] theorem withDefault_absent {α : Type} (c : Codec α) (a : α) :
    (c.withDefault a).absent = some a := rfl

end Codec
