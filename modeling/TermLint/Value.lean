/-
  TermLint.Value

  Self-describing data: what a message body or a settings file holds before it is
  given a type.  An object keeps its fields in the order in which they were
  written, repeated keys included; `canonical` orders the fields of every object by
  key and keeps the last of repeated ones.
-/

import TermLint.Decimal.Binary64
import TermLint.Dict

namespace TermLint

open Decimal (Binary64)

/-- A number: an integer, or a real of the binary format. -/
inductive Number where
  | int (value : Int)
  | real (value : Binary64)
  deriving DecidableEq, Repr

/-- Data without a type. -/
inductive Value where
  | null
  | bool (value : Bool)
  | number (value : Number)
  | string (value : String)
  | array (items : List Value)
  | object (fields : List (String × Value))
  deriving Inhabited

namespace Value

/-- An integer. -/
def int (value : Int) : Value := .number (.int value)

/-! ## Canonical order -/

/-- Fields in the order of their keys, the last of repeated ones. -/
def orderFields {α : Type} (fields : List (String × α)) : List (String × α) :=
  fields.foldl (fun done field => insertEntry field.1 field.2 done) []

mutual

/-- The same data with the fields of every object ordered by key, the last of repeated ones. -/
def canonical : Value → Value
  | .array items => .array (canonicalItems [] items)
  | .object fields => .object (orderFields (canonicalFields [] fields))
  | v => v

/-- `canonical` on every item, after those already done, which are in reverse. -/
def canonicalItems (done : List Value) : List Value → List Value
  | [] => done.reverse
  | item :: rest => canonicalItems (item.canonical :: done) rest

/-- `canonical` on the value of every field, after those already done, which are in reverse. -/
def canonicalFields (done : List (String × Value)) : List (String × Value) → List (String × Value)
  | [] => done.reverse
  | (key, value) :: rest => canonicalFields ((key, value.canonical) :: done) rest

end

theorem canonicalItems_eq (done items : List Value) :
    canonicalItems done items = done.reverse ++ items.map canonical := by
  induction items generalizing done with
  | nil => simp [canonicalItems]
  | cons item rest ih => simp [canonicalItems, ih]

theorem canonicalFields_eq (done fields : List (String × Value)) :
    canonicalFields done fields =
      done.reverse ++ fields.map fun field => (field.1, field.2.canonical) := by
  induction fields generalizing done with
  | nil => simp [canonicalFields]
  | cons field rest ih => obtain ⟨key, value⟩ := field; simp [canonicalFields, ih]

/-! ## Nesting -/

mutual

/-- How many arrays and objects stand inside one another, at most. -/
def nesting : Value → Nat
  | .array items => itemsNesting items + 1
  | .object fields => fieldsNesting fields + 1
  | _ => 0

/-- The deepest nesting of the items. -/
def itemsNesting : List Value → Nat
  | [] => 0
  | item :: rest => max item.nesting (itemsNesting rest)

/-- The deepest nesting of the fields' values. -/
def fieldsNesting : List (String × Value) → Nat
  | [] => 0
  | (_, value) :: rest => max value.nesting (fieldsNesting rest)

end

end Value
end TermLint
