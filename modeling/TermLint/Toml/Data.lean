/-
  TermLint.Toml.Data

  The data of a document.  A number is known by its form, and may be without a value:
  too large a number, for instance, is still a number.  Nobody has to mind as long as
  nobody looks at it, so giving the data as a `Value` is a step of its own.
-/

import TermLint.Value

namespace TermLint.Toml

/-- The data of a document. -/
inductive Data where
  | bool (value : Bool)
  /-- A number, which may be without a value. -/
  | number (value : Option Number)
  | string (value : String)
  /-- A date, a time of day, or both. -/
  | time
  | array (items : List Data)
  | table (entries : List (String × Data))
  deriving Inhabited

namespace Data

/-! ## Values -/

mutual

/-- The data as a value, if every number has one.  A time is opaque: it is an object in which no
field has a name that is asked for. -/
def toValue? : Data → Option Value
  | .bool value => some (.bool value)
  | .number value => value.map .number
  | .string value => some (.string value)
  | .time => some (.object [])
  | .array items => (itemsFrom? [] items).map .array
  | .table entries => (entriesFrom? [] entries).map .object

/-- The values of items, after those already done, which are in reverse. -/
def itemsFrom? (done : List Value) : List Data → Option (List Value)
  | [] => some done.reverse
  | item :: rest =>
    match item.toValue? with
    | none => none
    | some value => itemsFrom? (value :: done) rest

/-- The values of entries, after those already done, which are in reverse. -/
def entriesFrom? (done : List (String × Value)) :
    List (String × Data) → Option (List (String × Value))
  | [] => some done.reverse
  | (name, item) :: rest =>
    match item.toValue? with
    | none => none
    | some value => entriesFrom? ((name, value) :: done) rest

end

/-- A real, or an integer of 64 bits with a sign. -/
def isNarrowNumber : Option Number → Bool
  | none => false
  | some (.int n) => Int64.minValue.toInt ≤ n && n ≤ Int64.maxValue.toInt
  | some (.real _) => true

mutual

/-- Whether every number has a value, an integer one of 64 bits with a sign. -/
def isNarrow : Data → Bool
  | .number value => isNarrowNumber value
  | .array items => areNarrow items
  | .table entries => entriesNarrow entries
  | _ => true

/-- `isNarrow` for all items. -/
def areNarrow : List Data → Bool
  | [] => true
  | item :: rest => isNarrow item && areNarrow rest

/-- `isNarrow` for all entries. -/
def entriesNarrow : List (String × Data) → Bool
  | [] => true
  | (_, item) :: rest => isNarrow item && entriesNarrow rest

end

/-! ## Changes -/

/-- An array without the items beyond a number of them; other data as it is. -/
def cut (size : Nat) : Data → Data
  | .array items => .array (items.take size)
  | data => data

/-- An array with every item changed; other data as it is. -/
def mapItems (f : Data → Data) : Data → Data
  | .array items => .array (items.map f)
  | data => data

/-- A table with the data at a name changed; other data as it is. -/
def mapEntry (name : String) (f : Data → Data) : Data → Data
  | .table entries =>
    .table (entries.map fun entry => if entry.1 = name then (entry.1, f entry.2) else entry)
  | data => data

end Data
end TermLint.Toml
