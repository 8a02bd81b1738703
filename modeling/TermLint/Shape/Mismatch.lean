/-
  TermLint.Shape.Mismatch

  Why well-formed data does not have the shape that was asked for.  A mismatch
  names what was found and what was expected; `message` is its wording, in which
  reals are written as the format that held them writes them.
-/

import TermLint.Decimal.Layout
import TermLint.Text.Quoted
import TermLint.Value

namespace TermLint.Shape

open Decimal (Layout)

/-- What was found where something else was expected. -/
inductive Found where
  | null
  | bool (value : Bool)
  | number (value : Number)
  | string (value : String)
  | sequence
  | map
  deriving DecidableEq, Repr

/-- The kind of a value, with the value itself when it is a scalar. -/
def Found.of : Value → Found
  | .null => .null
  | .bool value => .bool value
  | .number value => .number value
  | .string value => .string value
  | .array _ => .sequence
  | .object _ => .map

/-- What was found, in words. -/
def Found.describe (reals : Layout) : Found → String
  | .null => "null"
  | .bool value => "boolean `" ++ (if value then "true" else "false") ++ "`"
  | .number (.int value) => "integer `" ++ toString value ++ "`"
  | .number (.real value) => "floating point `" ++ reals.write value ++ "`"
  | .string value => "string " ++ Text.quoted value
  | .sequence => "sequence"
  | .map => "map"

/-- A way in which data misses a shape. -/
inductive Mismatch where
  /-- A value of the wrong kind. -/
  | kind (found : Found) (expected : String)
  /-- An integer outside the range of its type. -/
  | range (value : Int) (expected : String)
  /-- A sequence with too few or too many items. -/
  | length (count : Nat) (expected : String)
  /-- A required field that is not there. -/
  | missing (field : String)
  /-- A field that is there twice. -/
  | repeated (field : String)
  /-- A value that is none of the alternatives of a choice. -/
  | noVariant (choice : String)
  /-- A value of the right shape that a rule of its type refuses. -/
  | refused (reason : String)
  deriving DecidableEq, Repr

/-- The wording of a mismatch. -/
def Mismatch.message (reals : Layout) : Mismatch → String
  | .kind found expected => "invalid type: " ++ found.describe reals ++ ", expected " ++ expected
  | .range value expected =>
    "invalid value: integer `" ++ toString value ++ "`, expected " ++ expected
  | .length count expected => "invalid length " ++ toString count ++ ", expected " ++ expected
  | .missing field => "missing field `" ++ field ++ "`"
  | .repeated field => "duplicate field `" ++ field ++ "`"
  | .noVariant choice => "data did not match any variant of untagged enum " ++ choice
  | .refused reason => reason

end TermLint.Shape
