/-
  TermLint.Rpc.Id

  The identifiers by which a request and its answer are matched.
-/

import TermLint.Shape.Basic

namespace TermLint.Rpc

open Shape (Mismatch)

/-- The identifier of a request. -/
inductive Id where
  | number (value : Int64)
  | text (value : String)
  deriving DecidableEq, Repr

namespace Id

/-- An identifier as a reader sees it. -/
def display : Id → String
  | .number value => toString value.toInt
  | .text value => value

/-- An identifier as data. -/
def encode : Id → Value
  | .number value => .int value.toInt
  | .text value => .string value

/-- The identifier that a value gives: an integer of 64 bits or a text. -/
def ofValue (v : Value) : Except Mismatch Id :=
  match v with
  | .number (.int n) =>
    if Int64.minValue.toInt ≤ n ∧ n ≤ Int64.maxValue.toInt then .ok (.number (Int64.ofInt n))
    else .error (.noVariant "RequestId")
  | .string name => .ok (.text name)
  | _ => .error (.noVariant "RequestId")

/-- `Id` as data. -/
def shape : Shape Id :=
  Shape.judged encode ofValue

end Id
end TermLint.Rpc
