/-
  TermLint.Lsp.Severity

  How grave a finding is.  A severity is written as its number, and may be given by
  number or by name, blanks around the name and the case of its letters aside.
-/

import TermLint.Shape.Basic
import TermLint.Text.Blank
import TermLint.Text.Quoted

namespace TermLint.Lsp

open Shape (Mismatch)

/-- How grave a finding is. -/
inductive Severity where
  | error
  | warning
  | information
  | hint
  deriving DecidableEq, Repr

namespace Severity

/-- The number of a severity. -/
def code : Severity → Nat
  | .error => 1
  | .warning => 2
  | .information => 3
  | .hint => 4

/-- The severity with a number. -/
def ofCode? : Nat → Option Severity
  | 1 => some .error
  | 2 => some .warning
  | 3 => some .information
  | 4 => some .hint
  | _ => none

/-- The names under which a severity may be given. -/
def names : List (String × Severity) :=
  [("error", .error), ("warning", .warning), ("warn", .warning),
    ("information", .information), ("info", .information), ("hint", .hint)]

/-- The severity with a name. -/
def ofName? (name : String) : Option Severity :=
  let bare := String.ofList ((Text.trim name.toList).map Char.toLower)
  names.lookup bare

/-- The refusal of a number or name that no severity has. -/
def unknown (given : String) : Mismatch :=
  .refused ("unknown diagnostic severity " ++ Text.quoted given)

/-- The severity that a value gives, by number or by name.  An integer of more than 64 bits is no
value at all here, and a negative one is no number of a severity. -/
def ofValue (v : Value) : Except Mismatch Severity :=
  match v with
  | .number (.int n) =>
    if n < Int64.minValue.toInt ∨ UInt64.size ≤ n then .error (Shape.wrongKind "any value" v)
    else if n < 0 then .error (.noVariant "RawSeverity")
    else
      match ofCode? n.toNat with
      | some severity => .ok severity
      | none => .error (unknown (toString n.toNat))
  | .string name =>
    match ofName? name with
    | some severity => .ok severity
    | none => .error (unknown name)
  | _ => .error (.noVariant "RawSeverity")

/-- `Severity` as data. -/
def shape : Shape Severity :=
  Shape.judged (fun severity => .int severity.code) ofValue

end Severity
end TermLint.Lsp
