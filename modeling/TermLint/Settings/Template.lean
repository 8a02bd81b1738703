/-
  TermLint.Settings.Template

  Texts with references to environment variables.  A reference is a name between
  a dollar sign with an opening brace and the next closing brace.  A text is cut
  into references and what stands between them once, from left to right, so the
  value of a variable is never looked through again.
-/

import TermLint.Settings.Environment
import TermLint.Text.Cut

namespace TermLint.Settings

/-- A part of a template. -/
inductive Part where
  | plain (text : List Char)
  | reference (name : List Char)
  deriving DecidableEq, Repr

/-- What a reference begins with. -/
def opening : List Char := ['$', '\x7b']

/-- What a reference ends with. -/
def ending : List Char := ['\x7d']

/-- The parts of a template.  An opening that is never closed is plain text. -/
def parts (s : List Char) : List Part :=
  match ho : Text.cut? opening s with
  | none => [.plain s]
  | some (before, inside) =>
    match hc : Text.cut? ending inside with
    | none => [.plain s]
    | some (name, rest) =>
      have : rest.length < s.length := by
        rw [Text.cut?_eq ho, Text.cut?_eq hc]
        simp only [opening, ending, List.length_append, List.length_cons]
        omega
      .plain before :: .reference name :: parts rest
termination_by s.length

/-- What a part stands for: a variable that is not set for nothing, a reference without a name for
itself. -/
def Part.fill (environment : Environment) : Part → List Char
  | .plain text => text
  | .reference [] => opening ++ ending
  | .reference name => ((environment (String.ofList name)).getD "").toList

/-- A template with every reference replaced by the value of its variable. -/
def expand (environment : Environment) (template : String) : String :=
  String.ofList ((parts template.toList).flatMap (Part.fill environment))

/-- The names of the variables that a template refers to. -/
def referenced (template : String) : List String :=
  (parts template.toList).filterMap fun
    | .plain _ => none
    | .reference name => some (String.ofList name)

end TermLint.Settings
