/-
  TermLint.Lint.Linter

  Looking for terms in a text.  A text is searched line by line; within a line every
  place where a term begins is an occurrence, also when occurrences overlap, and is
  given by the columns where it begins and ends, in UTF-16 code units.
-/

import TermLint.Lint.Rule
import TermLint.Lsp.Diagnostic
import TermLint.Lsp.Edit
import TermLint.Text.Cut
import TermLint.Text.Units

namespace TermLint.Lint

open Lsp (Position Range Diagnostic TextEdit WorkspaceEdit CodeAction)

/-- A number as an unsigned integer of 32 bits; one that is too large becomes the greatest. -/
def clamp (n : Nat) : UInt32 :=
  if n < 4294967296 then UInt32.ofNat n else 4294967295

/-! ## Occurrences -/

/-- The columns at which a term begins in the rest of a line, after those already found, which are
in reverse; `column` is the column where the rest begins. -/
def columnsFrom (term : List Char) (found : List Nat) (column : Nat) : List Char → List Nat
  | [] => found.reverse
  | c :: rest =>
    let found := if term.isPrefixOf (c :: rest) then column :: found else found
    columnsFrom term found (column + Text.charUnits c) rest

/-- The columns at which a term begins in a line.  The empty term begins nowhere. -/
def columns (term line : List Char) : List Nat :=
  if term = [] then [] else columnsFrom term [] 0 line

/-- The range of a term that begins at a column of a line. -/
def rangeAt (term : List Char) (line column : Nat) : Range :=
  ⟨⟨clamp line, clamp column⟩, ⟨clamp line, clamp (column + Text.units term)⟩⟩

/-- The ranges of all occurrences of a term in a line, from left to right. -/
def ranges (term : String) (number : Nat) (line : List Char) : List Range :=
  (columns term.toList line).map (rangeAt term.toList number)

/-- The lines of a document with their numbers.  Only a line feed ends a line. -/
def numberedLines (text : String) : List (List Char × Nat) :=
  (Text.pieces '\n' text.toList).zipIdx

/-! ## The linter -/

/-- The rules that are applied. -/
structure Linter where
  rules : List ScanRule
  action : ActionRule
  deriving DecidableEq, Repr

namespace Linter

/-- The rules that apply when nothing is configured. -/
def standard : Linter := ⟨ScanRule.standard, ActionRule.standard⟩

/-- The findings of one rule in a line. -/
def findings (rule : ScanRule) (number : Nat) (line : List Char) : List Diagnostic :=
  (ranges rule.term number line).map fun range =>
    ⟨range, rule.severity, rule.source, rule.message⟩

/-- All findings in a text, by line, then by rule, then from left to right. -/
def scan (linter : Linter) (text : String) : List Diagnostic :=
  (numberedLines text).flatMap fun (line, number) =>
    linter.rules.flatMap fun rule => findings rule number line

/-- An action that makes one edit in one document. -/
def singleEdit (title uri : String) (range : Range) (newText : String) : CodeAction :=
  ⟨title, ⟨Dict.singleton uri [⟨range, newText⟩]⟩⟩

/-- The two actions for an occurrence: to replace it, then to censor it. -/
def actionsAt (rule : ActionRule) (uri : String) (range : Range) : List CodeAction :=
  [singleEdit rule.replaceTitle uri range rule.replacement,
    singleEdit rule.redactTitle uri range rule.redacted]

/-- The actions for all occurrences of the term of the action rule in a text. -/
def actions (linter : Linter) (text uri : String) : List CodeAction :=
  (numberedLines text).flatMap fun (line, number) =>
    (ranges linter.action.term number line).flatMap (actionsAt linter.action uri)

end Linter
end TermLint.Lint
