/-
  TermLint.Lint.Rule

  Rules about terms.  A scan rule says which term is reported and how; the action
  rule says what a term can be replaced by, and how it looks when it is censored.
-/

import TermLint.Lsp.Severity
import TermLint.Shape.Record

namespace TermLint.Lint

open Lsp (Severity)
open Shape (Mismatch Fields)

/-- Why a rule is refused. -/
inductive RuleFault where
  | emptyTerm
  | emptyMessage
  | emptyReplacement
  deriving DecidableEq, Repr

/-- The wording of a refusal. -/
def RuleFault.message : RuleFault → String
  | .emptyTerm => "rule term must not be empty"
  | .emptyMessage => "rule message must not be empty"
  | .emptyReplacement => "code action replacement must not be empty"

/-- A refused rule as a mismatch of the data that held it. -/
def orRefused {α : Type} (result : Except RuleFault α) : Except Mismatch α :=
  match result with
  | .ok a => .ok a
  | .error fault => .error (.refused fault.message)

/-! ## Scan rules -/

/-- A term to report; neither the term nor the message may say nothing. -/
structure ScanRule where
  term : String
  severity : Severity
  source : String
  message : String
  term_ne : term ≠ ""
  message_ne : Text.isVoid message.toList = false
  deriving DecidableEq, Repr

namespace ScanRule

/-- A rule with a term and with a message that is not blank. -/
def make (term : String) (severity : Severity) (source message : String) :
    Except RuleFault ScanRule :=
  if ht : term = "" then .error .emptyTerm
  else if hm : Text.isVoid message.toList = true then .error .emptyMessage
  else .ok ⟨term, severity, source, message, ht, Bool.not_eq_true _ ▸ hm⟩

/-- The fields of a rule as data. -/
def fields : Fields [String, Severity, String, String] :=
  .cons (.required "term" .string) (.cons (.defaulted "severity" Severity.shape .warning)
    (.cons (.defaulted "source" .string "quill") (.cons (.required "message" .string) .nil)))

/-- `ScanRule` as data. -/
def shape : Shape ScanRule :=
  (Shape.row "RawScanRule" fields).refine
    (fun (term, severity, source, message, ()) => orRefused (make term severity source message))
    fun rule => (rule.term, rule.severity, rule.source, rule.message, ())

/-- The rules that apply when none are configured. -/
def standard : List ScanRule :=
  [⟨"VS Code", .warning, "Common Sense", "Please make sure we use a good language", by decide,
      by decide⟩,
    ⟨"Neovim", .warning, "Common Sense", "Great choice :)", by decide, by decide⟩]

end ScanRule

/-! ## Censoring -/

/-- The part of a term up to and with its last space, and the word after it. -/
def lastWord (term : List Char) : List Char × List Char :=
  let word := (term.reverse.takeWhile (· != ' ')).reverse
  (term.take (term.length - word.length), word)

/-- A term with the second character of its last word starred out; when that word has none, every
character is. -/
def censored (term : List Char) : List Char :=
  match lastWord term with
  | (front, first :: _ :: rest) => front ++ first :: '*' :: rest
  | _ => List.replicate term.length '*'

/-! ## Action rules -/

/-- What can be done about a term; neither the term nor its replacement is empty. -/
structure ActionRule where
  term : String
  replacement : String
  redacted : String
  replaceTitle : String
  redactTitle : String
  term_ne : term ≠ ""
  replacement_ne : replacement ≠ ""
  deriving DecidableEq, Repr

namespace ActionRule

/-- The title of censoring a term. -/
def redactTitleOf (redacted : String) : String := "Censor " ++ redacted

/-- A rule with the titles and the censored form that follow from its term and replacement. -/
def make (term replacement : String) : Except RuleFault ActionRule :=
  if ht : term = "" then .error .emptyTerm
  else if hr : replacement = "" then .error .emptyReplacement
  else
    let redacted := String.ofList (censored term.toList)
    .ok
      { term, replacement, redacted, term_ne := ht, replacement_ne := hr
        replaceTitle := "Replace " ++ term ++ " with " ++ replacement
        redactTitle := redactTitleOf redacted }

/-- A rule some of whose parts are given. -/
def makeWith (term replacement : String) (redacted replaceTitle redactTitle : Option String) :
    Except RuleFault ActionRule :=
  match make term replacement with
  | .error fault => .error fault
  | .ok rule =>
    let redacted := redacted.getD rule.redacted
    .ok
      { rule with
        redacted
        replaceTitle := replaceTitle.getD rule.replaceTitle
        redactTitle := redactTitle.getD (redactTitleOf redacted) }

/-- The fields of a rule as data. -/
def fields : Fields [String, String, Option String, Option String, Option String] :=
  .cons (.required "term" .string) (.cons (.required "replacement" .string)
    (.cons (.optional "redacted" .string) (.cons (.optional "replace_title" .string)
      (.cons (.optional "redact_title" .string) .nil))))

/-- `ActionRule` as data. -/
def shape : Shape ActionRule :=
  (Shape.row "RawActionRule" fields).refine
    (fun (term, replacement, redacted, replaceTitle, redactTitle, ()) =>
      orRefused (makeWith term replacement redacted replaceTitle redactTitle))
    fun rule =>
      (rule.term, rule.replacement, some rule.redacted, some rule.replaceTitle,
        some rule.redactTitle, ())

/-- The rule that applies when none is configured. -/
def standard : ActionRule where
  term := "VS Code"
  replacement := "Neovim"
  redacted := "VS C*de"
  replaceTitle := "Replace VS C*de with a superior editor"
  redactTitle := "Censor VS C*de"
  term_ne := by decide
  replacement_ne := by decide

end ActionRule
end TermLint.Lint
