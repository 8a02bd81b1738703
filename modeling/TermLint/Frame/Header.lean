/-
  TermLint.Frame.Header

  The header of a frame: lines `key: value`, of which only the one that gives the
  length of the body matters.  Keys are compared without regard to the case of ASCII
  letters or to blanks around them.  Of several such lines the last one counts, but
  each must hold a number.
-/

import TermLint.Frame.Fault
import TermLint.Text.Blank
import TermLint.Text.Cut
import TermLint.Text.Digits

namespace TermLint.Frame

/-- The key of the line that gives the length of the body. -/
def lengthKey : String := "Content-Length"

/-- What divides header and body. -/
def separator : String := "\r\n\r\n"

/-- The number below 2 ^ 64 that a text writes, with or without a plus sign. -/
def lengthValue? (text : List Char) : Option Nat :=
  let digits :=
    match text with
    | '+' :: digits => digits
    | digits => digits
  if digits ≠ [] ∧ digits.all Char.isDigit ∧ Text.naturalOf digits < UInt64.size then
    some (Text.naturalOf digits)
  else none

/-- The value of a header line that gives the length of the body, without blanks around it. -/
def lengthText? (line : List Char) : Option (List Char) :=
  match Text.cut? [':'] line with
  | none => none
  | some (key, value) =>
    if Text.sameLetters (Text.trim key) lengthKey.toList then some (Text.trim value) else none

/-- The length that the lines of a header give, after the one that earlier lines gave. -/
def lengthFrom (found : Option Nat) : List (List Char) → Except FramingFault Nat
  | [] =>
    match found with
    | none => .error .noLength
    | some n => .ok n
  | line :: rest =>
    match lengthText? line with
    | none => lengthFrom found rest
    | some text =>
      match lengthValue? text with
      | none => .error (.badLength (String.ofList text))
      | some n => lengthFrom (some n) rest

/-- The length of the body that a header gives. -/
def bodyLength (header : List Char) : Except FramingFault Nat :=
  lengthFrom none (Text.lines header)

end TermLint.Frame
