/-
  TermLint.Json.Fault

  Why a text could not be read: it is not well formed, it ended too early, or what
  it holds does not have the shape that was asked for.
-/

import TermLint.Shape.Mismatch

namespace TermLint.Json

open Decimal (Layout)
open Shape (Mismatch)

/-- Reals are written positionally while the first digit has a power of ten from −5 to 15; of two
equally near decimals the even one is written. -/
def reals : Layout := ⟨some (-5), some 15, .even⟩

/-- A breach of the grammar. -/
inductive Malformed where
  | trailingComma
  | keyNotString
  | expectedColon
  | expectedItemOrEnd
  | expectedFieldOrEnd
  | trailingCharacters
  | expectedWord
  | expectedValue
  | invalidNumber
  | numberOutOfRange
  | invalidEscape
  | unpairedSurrogate
  | loneSurrogate
  | controlCharacter
  | tooDeep
  deriving DecidableEq, Repr

/-- The wording of a breach of the grammar. -/
def Malformed.message : Malformed → String
  | .trailingComma => "trailing comma"
  | .keyNotString => "key must be a string"
  | .expectedColon => "expected `:`"
  | .expectedItemOrEnd => "expected `,` or `]`"
  | .expectedFieldOrEnd => "expected `,` or `\x7d`"
  | .trailingCharacters => "trailing characters"
  | .expectedWord => "expected ident"
  | .expectedValue => "expected value"
  | .invalidNumber => "invalid number"
  | .numberOutOfRange => "number out of range"
  | .invalidEscape => "invalid escape"
  | .unpairedSurrogate => "unexpected end of hex escape"
  | .loneSurrogate => "lone leading surrogate in hex escape"
  | .controlCharacter => "control character (\\u0000-\\u001F) found while parsing a string"
  | .tooDeep => "recursion limit exceeded"

/-- What a text was in the middle of when it ended. -/
inductive Unfinished where
  | value
  | list
  | object
  | string
  deriving DecidableEq, Repr

/-- The wording of an early end. -/
def Unfinished.message : Unfinished → String
  | .value => "EOF while parsing a value"
  | .list => "EOF while parsing a list"
  | .object => "EOF while parsing an object"
  | .string => "EOF while parsing a string"

/-- Why a text could not be read. -/
inductive Fault where
  | malformed (what : Malformed)
  | unfinished (what : Unfinished)
  | mismatch (what : Mismatch)
  deriving DecidableEq, Repr

/-- The wording of a fault. -/
def Fault.message : Fault → String
  | .malformed what => what.message
  | .unfinished what => what.message
  | .mismatch what => what.message reals

end TermLint.Json
