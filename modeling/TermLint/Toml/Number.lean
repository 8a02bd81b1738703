/-
  TermLint.Toml.Number

  Numbers, each one run of characters that is judged as a whole.  The form of a run
  says whether it is a number: an integer in a base that its second letter names, a
  decimal with a point or a power of ten, or a whole number.  Underscores may stand
  between its digits.  A whole number with underscores is told by them alone, so
  that other characters in it only cost it its value.
-/

import TermLint.Text.Cut
import TermLint.Text.Digits
import TermLint.Toml.Data

namespace TermLint.Toml

open Decimal (Binary64)
open Text (hexDigit? digitsValue naturalOf)

/-! ## Underscores -/

/-- A digit of a base up to sixteen. -/
def isDigitOf (base : Nat) (c : Char) : Bool :=
  (hexDigit? c).any (· < base)

/-- Whether an underscore may follow: after a digit, and after a sign that begins the run. -/
def endsGroup (isDigit : Char → Bool) (group : List Char) : Bool :=
  group == ['+'] || group == ['-'] || group.getLast?.any isDigit

/-- Whether every underscore of a run stands where it may, and a digit after it. -/
def isGrouped (isDigit : Char → Bool) (run : List Char) : Bool :=
  let groups := Text.pieces '_' run
  groups.dropLast.all (endsGroup isDigit) && groups.tail.all fun group => group.head?.any isDigit

/-- A run without its underscores. -/
def ungrouped (run : List Char) : List Char :=
  run.filter (· != '_')

/-! ## Integers -/

/-- A sign that may stand in front, as whether it is a minus, and what follows it. -/
def splitSign : List Char → Bool × List Char
  | '-' :: s => (true, s)
  | '+' :: s => (false, s)
  | s => (false, s)

/-- A magnitude with its sign. -/
def withSign (negative : Bool) (magnitude : Nat) : Int :=
  if negative then -magnitude else magnitude

/-- An integer that fits 128 bits, signed or unsigned. -/
def wide? (n : Int) : Option Number :=
  if -(Nat.pow 2 127 : Int) ≤ n ∧ n < Nat.pow 2 128 then some (.int n) else none

/-- The base that a letter names. -/
def baseOf? : Char → Option Nat
  | 'x' => some 16
  | 'o' => some 8
  | 'b' => some 2
  | _ => none

/-- An integer in a base that its second letter names.  Without digits it has no value. -/
def based? : List Char → Option Data
  | '0' :: letter :: s =>
    match baseOf? letter with
    | none => none
    | some base =>
      if s.all (fun c => c == '_' || isDigitOf base c) && isGrouped (isDigitOf base) s then
        some (.number (if s = [] then none else wide? (digitsValue base (ungrouped s))))
      else none
  | _ => none

/-- The value of a whole number that is written in decimal digits alone. -/
def wholeValue? (negative : Bool) (digits : List Char) : Option Number :=
  if digits.all Char.isDigit then wide? (withSign negative (naturalOf digits)) else none

/-! ## Decimals -/

/-- Decimal digits, underscores apart. -/
def isPlaces (s : List Char) : Bool :=
  s.all (fun c => c.isDigit || c == '_') && s.any Char.isDigit

/-- Whether there is no needless zero in front. -/
def isTrimmed (s : List Char) : Bool :=
  s == ['0'] || s.head? != some '0'

/-- A mark of a power of ten. -/
def isPowerMark (c : Char) : Bool := c == 'e' || c == 'E'

/-- A mark by which a decimal differs from a whole number. -/
def isDecimalMark (c : Char) : Bool := c == '.' || isPowerMark c

/-- The digits after a point; none are written as nothing at all. -/
def fraction? : List Char → Option (List Char)
  | [] => some []
  | _ :: s => if isPlaces s then some (ungrouped s) else none

/-- The power of ten after its mark; none is written as nothing at all. -/
def power? : List Char → Option Int
  | [] => some 0
  | _ :: s =>
    let (negative, digits) := splitSign s
    if isPlaces digits then some (withSign negative (naturalOf (ungrouped digits))) else none

/-- The value of a decimal, unless it is too large for one. -/
def decimalValue? (negative : Bool) (whole places : List Char) (power : Int) : Option Number :=
  match Binary64.ofDecimal negative (naturalOf (whole ++ places)) (power - places.length) with
  | .infinite _ => none
  | x => some (.real x)

/-- A decimal without its sign: a whole number, the places after a point, and a power of ten. -/
def decimal? (negative : Bool) (s : List Char) : Option Data :=
  let front := s.takeWhile (fun c => !isPowerMark c)
  let whole := front.takeWhile (· != '.')
  match fraction? (front.drop whole.length), power? (s.drop front.length) with
  | some places, some power =>
    if isPlaces whole && isTrimmed whole then
      some (.number (decimalValue? negative (ungrouped whole) places power))
    else none
  | _, _ => none

/-! ## Numbers with a sign -/

/-- A number that may have a sign: infinity, the value that is no number, a decimal or a whole
number.  Digits come first, and what comes next tells which it is. -/
def signed? (run : List Char) : Option Data :=
  let (negative, s) := splitSign run
  let rest := s.dropWhile Char.isDigit
  if s = ['i', 'n', 'f'] then some (.number (some (.real (.infinite negative))))
  else if s = ['n', 'a', 'n'] then some (.number (some (.real .nan)))
  else if rest.any isDecimalMark then
    if isGrouped Char.isDigit run then decimal? negative s else none
  else if s ≠ [] ∧ (rest = [] ∨ rest.head? = some '_') ∧ isTrimmed s ∧
      isGrouped (isDigitOf 16) run then
    some (.number (wholeValue? negative (ungrouped s)))
  else none

/-- A number. -/
def number? (run : List Char) : Option Data :=
  based? run <|> signed? run

end TermLint.Toml
