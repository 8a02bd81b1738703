/-
  TermLint.Toml.Time

  Dates and times of day, each one run of characters that is judged as a whole.
-/

import TermLint.Text.Digits

namespace TermLint.Toml

open Text (naturalOf)

/-- The number that two digits write. -/
def twoDigits? (a b : Char) : Option Nat :=
  if a.isDigit && b.isDigit then some (naturalOf [a, b]) else none

/-- A year with a day more. -/
def isLeap (year : Nat) : Bool :=
  year % 4 == 0 && (year % 100 != 0 || year % 400 == 0)

/-- The number of days of a month. -/
def monthDays (year month : Nat) : Nat :=
  if month == 2 then if isLeap year then 29 else 28
  else if month == 4 || month == 6 || month == 9 || month == 11 then 30
  else 31

/-- What follows a day of the calendar. -/
def afterDate? : List Char → Option (List Char)
  | a :: b :: c :: d :: '-' :: e :: f :: '-' :: g :: h :: rest =>
    match twoDigits? a b, twoDigits? c d, twoDigits? e f, twoDigits? g h with
    | some century, some decade, some month, some day =>
      if 1 ≤ month ∧ month ≤ 12 ∧ 1 ≤ day ∧ day ≤ monthDays (100 * century + decade) month then
        some rest
      else none
    | _, _, _, _ => none
  | _ => none

/-- What follows the parts of a second. -/
def afterFraction? : List Char → Option (List Char)
  | '.' :: s => if (s.takeWhile Char.isDigit).isEmpty then none else some (s.dropWhile Char.isDigit)
  | s => some s

/-- What follows the seconds of a time, which may be left out; a minute can have a second more. -/
def afterSeconds? : List Char → Option (List Char)
  | ':' :: a :: b :: s =>
    match twoDigits? a b with
    | some second => if second ≤ 60 then afterFraction? s else none
    | none => none
  | ':' :: _ => none
  | s => some s

/-- What follows a time of day. -/
def afterTime? : List Char → Option (List Char)
  | a :: b :: ':' :: c :: d :: s =>
    match twoDigits? a b, twoDigits? c d with
    | some hour, some minute => if hour ≤ 23 ∧ minute ≤ 59 then afterSeconds? s else none
    | _, _ => none
  | _ => none

/-- What may stand after a date and a time: nothing, or the distance from universal time. -/
def isOffset : List Char → Bool
  | [] => true
  | ['Z'] => true
  | ['z'] => true
  | [sign, a, b, ':', c, d] =>
    match twoDigits? a b, twoDigits? c d with
    | some hour, some minute => (sign == '+' || sign == '-') && hour ≤ 23 && minute ≤ 59
    | _, _ => false
  | _ => false

/-- A date, a time of day, or both. -/
def isTime (run : List Char) : Bool :=
  match afterDate? run with
  | some [] => true
  | some (mark :: s) =>
    (mark == 'T' || mark == 't' || mark == ' ') && (afterTime? s).any isOffset
  | none => afterTime? run == some []

end TermLint.Toml
