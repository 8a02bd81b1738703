/-
  TermLint.Decimal.Shortest

  The fewest decimal digits that read back as a given binary number.  The reals
  that round to `m * 2 ^ e` form an interval around it, whose ends belong to it
  when `m` is even.  For one digit, two digits and so on, the two neighbours of the
  number on that decimal grid are tried; the first grid with a neighbour in the
  interval gives the digits.  Seventeen digits always suffice.
-/

import TermLint.Decimal.Binary64

namespace TermLint.Decimal

/-- Significant digits, and the power of ten of the first of them. -/
structure Digits where
  digits : List Char
  exponent : Int
  deriving DecidableEq, Repr

/-- The power of ten of the first digit of `n / d`, for a positive quotient. -/
def leadingExponent (n d : Nat) : Int :=
  if d ≤ n then ((Nat.toDigits 10 (n / d)).length : Int) - 1
  else
    let gap := (Nat.toDigits 10 d).length - (Nat.toDigits 10 n).length
    if d ≤ n * Nat.pow 10 gap then -gap else -(gap + 1)

/-- The reals that round to `mantissa * 2 ^ exponent`, in quarters of `2 ^ exponent`: from `low` to
`high`, with the ends when `closed` is set. -/
structure Neighbourhood where
  low : Nat
  high : Nat
  closed : Bool

/-- The interval around a finite number; below a power of two the next number is half as far. -/
def neighbourhood (mantissa : Nat) (exponent : Int) : Neighbourhood where
  low := if mantissa = Nat.pow 2 52 ∧ Binary64.minExponent < exponent then 4 * mantissa - 1
    else 4 * mantissa - 2
  high := 4 * mantissa + 2
  closed := mantissa % 2 == 0

/-- Whether `n / d`, in the unit of the interval, lies in it. -/
def Neighbourhood.holds (hood : Neighbourhood) (n d : Nat) : Bool :=
  if hood.closed then hood.low * d ≤ n && n ≤ hood.high * d
  else hood.low * d < n && n < hood.high * d

/-- Which of two equally near decimals is taken. -/
inductive Tie where
  /-- The one whose last digit is even. -/
  | even
  /-- The greater one. -/
  | up
  deriving DecidableEq, Repr

/-- Whether the lower of the neighbours `below` and `below + 1` of `below + rest / d` is taken. -/
def Tie.takesLower (tie : Tie) (below rest d : Nat) : Bool :=
  2 * rest < d || (2 * rest == d && tie == .even && below % 2 == 0)

/-- The point of the grid with the given power of ten that reads back as `mantissa * 2 ^ exponent`,
if there is one, in units of the grid; of two, the nearer. -/
def gridPoint (tie : Tie) (mantissa : Nat) (exponent : Int) (unit : Int) : Option Nat :=
  let hood := neighbourhood mantissa exponent
  -- the value over the unit of the grid
  let (n2, d2) := scaled 2 exponent mantissa 1
  let (n, d) := scaled 10 (-unit) n2 d2
  let below := n / d
  let inside (point : Nat) : Bool :=
    let (a, b) := scaled 10 unit point 1
    let (a, b) := scaled 2 (-(exponent - 2)) a b
    hood.holds a b
  match inside below, inside (below + 1) with
  | false, false => none
  | true, false => some below
  | false, true => some (below + 1)
  | true, true => if tie.takesLower below (n % d) d then some below else some (below + 1)

/-- The fewest digits that read back as `mantissa * 2 ^ exponent`. -/
def shortest (tie : Tie) (mantissa : Nat) (exponent : Int) : Digits :=
  if mantissa = 0 then ⟨['0'], 0⟩
  else
    let (n, d) := scaled 2 exponent mantissa 1
    let lead := leadingExponent n d
    let attempt (count : Nat) : Option Digits :=
      let unit := lead - count
      (gridPoint tie mantissa exponent unit).map fun point =>
        let written := Nat.toDigits 10 point
        { digits := (written.reverse.dropWhile (· == '0')).reverse
          exponent := unit + written.length - 1 }
    ((List.range 17).findSome? attempt).getD ⟨Nat.toDigits 10 (n / d), lead⟩

end TermLint.Decimal
