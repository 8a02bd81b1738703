/-
  TermLint.Decimal.Layout

  How a binary number is written: the fewest digits that read back, laid out either
  positionally, with at least one place after the point, or with a power of ten.
  A format chooses which powers of ten are written positionally, and which of two
  equally near decimals is written.
-/

import TermLint.Decimal.Shortest

namespace TermLint.Decimal

/-- The powers of ten of a first digit that are written positionally, a missing bound being none,
and which of two equally near decimals is written. -/
structure Layout where
  lowest : Option Int
  highest : Option Int
  tie : Tie

namespace Layout

/-- Every number is written positionally; of two equally near decimals the greater is written. -/
def positional : Layout := ⟨none, none, .up⟩

/-- Whether a number whose first digit has this power of ten is written positionally. -/
def isPositional (layout : Layout) (exponent : Int) : Bool :=
  layout.lowest.all (· ≤ exponent) && layout.highest.all (exponent ≤ ·)

/-- Digits with a point: zeros fill the places before, between and after, and one place after the
point is always there. -/
def writePositional (d : Digits) : List Char :=
  if d.exponent < 0 then
    ['0', '.'] ++ List.replicate (-d.exponent - 1).toNat '0' ++ d.digits
  else
    let whole := d.exponent.toNat + 1
    if d.digits.length ≤ whole then
      d.digits ++ List.replicate (whole - d.digits.length) '0' ++ ['.', '0']
    else d.digits.take whole ++ ['.'] ++ d.digits.drop whole

/-- Digits with a power of ten, whose sign is always written. -/
def writeScientific (d : Digits) : List Char :=
  let power := ['e', if d.exponent < 0 then '-' else '+'] ++ Nat.toDigits 10 d.exponent.natAbs
  match d.digits with
  | [] => []
  | [first] => first :: power
  | first :: rest => first :: '.' :: rest ++ power

/-- The written form of a number. -/
def write (layout : Layout) (x : Binary64) : String :=
  match x with
  | .nan => "NaN"
  | .infinite negative => if negative then "-inf" else "inf"
  | .finite negative mantissa exponent =>
    let d := shortest layout.tie mantissa exponent
    let body := if layout.isPositional d.exponent then writePositional d else writeScientific d
    String.ofList (if negative then '-' :: body else body)

end Layout
end TermLint.Decimal
