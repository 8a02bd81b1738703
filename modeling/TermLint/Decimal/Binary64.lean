/-
  TermLint.Decimal.Binary64

  Numbers of the binary format with 53 significant bits, as exact data: a sign, a
  mantissa and a power of two.  `ofDecimal` rounds an exact decimal to the nearest
  such number, a tie going to the even mantissa; `ofParts` rounds a significand and
  a power of ten one after the other.  All arithmetic is on `Nat` and `Int`;
  quotients are kept as a numerator and a denominator.
-/

namespace TermLint.Decimal

/-- A number of the format: `finite s m e` stands for `m * 2 ^ e`, negated when `s` is set. -/
inductive Binary64 where
  | finite (negative : Bool) (mantissa : Nat) (exponent : Int)
  | infinite (negative : Bool)
  | nan
  deriving DecidableEq, Repr

/-- `n / d` times `base ^ power`, as a quotient. -/
def scaled (base : Nat) (power : Int) (n d : Nat) : Nat × Nat :=
  if 0 ≤ power then (n * base.pow power.toNat, d)
  else (n, d * base.pow (-power).toNat)

/-- The natural number nearest to `n / d`; of two equally near ones, the even one. -/
def roundEven (n d : Nat) : Nat :=
  let quotient := n / d
  let remainder := n % d
  if 2 * remainder < d then quotient
  else if d < 2 * remainder then quotient + 1
  else quotient + quotient % 2

namespace Binary64

/-- The least power of two that a mantissa is scaled by. -/
def minExponent : Int := -1074

/-- The greatest power of two that a mantissa is scaled by. -/
def maxExponent : Int := 971

/-- Zero, which has a sign. -/
def zero (negative : Bool) : Binary64 := .finite negative 0 minExponent

/-- The power of two at which `n / d` has a 53-bit mantissa, or `minExponent` for a smaller one. -/
def exponentOf (n d : Nat) : Int :=
  let rough := max ((n.log2 : Int) - d.log2 - 52) minExponent
  let (n', d') := scaled 2 (-rough) n d
  if n' / d' < Nat.pow 2 52 then max (rough - 1) minExponent else rough

/-- The number nearest to `n / d`. -/
def ofRatio (negative : Bool) (n d : Nat) : Binary64 :=
  let exponent := exponentOf n d
  let (n', d') := scaled 2 (-exponent) n d
  let mantissa := roundEven n' d'
  let (mantissa, exponent) :=
    if mantissa = Nat.pow 2 53 then (Nat.pow 2 52, exponent + 1) else (mantissa, exponent)
  if maxExponent < exponent then .infinite negative else .finite negative mantissa exponent

/-- The number nearest to `coefficient * 10 ^ scale`.  A decimal with more than 310 places before
its point is infinite and one whose first 330 places after the point are zeros is zero, so no power
larger than the text that was read is ever formed. -/
def ofDecimal (negative : Bool) (coefficient : Nat) (scale : Int) : Binary64 :=
  let places : Int := (Nat.toDigits 10 coefficient).length + scale
  if coefficient = 0 ∨ places < -330 then zero negative
  else if 310 < places then .infinite negative
  else
    let (n, d) := scaled 10 scale coefficient 1
    ofRatio negative n d

/-! ## Decimals in rounded steps -/

/-- Whether a number is zero, of either sign. -/
def isZero : Binary64 → Bool
  | .finite _ mantissa _ => mantissa == 0
  | _ => false

/-- The number nearest to `10 ^ k`, which is infinite when `k` is above 308. -/
def tenPower (k : Nat) : Binary64 := ofDecimal false 1 k

/-- The number nearest to `x` times `tenPower k`; zero stays zero. -/
def timesTen (x : Binary64) (k : Nat) : Binary64 :=
  if x.isZero then x
  else
    match x, tenPower k with
    | .finite negative m e, .finite _ m' e' =>
      let (n, d) := scaled 2 (e + e') (m * m') 1
      ofRatio negative n d
    | .finite negative _ _, _ => .infinite negative
    | x, _ => x

/-- The number nearest to the quotient of `x` and `tenPower k`, for a `k` up to 308. -/
def overPower (x : Binary64) (k : Nat) : Binary64 :=
  match x, tenPower k with
  | .finite negative m e, .finite _ m' e' =>
    let (n, d) := scaled 2 (e - e') m m'
    ofRatio negative n d
  | x, _ => x

/-- `x / 10 ^ k`, in quotients by `tenPower 308` and a last one by what is left of the power; zero
stays zero. -/
def overTen (x : Binary64) (k : Nat) : Binary64 :=
  if x.isZero then x
  else if k ≤ 308 then x.overPower k
  else (x.overPower 308).overTen (k - 308)
termination_by k

/-- `significand * 10 ^ power`: the significand is rounded first, and then its product or quotient
with the power of ten.  This need not give the nearest number; `20 * 10 ^ 61` gives the one below
it. -/
def ofParts (negative : Bool) (significand : Nat) (power : Int) : Binary64 :=
  let x := ofDecimal negative significand 0
  if 0 ≤ power then x.timesTen power.toNat else x.overTen (-power).toNat

end Binary64
end TermLint.Decimal
