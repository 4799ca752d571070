import FrameExport.Double.Basic

/-!
# Decimals and the doubles nearest to them

A `Decimal` is a natural coefficient times a power of ten.  `Decimal.toDouble` is correctly rounded:
it forms the exact quotient and rounds once.  Exponents so large or small that the answer is an
infinity or a zero whatever the coefficient are answered without forming the power of ten.
-/

namespace FrameExport

/-- The number `coefficient * 10 ^ exponent`. -/
structure Decimal where
  coefficient : Nat
  exponent : Int
deriving DecidableEq, Repr

/-- The natural number that a run of ASCII digits denotes, continuing from `start`. -/
def digitsValue (start : Nat) (digits : List Char) : Nat :=
  digits.foldl (fun n c => 10 * n + (c.toNat - '0'.toNat)) start

/-- The decimal digits of a natural number. -/
def digitsOf (n : Nat) : List Char := Nat.toDigits 10 n

/-- An integer in decimal digits. -/
def intDigits (n : Int) : List Char :=
  if n < 0 then '-' :: digitsOf n.natAbs else digitsOf n.natAbs

namespace Decimal

/-- The double nearest to a decimal, with the given sign. -/
def toDouble (negative : Bool) (d : Decimal) : Double :=
  if d.coefficient = 0 then .ofUnits negative 0 1
  else if 400 < d.exponent then .infinite negative
  else if d.exponent < -(400 + (d.coefficient.log2 : Int)) then .ofUnits negative 0 1
  else if 0 ≤ d.exponent then
    .ofUnits negative (d.coefficient * Nat.pow 10 d.exponent.toNat * Double.unitsPerOne) 1
  else
    .ofUnits negative (d.coefficient * Double.unitsPerOne) (Nat.pow 10 d.exponent.natAbs)

/-! ### Digits around the point -/

/-- How many places the point stands right of the first digit's left side. -/
def point (d : Decimal) : Int := (digitsOf d.coefficient).length + d.exponent

/-- The digits with the point in its place and no exponent; a number without fraction gets the
digits of `whole` appended. -/
def positional (whole : List Char) (d : Decimal) : List Char :=
  let digits := digitsOf d.coefficient
  if d.point ≤ 0 then '0' :: '.' :: (List.replicate d.point.natAbs '0' ++ digits)
  else if (digits.length : Int) ≤ d.point then
    digits ++ List.replicate d.exponent.toNat '0' ++ whole
  else
    digits.take d.point.toNat ++ '.' :: digits.drop d.point.toNat

/-- One digit before the point, the rest after it, and the exponent with its sign and at least two
digits. -/
def scientific (d : Decimal) : List Char :=
  let e := d.point - 1
  let exponentDigits := digitsOf e.natAbs
  let fraction := (digitsOf d.coefficient).drop 1
  (digitsOf d.coefficient).take 1
    ++ (if fraction.isEmpty then [] else '.' :: fraction)
    ++ 'e' :: (if e < 0 then '-' else '+')
    :: (if exponentDigits.length < 2 then '0' :: exponentDigits else exponentDigits)

end Decimal

end FrameExport
