/-!
# Nearest binary numbers

A positive fraction is rounded to the nearest number of the 64-bit binary format, a tie to the one
whose last bit is zero.  The exponent is chosen so that the quotient has 53 bits, or fewer below the
least normal number; the bits of the result are then the rounded quotient plus a multiple of the
weight of the exponent, and a quotient that rounds up to 54 bits carries into the exponent by
itself.
-/

namespace Interlinear.Numeral

/-- The quotient rounded to the nearest whole number, a tie to the even one. -/
def roundQuotient (numerator denominator : Nat) : Nat :=
  let quotient := numerator / denominator
  let twice := 2 * (numerator % denominator)
  if denominator < twice then quotient + 1
  else if twice = denominator then quotient + quotient % 2
  else quotient

/-- The exponent `e` with `2 ^ e ≤ numerator / denominator < 2 ^ (e + 1)`. -/
def binaryExponent (numerator denominator : Nat) : Int :=
  let guess : Int := (numerator.log2 : Int) - (denominator.log2 : Int)
  let reached :=
    if 0 ≤ guess then denominator * Nat.pow 2 guess.toNat ≤ numerator
    else denominator ≤ numerator * Nat.pow 2 (-guess).toNat
  if reached then guess else guess - 1

/-- The bits of infinity, which are the first that no finite number has. -/
def infinityBits : Nat := 0x7FF0000000000000

/-- The bits of the number nearest to a positive fraction. -/
def nearestBits (numerator denominator : Nat) : Nat :=
  let unit := max (binaryExponent numerator denominator - 52) (-1074)
  let quotient :=
    if 0 ≤ unit then roundQuotient numerator (denominator * Nat.pow 2 unit.toNat)
    else roundQuotient (numerator * Nat.pow 2 (-unit).toNat) denominator
  min ((unit + 1074).toNat * Nat.pow 2 52 + quotient) infinityBits

/-- The 64-bit number nearest to a fraction. -/
def nearest (numerator denominator : Nat) : Float :=
  if numerator = 0 then 0
  else Float.ofBits (UInt64.ofNat (nearestBits numerator denominator))

/-- A decimal number: digits with a number of places. -/
structure Decimal where
  digits : Nat
  places : Nat
deriving DecidableEq

def Decimal.one : Decimal :=
  ⟨1, 0⟩

def Decimal.toFloat (x : Decimal) : Float :=
  nearest x.digits (Nat.pow 10 x.places)

end Interlinear.Numeral
