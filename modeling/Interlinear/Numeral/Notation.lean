import Interlinear.Numeral.Shortest

/-!
# Writing binary numbers

A number is written with the fewest digits that read back as it, positionally from 0.0001 up to
below 10 ^ 16 and with an exponent of two digits or more elsewhere.  A whole number keeps a zero
after its point.
-/

namespace Interlinear.Numeral

/-- How the numbers that are not finite are written. -/
structure SpecialNames where
  notNumber : String
  infinity : String
  negativeInfinity : String

def plainNames : SpecialNames :=
  ⟨"nan", "inf", "-inf"⟩

def exponentText (exponent : Int) : List Char :=
  let digits := Nat.toDigits 10 exponent.natAbs
  let digits := if digits.length < 2 then '0' :: digits else digits
  'e' :: (if exponent < 0 then '-' else '+') :: digits

/-- Digits with an exponent, the point after the first digit. -/
def scientific (x : DecimalDigits) : List Char :=
  match x.digits with
  | [] => ['0']
  | [d] => d :: exponentText (x.point - 1)
  | d :: ds => d :: '.' :: ds ++ exponentText (x.point - 1)

/-- Digits with zeros up to or from the point. -/
def positional (x : DecimalDigits) : List Char :=
  if x.point ≤ 0 then
    '0' :: '.' :: List.replicate (-x.point).toNat '0' ++ x.digits
  else
    let whole := x.point.toNat
    if x.digits.length ≤ whole then
      x.digits ++ List.replicate (whole - x.digits.length) '0' ++ ['.', '0']
    else
      x.digits.take whole ++ '.' :: x.digits.drop whole

def isPositional (x : DecimalDigits) : Bool :=
  -4 < x.point && x.point ≤ 16

/-- The text of a 64-bit number. -/
def floatText (names : SpecialNames) (x : Float) : String :=
  let bits := x.toBits.toNat
  let negative := Nat.pow 2 63 ≤ bits
  let magnitude := bits % Nat.pow 2 63
  if infinityBits < magnitude then names.notNumber
  else if magnitude = infinityBits then
    if negative then names.negativeInfinity else names.infinity
  else
    let digits :=
      if magnitude = 0 then ['0', '.', '0']
      else
        let x := (Dyadic.ofBits magnitude).shortest
        if isPositional x then positional x else scientific x
    String.ofList (if negative then '-' :: digits else digits)

end Interlinear.Numeral
