import Interlinear.Numeral.Binary

/-!
# Shortest decimal texts of binary numbers

A finite number is a whole number times a power of two, and the reals that round to it are an
interval around it, which reaches half way to its neighbours and includes its ends when the whole
number is even.  For one, two, and up to seventeen digits, the two decimal numbers of so many digits
next to the value are tested; the first that lie in the interval give the digits, the nearer one if
both do.
-/

namespace Interlinear.Numeral

/-- A positive binary number, as a whole number times a power of two. -/
structure Dyadic where
  mantissa : Nat
  exponent : Int

/-- The magnitude of a finite 64-bit number. -/
def Dyadic.ofBits (bits : Nat) : Dyadic :=
  let field : Nat := bits / Nat.pow 2 52 % Nat.pow 2 11
  let fraction : Nat := bits % Nat.pow 2 52
  if field = 0 then ⟨fraction, -1074⟩ else ⟨fraction + Nat.pow 2 52, Int.ofNat field - 1075⟩

/-- The numbers that round to a number, as multiples of `numerator / denominator`. -/
structure Interval where
  low : Nat
  value : Nat
  high : Nat
  numerator : Nat
  denominator : Nat
  closed : Bool

/-- Half way to either neighbour; the one below a power of two is nearer. -/
def Dyadic.interval (x : Dyadic) : Interval :=
  let unit := x.exponent - 2
  {
    low := if x.mantissa = Nat.pow 2 52 ∧ -1074 < x.exponent then 4 * x.mantissa - 1
      else 4 * x.mantissa - 2
    value := 4 * x.mantissa
    high := 4 * x.mantissa + 2
    numerator := Nat.pow 2 unit.toNat
    denominator := Nat.pow 2 (-unit).toNat
    closed := x.mantissa % 2 = 0
  }

/-- Decimal digits with the place of the point: `0.d₁d₂… × 10 ^ point`. -/
structure DecimalDigits where
  digits : List Char
  point : Int

/-- The number of places from the point to the first digit that is not zero, less one. -/
def leadingPlaces : (fuel : Nat) → (numerator denominator : Nat) → Nat
  | 0, _, _ => 0
  | fuel + 1, numerator, denominator =>
      if denominator ≤ numerator then 0
      else leadingPlaces fuel (numerator * 10) denominator + 1

/-- The exponent `k` with `10 ^ (k - 1) ≤ numerator / denominator < 10 ^ k`. -/
def decimalExponent (numerator denominator : Nat) : Int :=
  if denominator ≤ numerator then
    (Nat.toDigits 10 (numerator / denominator)).length
  else
    1 - (leadingPlaces 400 numerator denominator : Int)

namespace Interval

/-- Whether `count * 10 ^ exponent` is in the interval. -/
def contains (i : Interval) (count : Nat) (exponent : Int) : Bool :=
  let left := count * Nat.pow 10 exponent.toNat * i.denominator
  let scale := i.numerator * Nat.pow 10 (-exponent).toNat
  if i.closed then i.low * scale ≤ left && left ≤ i.high * scale
  else i.low * scale < left && left < i.high * scale

/-- The number of units `10 ^ exponent` in the value, rounded down, and twice the remainder compared
with a unit. -/
def unitsBelow (i : Interval) (exponent : Int) : Nat × Ordering :=
  let numerator := i.value * i.numerator * Nat.pow 10 (-exponent).toNat
  let denominator := i.denominator * Nat.pow 10 exponent.toNat
  (numerator / denominator, compare (2 * (numerator % denominator)) denominator)

/-- The number of units next to the value that is in the interval, the nearer of two. -/
def nearby? (i : Interval) (exponent : Int) : Option Nat :=
  let (below, remainder) := i.unitsBelow exponent
  match i.contains below exponent, i.contains (below + 1) exponent with
  | true, true =>
      match remainder with
      | .lt => some below
      | .eq => some (below + below % 2)
      | .gt => some (below + 1)
  | true, false => some below
  | false, true => some (below + 1)
  | false, false => none

/-- The shortest digits in the interval, from `digits` digits on. -/
def shortestFrom (i : Interval) (point : Int) : (fuel : Nat) → (digits : Nat) → Nat × Int
  | 0, digits => ((i.unitsBelow (point - digits)).1, point - digits)
  | fuel + 1, digits =>
      match i.nearby? (point - digits) with
      | some count => (count, point - digits)
      | none => shortestFrom i point fuel (digits + 1)

end Interval

def dropTrailingZeros (digits : List Char) : List Char :=
  (digits.reverse.dropWhile (· == '0')).reverse

/-- The shortest digits of a positive number. -/
def Dyadic.shortest (x : Dyadic) : DecimalDigits :=
  let i := x.interval
  let point := decimalExponent (i.value * i.numerator) i.denominator
  let (count, exponent) := i.shortestFrom point 17 1
  let digits := Nat.toDigits 10 count
  ⟨dropTrailingZeros digits, exponent + digits.length⟩

end Interlinear.Numeral
