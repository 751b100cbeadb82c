import Interlinear.Numeral.Binary
import Interlinear.Numeral.Integer

/-!
# Reading numbers

Integers in other bases are digits of the base with an optional sign and an optional mark of the
base before them.  Fractions are digits with an optional point and an optional exponent, or a name
for infinity or for what is no number; they are rounded to the nearest binary number, and those far
beyond the range are not computed.
-/

namespace Interlinear.Numeral

/-- The value of a digit in a base up to sixteen. -/
def digitIn? (base : Nat) (c : Char) : Option Nat :=
  let value :=
    if '0' ≤ c ∧ c ≤ '9' then c.toNat - 0x30
    else if 'a' ≤ c ∧ c ≤ 'f' then c.toNat - 0x57
    else if 'A' ≤ c ∧ c ≤ 'F' then c.toNat - 0x37
    else base
  if value < base then some value else none

/-- Digits after a value, highest first. -/
def valueIn? (base : Nat) : (value : Nat) → List Char → Option Nat
  | value, [] => some value
  | value, c :: cs =>
      match digitIn? base c with
      | some digit => valueIn? base (base * value + digit) cs
      | none => none

/-- Drops the mark of a base: a zero and the letter. -/
def dropBaseMark (letter : Char) : List Char → List Char
  | '0' :: c :: cs => if c.toLower = letter then cs else '0' :: c :: cs
  | cs => cs

/-- An integer in base two, eight or sixteen, without underscores. -/
def readInBase (base : Nat) (letter : Char) (text : String) : Except IntegerFault Int :=
  let (negative, cs) := splitSign (strip isAsciiBlank (text.toList.map toAscii))
  let magnitude? :=
    match dropBaseMark letter cs with
    | [] => none
    | digits => valueIn? base 0 digits
  match magnitude? with
  | some magnitude => .ok (signed negative magnitude)
  | none => .error (.malformed base text)

/-- A number with an exponent of ten. -/
def decimalFloat (digits : Nat) (exponent : Int) : Float :=
  if digits = 0 then 0
  else
    let size : Int := (digits.log2 : Int) * 3 / 10 + exponent
    if 400 < size then Float.ofBits (UInt64.ofNat infinityBits)
    else if size < -400 then 0
    else nearest (digits * Nat.pow 10 exponent.toNat) (Nat.pow 10 (-exponent).toNat)

def isSpecial (names : List String) (cs : List Char) : Bool :=
  names.any fun name => name.toList == cs.map Char.toLower

/-- A whole number with a sign, as in an exponent. -/
def readExponent? (cs : List Char) : Option Int :=
  let (negative, cs) := splitSign cs
  match cs with
  | [] => none
  | cs => if cs.all isAsciiDigit then some (signed negative (ofDigits cs)) else none

/-- Digits with an optional point and exponent. -/
def readUnsigned? (cs : List Char) : Option Float :=
  let whole := cs.takeWhile isAsciiDigit
  let rest := cs.dropWhile isAsciiDigit
  let (places, rest) :=
    match rest with
    | '.' :: rest => (rest.takeWhile isAsciiDigit, rest.dropWhile isAsciiDigit)
    | rest => ([], rest)
  if whole.isEmpty && places.isEmpty then none
  else
    let exponent? :=
      match rest with
      | [] => some 0
      | e :: rest => if e = 'e' ∨ e = 'E' then readExponent? rest else none
    exponent?.map fun exponent =>
      decimalFloat (ofDigits (whole ++ places)) (exponent - (places.length : Int))

/-- A number without underscores, with optional sign and blanks around it. -/
def readFloat? (cs : List Char) : Option Float :=
  let (negative, cs) := splitSign (strip isAsciiBlank (cs.map toAscii))
  let magnitude? :=
    if isSpecial ["inf", "infinity"] cs then some (Float.ofBits (UInt64.ofNat infinityBits))
    else if isSpecial ["nan"] cs then some (Float.ofBits (UInt64.ofNat (infinityBits + Nat.pow 2 51)))
    else readUnsigned? cs
  magnitude?.map fun magnitude => if negative then -magnitude else magnitude

end Interlinear.Numeral
