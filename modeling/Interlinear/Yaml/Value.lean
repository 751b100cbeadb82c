import Interlinear.Calendar.Date
import Interlinear.Numeral.Shortest

/-!
# Values of configuration documents

A value that contains itself cannot be a tree.  It is cut below the depth to which anyone looks into
it, and what may contain itself carries a number by which its copies are known: inside itself it
comes up with the same number again.

Keys of mappings and members of sets are compared as numbers where they are numbers, truth values
counting as one and zero, and each keeps its first form.  What is no number is the same key as
itself only: there is one that the word for it stands for, and each scalar that comes to no number
in another way has one of its own.
-/

namespace Interlinear.Yaml

inductive Value where
  | null
  | bool (b : Bool)
  | int (n : Int)
  | float (x : Float)
  /-- No number that is known by a number of its own. -/
  | nan (number : Nat)
  | text (s : String)
  | bytes (bytes : List UInt8)
  | date (date : Calendar.Date)
  | time (time : Calendar.DateTime)
  | list (items : List Value)
  | pair (first second : Value)
  | mapping (entries : List (Value × Value))
  | set (members : List Value)
  /-- A value that may contain itself, and its number. -/
  | knot (number : Nat) (value : Value)
deriving Inhabited

namespace Value

/-- A value without its number. -/
def untied : Value → Value
  | knot _ value => value.untied
  | value => value

/-- A finite number as a whole number times a power of two; none for infinities and no number. -/
def dyadic? (x : Float) : Option (Int × Int) :=
  let bits := x.toBits.toNat
  let magnitude := Numeral.Dyadic.ofBits (bits % Nat.pow 2 63)
  if Numeral.infinityBits ≤ bits % Nat.pow 2 63 then none
  else
    let mantissa : Int := magnitude.mantissa
    some (if Nat.pow 2 63 ≤ bits then -mantissa else mantissa, magnitude.exponent)

/-- Whether a number is exactly a whole number. -/
def isWhole (x : Float) (n : Int) : Bool :=
  match dyadic? x with
  | none => false
  | some (mantissa, exponent) =>
      mantissa * Int.pow 2 exponent.toNat == n * Int.pow 2 (-exponent).toNat

/-- Whether two numbers are equal, or both the one that is no number. -/
def isSameFloat (x y : Float) : Bool :=
  x == y || (x != x && y != y)

/-- The whole number that a value is equal to by its kind. -/
def whole? : Value → Option Int
  | bool b => some (if b then 1 else 0)
  | int n => some n
  | _ => none

/-- Whether two values are the same key. -/
def isSameKey : Value → Value → Bool
  | null, null => true
  | text s, text t => s == t
  | bytes a, bytes b => a == b
  | date a, date b => a == b
  | time a, time b => a.isSame b
  | nan number, nan other => number == other
  | float x, float y => isSameFloat x y
  | float x, other => other.whole?.any (isWhole x)
  | other, float x => other.whole?.any (isWhole x)
  | a, b =>
      match a.whole?, b.whole? with
      | some m, some n => m == n
      | _, _ => false

/-- Sets the value of a key, which keeps its place and form if it is there already. -/
def insertEntry (key value : Value) : List (Value × Value) → List (Value × Value)
  | [] => [(key, value)]
  | (other, previous) :: entries =>
      if other.isSameKey key then (other, value) :: entries
      else (other, previous) :: insertEntry key value entries

/-- A mapping of the pairs, from first to last. -/
def ofPairs (pairs : List (Value × Value)) : List (Value × Value) :=
  pairs.foldl (fun entries pair => insertEntry pair.1 pair.2 entries) []

/-- The value under a key that is a text. -/
def lookup? (key : String) (entries : List (Value × Value)) : Option Value :=
  (entries.find? fun entry => entry.1.isSameKey (text key)).map Prod.snd

end Value

end Interlinear.Yaml
