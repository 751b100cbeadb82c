import Interlinear.Calendar.Timestamp
import Interlinear.Numeral.Reading
import Interlinear.Text.Base64
import Interlinear.Unicode.Case
import Interlinear.Yaml.Node
import Interlinear.Yaml.Value

/-!
# Meanings of scalars

The value of a scalar follows from its tag and its text.  Underscores in numbers are skipped.  Parts
of a number between colons count sixty times as much as the next.  The word for no number always
stands for the same one.  What comes to no number in another way is known by the place of the
scalar, which is handed to it.
-/

namespace Interlinear.Yaml

open Numeral (splitSign)

def dropUnderscores (cs : List Char) : List Char :=
  cs.filter (· != '_')

def readWhole (text : List Char) : Except Fault Int :=
  (Numeral.readInteger (String.ofList text)).mapError .integer

def readMarked (base : Nat) (letter : Char) (text : List Char) : Except Fault Int :=
  (Numeral.readInBase base letter (String.ofList text)).mapError .integer

def readWholes : List (List Char) → Except Fault (List Int)
  | [] => .ok []
  | part :: parts => do
      let n ← readWhole part
      let ns ← readWholes parts
      .ok (n :: ns)

/-- A whole number without a sign, which is in another base if it starts with a zero. -/
def readMagnitude (cs : List Char) : Except Fault Int :=
  match cs with
  | [] => .error .emptyNumber
  | ['0'] => .ok 0
  | '0' :: 'b' :: digits => readMarked 2 'b' digits
  | '0' :: 'x' :: digits => readMarked 16 'x' digits
  | '0' :: digits => readMarked 8 'o' ('0' :: digits)
  | cs =>
      if cs.contains ':' then
        (readWholes (Text.parts ':' cs)).map (·.foldl (fun value part => 60 * value + part) 0)
      else readWhole cs

def intValue (text : String) : Except Fault Int :=
  match dropUnderscores text.toList with
  | [] => .error .emptyNumber
  | cs =>
      let (negative, cs) := splitSign cs
      (readMagnitude cs).map fun n => if negative then -n else n

def readFraction (cs : List Char) : Except Fault Float :=
  match Numeral.readFloat? cs with
  | some x => .ok x
  | none => .error (.fraction (String.ofList cs))

def readFractions : List (List Char) → Except Fault (List Float)
  | [] => .ok []
  | part :: parts => do
      let x ← readFraction part
      let xs ← readFractions parts
      .ok (x :: xs)

/-- The sum of parts, last first, each weighing sixty times as much as the one before. -/
def sexagesimalSum (sum : Float) (weight : Nat) : List Float → Except Fault Float
  | [] => .ok sum
  | part :: parts =>
      if Numeral.nearestBits weight 1 = Numeral.infinityBits then .error .numberTooLarge
      else sexagesimalSum (sum + part * Numeral.nearest weight 1) (60 * weight) parts

def infinity : Float :=
  Float.ofBits (UInt64.ofNat Numeral.infinityBits)

def notNumber : Float :=
  Float.ofBits (UInt64.ofNat (Numeral.infinityBits + Nat.pow 2 51))

def readFloatMagnitude (cs : List Char) : Except Fault Float :=
  if cs = ".inf".toList then .ok infinity
  else if cs.contains ':' then do
    let parts ← readFractions (Text.parts ':' cs)
    sexagesimalSum 0 1 parts.reverse
  else readFraction cs

def floatValue (number : Nat) (text : String) : Except Fault Value :=
  match Unicode.lowerText (dropUnderscores text.toList) with
  | [] => .error .emptyNumber
  | cs =>
      let (negative, cs) := splitSign cs
      if cs = ".nan".toList then .ok (.float notNumber)
      else
        (readFloatMagnitude cs).map fun x =>
          if x.isNaN then .nan number else .float (if negative then -x else x)

def truthValues : List (String × Bool) :=
  [("yes", true), ("no", false), ("true", true), ("false", false), ("on", true), ("off", false)]

def boolValue (text : String) : Except Fault Bool :=
  let word := String.ofList (Unicode.lowerText text.toList)
  match truthValues.lookup word with
  | some b => .ok b
  | none => .error (.truthValue word)

def bytesValue (text : String) : Except Fault (List UInt8) :=
  if text.toList.all fun c => c.toNat < 0x80 then
    match Text.decode64 text.toList with
    | some bytes => .ok bytes
    | none => .error .malformed
  else
    .error .malformed

def timestampValue (text : String) : Except Fault Value :=
  match Calendar.readTimestamp? (dropFinalBreak text.toList) with
  | none => .error .notTimestamp
  | some ⟨date, none⟩ => (date.check.map Value.date).mapError .calendar
  | some ⟨_, some time⟩ => (time.check.map Value.time).mapError .calendar

/-- The value of the scalar with a number, if its tag is that of a scalar. -/
def scalarValue (number : Nat) (tag : Tag) (text : String) : Except Fault Value :=
  match tag with
  | .null => .ok .null
  | .bool => (boolValue text).map .bool
  | .int => (intValue text).map .int
  | .float => floatValue number text
  | .binary => (bytesValue text).map .bytes
  | .timestamp => timestampValue text
  | .text => .ok (.text text)
  | _ => .error .malformed

end Interlinear.Yaml
