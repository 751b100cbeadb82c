import Interlinear.Text.Quoted
import Interlinear.Unicode.Blank
import Interlinear.Unicode.Digit

/-!
# Integers in texts

An integer is written as decimal digits of any script, with an optional sign before them, single
underscores between them and blanks around the whole.  In a text that is all ASCII the blanks are
the space and the controls from tab to carriage return; elsewhere the non-ASCII blanks count too.

Texts of more than 4300 digits are refused in both directions.
-/

namespace Interlinear.Numeral

inductive IntegerFault where
  | malformed (base : Nat) (text : String)
  | tooLong (digits : Nat)

def digitLimit : Nat := 4300

/-- The greatest number of characters of a text that messages show. -/
def shownLength : Nat := 200

def IntegerFault.message : IntegerFault → String
  | malformed base text =>
      "invalid literal for int() with base " ++ toString base ++ ": " ++
        String.ofList ((Text.quoted text).toList.take shownLength)
  | tooLong digits =>
      "Exceeds the limit (4300 digits) for integer string conversion: value has " ++
        toString digits ++ " digits; use sys.set_int_max_str_digits() to increase the limit"

/-- Brings blanks and digits of other scripts to their ASCII form; what is neither becomes a
question mark. -/
def toAscii (c : Char) : Char :=
  if c.toNat < 0x80 then c
  else if Unicode.isBlank c then ' '
  else
    match Unicode.digitValue? c.toNat with
    | some value => Char.ofNat (0x30 + value)
    | none => '?'

def isAsciiBlank (c : Char) : Bool :=
  c == ' ' || ('\t'.toNat ≤ c.toNat && c.toNat ≤ '\r'.toNat)

def strip (isBlank : Char → Bool) (cs : List Char) : List Char :=
  ((cs.dropWhile isBlank).reverse.dropWhile isBlank).reverse

def isAsciiDigit (c : Char) : Bool :=
  '0'.toNat ≤ c.toNat && c.toNat ≤ '9'.toNat

/-- The digits of a text that starts with a digit and has an underscore only between digits. -/
def groupedDigits? : List Char → Option (List Char)
  | [] => none
  | [c] => if isAsciiDigit c then some [c] else none
  | c :: '_' :: cs =>
      if isAsciiDigit c then (groupedDigits? cs).map (c :: ·) else none
  | c :: cs =>
      if isAsciiDigit c then (groupedDigits? cs).map (c :: ·) else none

/-- The value of ASCII digits, highest first. -/
def ofDigits (digits : List Char) : Nat :=
  digits.foldl (fun value c => 10 * value + (c.toNat - 0x30)) 0

/-- The sign of a text and what follows it. -/
def splitSign : List Char → Bool × List Char
  | '-' :: cs => (true, cs)
  | '+' :: cs => (false, cs)
  | cs => (false, cs)

def signed (negative : Bool) (magnitude : Nat) : Int :=
  if negative then -(magnitude : Int) else magnitude

def readInteger (text : String) : Except IntegerFault Int :=
  let (negative, cs) := splitSign (strip isAsciiBlank (text.toList.map toAscii))
  match groupedDigits? cs with
  | none => .error (.malformed 10 text)
  | some digits =>
      if digitLimit < digits.length then .error (.tooLong digits.length)
      else .ok (signed negative (ofDigits digits))

end Interlinear.Numeral
