import Interlinear.Calendar.Date
import Interlinear.Numeral.Integer

/-!
# Timestamps in texts

A timestamp is a date with a year of four digits, and possibly a time of day after the letter T or
blanks, with a fraction of a second and an offset from universal time.  Months, days and hours may
have one digit.  Of the fraction six digits count.
-/

namespace Interlinear.Calendar

open Numeral (isAsciiDigit ofDigits)

/-- Exactly so many digits at the start of a text, as a number, and what follows. -/
def fixedNumber? (count : Nat) (cs : List Char) : Option (Nat × List Char) :=
  let digits := (cs.take count).takeWhile isAsciiDigit
  if digits.length = count then some (ofDigits digits, cs.drop count) else none

/-- One or two digits, as many as there are. -/
def shortNumber? (cs : List Char) : Option (Nat × List Char) :=
  (fixedNumber? 2 cs).or (fixedNumber? 1 cs)

def afterMark? (mark : Char) : List Char → Option (List Char)
  | [] => none
  | c :: cs => if c = mark then some cs else none

def isBlank (c : Char) : Bool :=
  c == ' ' || c == '\t'

/-- The letter T or blanks. -/
def afterSeparator? : List Char → Option (List Char)
  | [] => none
  | c :: cs =>
      if c = 'T' ∨ c = 't' then some cs
      else if isBlank c then some (cs.dropWhile isBlank)
      else none

/-- A fraction in microseconds. -/
def microseconds (digits : List Char) : Nat :=
  let digits := digits.take 6
  ofDigits (digits ++ List.replicate (6 - digits.length) '0')

/-- A fraction, if there is a point, and what follows. -/
def readFraction (cs : List Char) : Nat × List Char :=
  match afterMark? '.' cs with
  | some cs => (microseconds (cs.takeWhile isAsciiDigit), cs.dropWhile isAsciiDigit)
  | none => (0, cs)

/-- Hours and possibly minutes, up to the end of the text. -/
def readOffset? (cs : List Char) : Option Int := do
  let (hours, cs) ← shortNumber? cs
  match cs with
  | [] => return 60 * hours
  | cs =>
      let (minutes, cs) ← fixedNumber? 2 (← afterMark? ':' cs)
      if cs.isEmpty then return 60 * hours + minutes else none

/-- An offset from universal time, if any, up to the end of the text. -/
def readZone? (cs : List Char) : Option (Option Int) :=
  match cs, cs.dropWhile isBlank with
  | [], _ => some none
  | _, ['Z'] => some (some 0)
  | _, '+' :: cs => (readOffset? cs).map some
  | _, '-' :: cs => (readOffset? cs).map fun offset => some (-offset)
  | _, _ => none

/-- A date, and a time if the text has one; neither need exist. -/
structure Timestamp where
  date : Date
  time : Option DateTime

def readTime? (date : Date) (cs : List Char) : Option DateTime := do
  let (hour, cs) ← shortNumber? cs
  let (minute, cs) ← fixedNumber? 2 (← afterMark? ':' cs)
  let (second, cs) ← fixedNumber? 2 (← afterMark? ':' cs)
  let (microsecond, cs) := readFraction cs
  let offset ← readZone? cs
  return ⟨date, hour, minute, second, microsecond, offset⟩

def readTimestamp? (cs : List Char) : Option Timestamp := do
  let (year, cs) ← fixedNumber? 4 cs
  let (month, cs) ← shortNumber? (← afterMark? '-' cs)
  let (day, cs) ← shortNumber? (← afterMark? '-' cs)
  let date : Date := ⟨year, month, day⟩
  if cs.isEmpty then return ⟨date, none⟩
  return ⟨date, some (← readTime? date (← afterSeparator? cs))⟩

/-- Whether a text without a tag is a timestamp: a date alone needs two digits for month and day. -/
def looksDated (cs : List Char) : Bool :=
  match readTimestamp? cs with
  | some timestamp => timestamp.time.isSome || cs.length == 10
  | none => false

end Interlinear.Calendar
