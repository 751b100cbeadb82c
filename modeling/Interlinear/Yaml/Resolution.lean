import Interlinear.Calendar.Timestamp
import Interlinear.Text.Parts
import Interlinear.Yaml.Tag

/-!
# Kinds of plain scalars

A plain scalar without a tag is of the first kind whose form it has, and a text if it has none.
There are forms for numbers, dates, nothing, and the two special keys; none for truth values, so
that words such as *no* stay words.  A line feed at the end of the text does not count.
-/

namespace Interlinear.Yaml

/-- Drops a sign. -/
def unsign : List Char → List Char
  | '-' :: cs => cs
  | '+' :: cs => cs
  | cs => cs

def isDigitOrGap (c : Char) : Bool :=
  Numeral.isAsciiDigit c || c == '_'

/-- Digits and underscores after a first digit of a class. -/
def isGrouped (isFirst : Char → Bool) : List Char → Bool
  | [] => false
  | c :: cs => isFirst c && cs.all isDigitOrGap

def isNonZero (c : Char) : Bool :=
  Numeral.isAsciiDigit c && c != '0'

/-- One or two digits below sixty. -/
def isSexagesimalDigit : List Char → Bool
  | [a] => Numeral.isAsciiDigit a
  | [a, b] => '0' ≤ a && a ≤ '5' && Numeral.isAsciiDigit b
  | _ => false

/-- Grouped digits with at least one sexagesimal digit after them. -/
def isSexagesimal (isFirst : Char → Bool) (cs : List Char) : Bool :=
  match Text.parts ':' cs with
  | first :: digit :: digits =>
      isGrouped isFirst first && (digit :: digits).all isSexagesimalDigit
  | _ => false

def isMarked (letter : Char) (isDigit : Char → Bool) : List Char → Bool
  | '0' :: c :: digit :: digits => c == letter && (digit :: digits).all isDigit
  | _ => false

def isHexOrGap (c : Char) : Bool :=
  isDigitOrGap c || ('a' ≤ c && c ≤ 'f') || ('A' ≤ c && c ≤ 'F')

/-- A whole number: binary, octal, decimal, hexadecimal or sexagesimal. -/
def looksWhole (text : List Char) : Bool :=
  let cs := unsign text
  isMarked 'b' (fun c => c == '0' || c == '1' || c == '_') cs ||
    (match cs with
      | '0' :: digits => digits.all fun c => ('0' ≤ c && c ≤ '7') || c == '_'
      | _ => false) ||
    isGrouped isNonZero cs || isMarked 'x' isHexOrGap cs || isSexagesimal isNonZero cs

/-- Nothing, or an exponent with a sign. -/
def isExponentTail : List Char → Bool
  | [] => true
  | e :: sign :: digit :: digits =>
      (e == 'e' || e == 'E') && (sign == '-' || sign == '+') &&
        (digit :: digits).all Numeral.isAsciiDigit
  | _ => false

/-- Places after a point, with an exponent. -/
def isFractionTail (cs : List Char) : Bool :=
  isExponentTail (cs.dropWhile isDigitOrGap)

/-- A number with a point, or a name for infinity or for no number. -/
def looksFractional (text : List Char) : Bool :=
  let cs := unsign text
  let whole := cs.takeWhile (· != '.')
  match cs.dropWhile (· != '.') with
  | [] => false
  | _ :: places =>
      (isGrouped Numeral.isAsciiDigit whole && isFractionTail places) ||
        (isSexagesimal Numeral.isAsciiDigit whole && places.all isDigitOrGap) ||
        (whole.isEmpty && places.head?.any Numeral.isAsciiDigit && cs == text &&
          isFractionTail places) ||
        (whole.isEmpty && ["inf", "Inf", "INF"].contains (String.ofList places)) ||
        [".nan", ".NaN", ".NAN"].contains (String.ofList text)

/-- The words for nothing. -/
def looksNull (cs : List Char) : Bool :=
  ["", "~", "null", "Null", "NULL"].contains (String.ofList cs)

/-- The text without one line feed at its end. -/
def dropFinalBreak (cs : List Char) : List Char :=
  if cs.getLast? = some '\n' then cs.dropLast else cs

/-- Signs that stand for no kind of value. -/
def looksReserved (cs : List Char) : Bool :=
  cs = ['!'] || cs = ['&'] || cs = ['*']

/-- The kind of a scalar by its text. -/
def Tag.ofPlain (text : String) : Tag :=
  let cs := dropFinalBreak text.toList
  if looksFractional cs then .float
  else if looksWhole cs then .int
  else if cs = ['<', '<'] then .merge
  else if looksNull cs && text ≠ "\n" then .null
  else if Calendar.looksDated cs then .timestamp
  else if cs = ['='] then .default
  else if looksReserved cs then .unknown
  else .text

end Interlinear.Yaml
