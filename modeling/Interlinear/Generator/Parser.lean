import Interlinear.Dictionary
import Interlinear.Numeral.Binary
import Interlinear.Text.Quoted
import Interlinear.Unicode.Blank
import Interlinear.Unicode.Digit

/-!
# Reading generator rules

Blank lines separate rules.  A rule is a name, a colon, and expansions between white space.  An
expansion may begin with a weight, which is a decimal number and an asterisk, and is a row of texts
and references to rules in brackets.  A rule that is given twice keeps its first place and its last
expansions.

A line is blank here when it holds nothing but spaces, tabs and carriage returns.
-/

namespace Interlinear.Generator

inductive Part where
  | reference (name : String)
  | text (text : String)
  /-- A text where a part is due. -/
  | stray (text : String)
deriving DecidableEq

/-- One weighted alternative of a rule. -/
structure Expansion (W : Type) where
  weight : W
  parts : List Part

abbrev Rules (W : Type) := Dictionary String (List (Expansion W))

inductive ParseError where
  | nameExpected (found : Option Char)
  | partExpected (found : Option Char)
  | expansionExpected
deriving DecidableEq

namespace ParseError

def foundText : Option Char → String
  | none => "end of input"
  | some c => "\"" ++ c.toString ++ "\""

def message : ParseError → String
  | nameExpected found => "Expected a rule name but " ++ foundText found ++ " found."
  | partExpected found =>
      "Expected literal text or a [rule] reference but " ++ foundText found ++ " found."
  | expansionExpected => "Expected an expansion after the weight."

end ParseError

/-! Words and lines. -/

/-- The lines of a text, the first of which begins with the characters of `line` in reverse. -/
def linesAfter (line : List Char) : List Char → List (List Char)
  | [] => [line.reverse]
  | c :: cs => if c = '\n' then line.reverse :: linesAfter [] cs else linesAfter (c :: line) cs

def lines (cs : List Char) : List (List Char) :=
  linesAfter [] cs

def isBlankLine (line : List Char) : Bool :=
  line.all fun c => c == ' ' || c == '\t' || c == '\r'

/-- The runs of lines between blank lines, the first of which begins with `block`. -/
def blocksAfter (block : List (List Char)) : List (List Char) → List (List (List Char))
  | [] => [block]
  | line :: lines =>
      if isBlankLine line then block :: blocksAfter [] lines
      else blocksAfter (block ++ [line]) lines

/-- A block as one text, without the white space around it. -/
def blockText (block : List (List Char)) : List Char :=
  let cs := (['\n'].intercalate block).dropWhile Unicode.isBlank
  (cs.reverse.dropWhile Unicode.isBlank).reverse

def blocks (raw : List Char) : List (List Char) :=
  ((blocksAfter [] (lines raw)).map blockText).filter (!·.isEmpty)

/-- The words between white space, the first of which begins with the characters of `word` in
reverse. -/
def wordsAfter (word : List Char) : List Char → List (List Char)
  | [] => if word.isEmpty then [] else [word.reverse]
  | c :: cs =>
      if Unicode.isBlank c then
        if word.isEmpty then wordsAfter [] cs else word.reverse :: wordsAfter [] cs
      else
        wordsAfter (c :: word) cs

def words (cs : List Char) : List (List Char) :=
  wordsAfter [] cs

/-! Expansions. -/

def digitsValue (cs : List Char) : Nat :=
  cs.foldl (fun value c => 10 * value + (Unicode.digitValue? c.toNat).getD 0) 0

/-- The weight at the start of a word, with what follows it. -/
def splitWeight? (word : List Char) : Option (Numeral.Decimal × List Char) :=
  match word.takeWhile Unicode.isDigit, word.dropWhile Unicode.isDigit with
  | [], _ => none
  | whole, '*' :: rest => some (⟨digitsValue whole, 0⟩, rest)
  | whole, '.' :: rest =>
      match rest.takeWhile Unicode.isDigit, rest.dropWhile Unicode.isDigit with
      | [], _ => none
      | places, '*' :: rest => some (⟨digitsValue (whole ++ places), places.length⟩, rest)
      | _, _ => none
  | _, _ => none

def isBracket (c : Char) : Bool :=
  c == '[' || c == ']'

/-- The parts of an expansion; `fuel` bounds their number. -/
def readParts : (fuel : Nat) → List Char → Except ParseError (List Part)
  | _, [] => .ok []
  | 0, c :: _ => .error (.partExpected (some c))
  | fuel + 1, '[' :: cs =>
      match cs.takeWhile (!isBracket ·), cs.dropWhile (!isBracket ·) with
      | name@(_ :: _), ']' :: rest => do
          let parts ← readParts fuel rest
          .ok (.reference (String.ofList name) :: parts)
      | _, _ => .error (.partExpected (some '['))
  | fuel + 1, c :: cs =>
      if isBracket c then
        .error (.partExpected (some c))
      else do
        let parts ← readParts fuel ((c :: cs).dropWhile (!isBracket ·))
        .ok (.text (String.ofList ((c :: cs).takeWhile (!isBracket ·))) :: parts)

def readExpansion (word : List Char) : Except ParseError (Expansion Numeral.Decimal) := do
  let (weight, rest) := (splitWeight? word).getD (.one, word)
  let parts ← readParts rest.length rest
  if parts.isEmpty then
    .error .expansionExpected
  else
    .ok ⟨weight, parts⟩

def readExpansions : List (List Char) → Except ParseError (List (Expansion Numeral.Decimal))
  | [] => .ok []
  | word :: words => do
      let expansion ← readExpansion word
      let expansions ← readExpansions words
      .ok (expansion :: expansions)

/-! Rules. -/

def isNameChar (c : Char) : Bool :=
  !Unicode.isBlank c && !(c == ':' || c == '[' || c == ']' || c == '*')

/-- The name of a rule and what follows its colon. -/
def splitName? (block : List Char) : Option (List Char × List Char) :=
  match block.takeWhile isNameChar, (block.dropWhile isNameChar).dropWhile Unicode.isBlank with
  | [], _ => none
  | name, ':' :: rest => some (name, rest)
  | _, _ => none

def readRule (block : List Char) :
    Except ParseError (String × List (Expansion Numeral.Decimal)) :=
  match splitName? block with
  | none => .error (.nameExpected block.head?)
  | some (name, rest) => do
      let expansions ← readExpansions (words rest)
      .ok (String.ofList name, expansions)

def readRules : List (List Char) →
    Except ParseError (List (String × List (Expansion Numeral.Decimal)))
  | [] => .ok []
  | block :: blocks => do
      let rule ← readRule block
      let rules ← readRules blocks
      .ok (rule :: rules)

def parse (raw : String) : Except ParseError (Rules Numeral.Decimal) := do
  let rules ← readRules (blocks raw.toList)
  .ok (.ofList rules)

/-- Rules with their weights as machine numbers. -/
def Rules.toFloat (rules : Rules Numeral.Decimal) : Rules Float :=
  rules.map fun expansions =>
    expansions.map fun expansion => ⟨expansion.weight.toFloat, expansion.parts⟩

end Interlinear.Generator
