import Interlinear.Gloss.Basic
import Interlinear.Unicode.Blank

/-!
# Reading glosses

A gloss is written as an optional question mark, a term, and inflection names after number signs.  A
term is a word, a word after a circumflex (a literal) or an asterisk (a pointer), or a row of
glosses in brackets, joined by plus signs.  The mode says what a bare word stands for.

The reader looks one character ahead.  It works on the characters that are left, and a fault keeps
those that were left when it arose, so its position is a difference of lengths.  Every call of the
reader but the one for the term of a gloss consumes a character, so that twice the number of
characters bounds the nesting of calls.
-/

namespace Interlinear

/-- What a bare word stands for. -/
inductive Mode where
  | implicitPointers
  | implicitLiterals
deriving DecidableEq

namespace Mode

def name : Mode → String
  | implicitPointers => "implicit-pointers"
  | implicitLiterals => "implicit-literals"

def ofName? (name : String) : Option Mode :=
  if name = implicitPointers.name then some implicitPointers
  else if name = implicitLiterals.name then some implicitLiterals
  else none

theorem ofName?_name (mode : Mode) : ofName? mode.name = some mode := by
  cases mode <;> rfl

def unknownMessage (name : String) : String :=
  "Invalid gloss mode '" ++ name ++
    "'. Must be one of: ['implicit-pointers', 'implicit-literals']"

def bare : Mode → String → Gloss
  | implicitPointers => .pointer
  | implicitLiterals => .literal

end Mode

namespace Gloss

/-- Words hold every character but blanks and the punctuation of glosses. -/
def isWordChar (c : Char) : Bool :=
  !Unicode.isBlank c &&
    !(c == '#' || c == '[' || c == ']' || c == '+' || c == '*' || c == '^' || c == '?')

/-- What the reader was looking for. -/
inductive Expected where
  | word
  | name
  | elementEnd
  | glossEnd
deriving DecidableEq

def Expected.text : Expected → String
  | word => "a word"
  | name => "an inflection name"
  | elementEnd => "\"+\" or \"]\""
  | glossEnd => "\"#\" or end of input"

/-- What was expected before the characters that are left. -/
structure Fault where
  expected : Expected
  rest : List Char
deriving DecidableEq

def readWord (expected : Expected) (cs : List Char) : Except Fault (String × List Char) :=
  match cs.takeWhile isWordChar with
  | [] => .error ⟨expected, cs⟩
  | word => .ok (String.ofList word, cs.dropWhile isWordChar)

/-- Inflection names, each after a number sign; `fuel` bounds their number. -/
def readNames : (fuel : Nat) → List Char → Except Fault (List String × List Char)
  | fuel + 1, '#' :: cs => do
      let (name, rest) ← readWord .name cs
      let (names, rest) ← readNames fuel rest
      .ok (name :: names, rest)
  | _, cs => .ok ([], cs)

def dropMark : List Char → List Char
  | '?' :: cs => cs
  | cs => cs

/-- A term with its names; without names it is the term alone. -/
def inflect (term : Gloss) : List String → Gloss
  | [] => term
  | names => inflection term names

mutual
def readGloss (mode : Mode) : (fuel : Nat) → List Char → Except Fault (Gloss × List Char)
  | 0, cs => .error ⟨.word, cs⟩
  | fuel + 1, cs => do
      let (term, rest) ← readTerm mode fuel (dropMark cs)
      let (names, rest) ← readNames fuel rest
      .ok (inflect term names, rest)
def readTerm (mode : Mode) : (fuel : Nat) → List Char → Except Fault (Gloss × List Char)
  | 0, cs => .error ⟨.word, cs⟩
  | fuel + 1, '[' :: cs => do
      let (first, rest) ← readGloss mode fuel cs
      let (others, rest) ← readOthers mode fuel rest
      match rest with
      | ']' :: rest => .ok (compound (first :: others), rest)
      | rest => .error ⟨.elementEnd, rest⟩
  | _, '^' :: cs => do
      let (word, rest) ← readWord .word cs
      .ok (literal word, rest)
  | _, '*' :: cs => do
      let (word, rest) ← readWord .word cs
      .ok (pointer word, rest)
  | _, cs => do
      let (word, rest) ← readWord .word cs
      .ok (mode.bare word, rest)
def readOthers (mode : Mode) : (fuel : Nat) → List Char → Except Fault (List Gloss × List Char)
  | fuel + 1, '+' :: cs => do
      let (first, rest) ← readGloss mode fuel cs
      let (others, rest) ← readOthers mode fuel rest
      .ok (first :: others, rest)
  | _, cs => .ok ([], cs)
end

def readAll (mode : Mode) (cs : List Char) : Except Fault Gloss := do
  let (gloss, rest) ← readGloss mode (2 * cs.length + 2) cs
  match rest with
  | [] => .ok gloss
  | rest => .error ⟨.glossEnd, rest⟩

/-- A text that is no gloss, with the first place at which no gloss can go on. -/
structure ParseError where
  raw : String
  expected : Expected
  found : Option Char
  position : Nat
deriving DecidableEq

namespace ParseError

def foundText : Option Char → String
  | none => "end of input"
  | some c => "\"" ++ c.toString ++ "\""

def detail (e : ParseError) : String :=
  "Expected " ++ e.expected.text ++ " but " ++ foundText e.found ++ " found."

def message (e : ParseError) : String :=
  "Failed to parse \"" ++ e.raw ++ "\": " ++ e.detail

def ofFault (raw : String) (fault : Fault) : ParseError where
  raw := raw
  expected := fault.expected
  found := fault.rest.head?
  position := raw.length - fault.rest.length

end ParseError

/-- Reads a gloss.  The empty text and a lone question mark are an empty bare word, which has no
other written form. -/
def parse (mode : Mode) (raw : String) : Except ParseError Gloss :=
  if raw = "" ∨ raw = "?" then
    .ok (mode.bare "")
  else
    (readAll mode raw.toList).mapError (ParseError.ofFault raw)

end Gloss

end Interlinear
