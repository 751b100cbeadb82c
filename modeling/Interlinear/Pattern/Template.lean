import Interlinear.Pattern.Match

/-!
# Templates and replacement

A template is text with references to groups; a group that took no part gives nothing.  Escapes
write control characters and octal codes, and a backslash before any other character that is no
letter stays with that character.  A template without a backslash is plain text and needs no
reading.

Replacement changes the matches of a pattern, at most a given number of them.  The template is read
first, so that its faults are found whether or not anything matches.
-/

namespace Interlinear.Pattern

inductive TemplatePart where
  | text (cs : List Char)
  | group (index : Nat)

inductive TemplateError where
  | fault (fault : Fault)
  | unknownName (name : List Char)

def TemplateError.message : TemplateError → String
  | fault e => e.message
  | unknownName name => "unknown group name " ++ Text.quoted (String.ofList name)

namespace Template

/-- A reference to a group, `back` characters after its number. -/
def reference (pattern : Pattern) (cursor : Cursor) (index back : Nat) :
    Except TemplateError TemplatePart :=
  if pattern.groups < index then
    .error (.fault (cursor.fault (.invalidGroup index) back))
  else
    .ok (.group index)

/-- A reference in angle brackets, after the opening letter. -/
def namedPart (pattern : Pattern) (cursor : Cursor) :
    Except TemplateError (TemplatePart × Cursor) := do
  if !cursor.isNext '<' then
    .error (.fault (cursor.fault .missingAngle 0))
  else
    let cursor ← cursor.advance.mapError .fault
    let (name, cursor) ← (cursor.takeName '>' "group name").mapError .fault
    let back := name.length + 1
    if Unicode.isIdentifier name then
      match pattern.names.lookup name with
      | none => .error (.unknownName name)
      | some index => do .ok (← reference pattern cursor index back, cursor)
    else
      match Numeral.readInteger (String.ofList name) with
      | .ok (.ofNat index) =>
          if Builder.groupLimit ≤ index then
            .error (.fault (cursor.fault (.invalidGroup index) back))
          else do
            .ok (← reference pattern cursor index back, cursor)
      | _ => .error (.fault (cursor.fault (.badGroupName name) back))

def textCode (code : Nat) : TemplatePart :=
  .text [Char.ofNat code]

/-- The part that an escape stands for; its backslash and `c` have been passed. -/
def escapePart (pattern : Pattern) (c : Char) (cursor : Cursor) :
    Except TemplateError (TemplatePart × Cursor) := do
  if c = 'g' then
    namedPart pattern cursor
  else if c = '0' then
    let (digits, cursor) ← (cursor.takeUpTo isOctal 2).mapError .fault
    .ok (textCode (numberIn 8 digits), cursor)
  else if Numeral.isAsciiDigit c then
    let (number, cursor) ← (cursor.numberEscape c).mapError .fault
    match number with
    | .code code => .ok (textCode code, cursor)
    | .group digits => do
        .ok (← reference pattern cursor (numberIn 10 digits) digits.length, cursor)
  else if c = 'b' then
    .ok (textCode 8, cursor)
  else
    match controlCode? c with
    | some code => .ok (textCode code, cursor)
    | none =>
        if isAsciiLetter c then .error (.fault (cursor.badEscape c))
        else .ok (.text ['\\', c], cursor)

def partsFrom (pattern : Pattern) : (fuel : Nat) → Cursor → Except TemplateError (List TemplatePart)
  | 0, _ => .ok []
  | fuel + 1, cursor =>
      match cursor.peek with
      | none => .ok []
      | some symbol => do
          let cursor ← cursor.advance.mapError .fault
          match symbol with
          | .escaped c => do
              let (part, cursor) ← escapePart pattern c cursor
              let parts ← partsFrom pattern fuel cursor
              .ok (part :: parts)
          | symbol => do
              let parts ← partsFrom pattern fuel cursor
              .ok (.text symbol.text :: parts)

/-- Reads a template for the groups of a pattern. -/
def parse (pattern : Pattern) (source : String) : Except TemplateError (List TemplatePart) := do
  if source.toList.contains '\\' then
    let cursor ← (Cursor.start source).mapError .fault
    partsFrom pattern cursor.rest.length cursor
  else
    .ok [.text source.toList]

/-- The characters from `start` to `stop`. -/
def slice (text : Array Char) (start stop : Nat) : List Char :=
  (text.extract start stop).toList

def groupText (text : Array Char) (m : Match) (index : Nat) : List Char :=
  if index = 0 then slice text m.start m.stop
  else
    match m.place.span? index with
    | some (start, stop) => slice text start stop
    | none => []

def expandPart (text : Array Char) (m : Match) : TemplatePart → List Char
  | .text cs => cs
  | .group index => groupText text m index

def expand (text : Array Char) (m : Match) (parts : List TemplatePart) : List Char :=
  parts.flatMap (expandPart text m)

end Template

/-- How many matches a replacement may change: a number, or all of them where it is zero, and none
where it is negative. -/
def matchLimit (count : Int) (size : Nat) : Nat :=
  if count = 0 then 2 * size + 2 else count.toNat

/-- The text from `position` on with the given matches replaced. -/
def replaceFrom (text : Array Char) (parts : List TemplatePart) :
    (position : Nat) → List Match → List Char
  | position, [] => Template.slice text position text.size
  | position, m :: ms =>
      Template.slice text position m.start ++ Template.expand text m parts ++
        replaceFrom text parts m.stop ms

/-- Replaces the matches of a pattern, from left to right and `count` at most; zero stands for all.
-/
def replace (pattern : Pattern) (template : String) (count : Int) (text : String) :
    Except TemplateError String := do
  let chars := text.toList.toArray
  let parts ← Template.parse pattern template
  let found := pattern.matchesFrom chars (matchLimit count chars.size) false 0
  .ok (String.ofList (replaceFrom chars parts 0 found))

/-- Whether a pattern is found in a text. -/
def isFound (pattern : Pattern) (text : String) : Bool :=
  (pattern.search text.toList.toArray).isSome

end Interlinear.Pattern
