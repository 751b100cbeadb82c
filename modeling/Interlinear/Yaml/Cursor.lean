import Interlinear.Yaml.Charset

/-!
# Places in a document

A cursor is what is still to be read of a document, with the place of its next character: its index,
and its line and column, all from zero.  A byte order mark takes no column, and a carriage return
ends a line only when no line feed follows.
-/

namespace Interlinear.Yaml

structure Cursor where
  rest : List Char
  index : Nat
  line : Nat
  column : Nat

namespace Cursor

/-- The start of a document, after its byte order mark if there is one. -/
def start : List Char → Cursor
  | c :: cs => if c = byteOrderMark then ⟨cs, 1, 0, 0⟩ else ⟨c :: cs, 0, 0, 0⟩
  | [] => ⟨[], 0, 0, 0⟩

def peek (cursor : Cursor) : Option Char :=
  cursor.rest.head?

/-- The character after the next one. -/
def second (cursor : Cursor) : Option Char :=
  cursor.rest.tail.head?

def next (cursor : Cursor) : Cursor :=
  match cursor.rest with
  | [] => cursor
  | '\r' :: '\n' :: cs => ⟨'\n' :: cs, cursor.index + 1, cursor.line, cursor.column + 1⟩
  | c :: cs =>
      if isBreak c then ⟨cs, cursor.index + 1, cursor.line + 1, 0⟩
      else if c = byteOrderMark then ⟨cs, cursor.index + 1, cursor.line, cursor.column⟩
      else ⟨cs, cursor.index + 1, cursor.line, cursor.column + 1⟩

def skip : (count : Nat) → Cursor → Cursor
  | 0, cursor => cursor
  | count + 1, cursor => skip count cursor.next

/-- Skips the characters up to the first that is not of a class. -/
def skipWhile (isOf : Char → Bool) (cursor : Cursor) : Cursor :=
  cursor.skip (cursor.rest.takeWhile isOf).length

def skipSpaces (cursor : Cursor) : Cursor :=
  cursor.skipWhile (· == ' ')

/-- A comment goes on to the end of its line. -/
def skipComment (cursor : Cursor) : Cursor :=
  if cursor.peek = some '#' then cursor.skipWhile fun c => !isBreak c else cursor

/-- Reads a line end, as the character that it stands for. -/
def takeBreak? (cursor : Cursor) : Option (Char × Cursor) :=
  match cursor.rest with
  | '\r' :: '\n' :: _ => some ('\n', cursor.skip 2)
  | c :: _ =>
      if c = '\u2028' ∨ c = '\u2029' then some (c, cursor.next)
      else if isBreak c then some ('\n', cursor.next)
      else none
  | [] => none

/-- Skips spaces and a comment to the end of the line and over it, if nothing else is on the line.
-/
def skipLine? (cursor : Cursor) : Option Cursor :=
  let cursor := cursor.skipSpaces.skipComment
  if endsLine cursor.peek then some ((cursor.takeBreak?.map Prod.snd).getD cursor) else none

/-- Whether three characters of a kind stand here by themselves, as those that bound documents. -/
def isMarker (mark : Char) (cursor : Cursor) : Bool :=
  match cursor.rest with
  | a :: b :: c :: cs => a == mark && b == mark && c == mark && endsWord cs.head?
  | _ => false

def atMarker (cursor : Cursor) : Bool :=
  cursor.isMarker '-' || cursor.isMarker '.'

end Cursor

end Interlinear.Yaml
