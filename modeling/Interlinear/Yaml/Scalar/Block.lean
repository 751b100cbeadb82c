import Interlinear.Yaml.Cursor
import Interlinear.Yaml.Token

/-!
# Block scalars

A block scalar starts with a bar or an angle bracket, with which a digit may give its indentation
and a sign say what becomes of the line ends after it; the lines that follow are its text.  Without
a digit the deepest of the empty lines and the first line set the indentation.  After a bar all line
ends are kept.  After an angle bracket a line end between two lines becomes a space, unless one of
the lines starts with a blank, and is dropped before empty lines.
-/

namespace Interlinear.Yaml

/-- What becomes of the line ends after the text. -/
inductive Tail where
  | strip
  | clip
  | keep

structure BlockHeader where
  tail : Tail
  indentation : Option Nat

def readTail? (cursor : Cursor) : Option (Tail × Cursor) :=
  match cursor.peek with
  | some '+' => some (.keep, cursor.next)
  | some '-' => some (.strip, cursor.next)
  | _ => none

def readIndentation? (cursor : Cursor) : Option (Nat × Cursor) :=
  match cursor.peek with
  | some c => if Numeral.isAsciiDigit c then some (c.toNat - 0x30, cursor.next) else none
  | none => none

/-- The sign and the digit in either order. -/
def readIndicators (cursor : Cursor) : BlockHeader × Cursor :=
  match readTail? cursor with
  | some (tail, cursor) =>
      match readIndentation? cursor with
      | some (indentation, cursor) => (⟨tail, some indentation⟩, cursor)
      | none => (⟨tail, none⟩, cursor)
  | none =>
      match readIndentation? cursor with
      | some (indentation, cursor) =>
          match readTail? cursor with
          | some (tail, cursor) => (⟨tail, some indentation⟩, cursor)
          | none => (⟨.clip, some indentation⟩, cursor)
      | none => (⟨.clip, none⟩, cursor)

def readHeader (cursor : Cursor) : Except Fault (BlockHeader × Cursor) :=
  let (header, cursor) := readIndicators cursor
  if header.indentation = some 0 || !endsField cursor.peek then .error .malformed
  else
    match cursor.skipLine? with
    | some cursor => .ok (header, cursor)
    | none => .error .malformed

/-- The empty lines before the text, as text, with the greatest column reached. -/
def leadingLines : (fuel : Nat) → (deepest : Nat) → Cursor → List Char × Nat × Cursor
  | 0, deepest, cursor => ([], deepest, cursor)
  | fuel + 1, deepest, cursor =>
      match cursor.takeBreak? with
      | some (ending, cursor) =>
          let (endings, deepest, cursor) := leadingLines fuel deepest cursor
          (ending :: endings, deepest, cursor)
      | none =>
          if cursor.peek = some ' ' then
            leadingLines fuel (max deepest cursor.next.column) cursor.next
          else ([], deepest, cursor)

/-- Skips spaces up to a column. -/
def skipIndent (column : Nat) : (fuel : Nat) → Cursor → Cursor
  | 0, cursor => cursor
  | fuel + 1, cursor =>
      if cursor.column < column && cursor.peek = some ' ' then skipIndent column fuel cursor.next
      else cursor

/-- The empty lines here, as text, up to the column of the text on the first line that has more. -/
def emptyBlockLines (column : Nat) : (fuel : Nat) → Cursor → List Char × Cursor
  | 0, cursor => ([], cursor)
  | fuel + 1, cursor =>
      let cursor := skipIndent column cursor.rest.length cursor
      match cursor.takeBreak? with
      | some (ending, cursor) =>
          let (endings, cursor) := emptyBlockLines column fuel cursor
          (ending :: endings, cursor)
      | none => ([], cursor)

def blockLinesAt (column : Nat) (cursor : Cursor) : List Char × Cursor :=
  emptyBlockLines column (cursor.rest.length + 1) cursor

def startsBlank (cursor : Cursor) : Bool :=
  cursor.peek.any fun c => c == ' ' || c == '\t'

/-- What stands between two lines of text. -/
def blockGap (isFolded : Bool) (ending endings : List Char) (isIndented : Bool) : List Char :=
  if isFolded && ending == ['\n'] && !isIndented then
    if endings.isEmpty then [' '] else endings
  else ending ++ endings

/-- What is kept after the last line of text. -/
def blockTail (tail : Tail) (ending endings : List Char) : List Char :=
  match tail with
  | .strip => []
  | .clip => ending
  | .keep => ending ++ endings

/-- The lines of text from here on. -/
def readLines (isFolded : Bool) (tail : Tail) (column : Nat) :
    (fuel : Nat) → Cursor → List Char × Cursor
  | 0, cursor => ([], cursor)
  | fuel + 1, cursor =>
      let line := cursor.rest.takeWhile fun c => !isBreak c
      let after := cursor.skip line.length
      let (ending, after) :=
        match after.takeBreak? with
        | some (ending, after) => ([ending], after)
        | none => ([], after)
      let (endings, after) := blockLinesAt column after
      if after.column = column && !after.rest.isEmpty then
        let gap := blockGap isFolded ending endings (startsBlank cursor || startsBlank after)
        let (text, last) := readLines isFolded tail column fuel after
        (line ++ gap ++ text, last)
      else
        (line ++ blockTail tail ending endings, after)

/-- The empty lines before the text, the column of the text and where it starts.  The least column
is one more than that of the enclosing block, and at least one. -/
def blockStart (least : Nat) (indentation : Option Nat) (cursor : Cursor) :
    List Char × Nat × Cursor :=
  match indentation with
  | some indentation =>
      let column := least + indentation - 1
      let (endings, cursor) := blockLinesAt column cursor
      (endings, column, cursor)
  | none =>
      let (endings, deepest, cursor) := leadingLines cursor.rest.length 0 cursor
      (endings, max least deepest, cursor)

/-- A block scalar, from its bar or angle bracket on. -/
def readBlock (isFolded : Bool) (least : Nat) (cursor : Cursor) :
    Except Fault (List Char × Cursor) := do
  let (header, cursor) ← readHeader cursor.next
  let (endings, column, cursor) := blockStart (max least 1) header.indentation cursor
  if cursor.column = column && !cursor.rest.isEmpty then
    let (text, cursor) := readLines isFolded header.tail column cursor.rest.length cursor
    .ok (endings ++ text, cursor)
  else
    .ok (blockTail header.tail [] endings, cursor)

end Interlinear.Yaml
