import Interlinear.Numeral.Reading
import Interlinear.Yaml.Scalar.Plain
import Interlinear.Yaml.Token

/-!
# Quoted scalars

Between single quotes a doubled quote stands for one and there are no other escapes.  Between double
quotes a backslash starts an escape.  In both, blanks before a line end and at the start of a line
are dropped, a line end becomes a space, and empty lines become line feeds instead.  An escaped line
end is dropped.  A document marker at the start of a line is refused.
-/

namespace Interlinear.Yaml

/-- The characters that stand for a control or a special space after a backslash. -/
def escapes : List (Char × Char) :=
  [('0', '\x00'), ('a', '\x07'), ('b', '\x08'), ('t', '\t'), ('\t', '\t'), ('n', '\n'),
    ('v', '\x0b'), ('f', '\x0c'), ('r', '\r'), ('e', '\x1b'), (' ', ' '), ('"', '"'), ('\\', '\\'),
    ('/', '/'), ('N', '\x85'), ('_', '\xa0'), ('L', '\u2028'), ('P', '\u2029')]

/-- The number of hexadecimal digits after a backslash and a letter. -/
def escapeWidth? (c : Char) : Option Nat :=
  [('x', 2), ('u', 4), ('U', 8)].lookup c

/-- The value of so many hexadecimal digits. -/
def readHex? (width : Nat) (cs : List Char) : Option Nat :=
  let digits := cs.take width
  if digits.length = width then Numeral.valueIn? 16 0 digits else none

/-- The character with a number. -/
def charOf? (code : Nat) : Except Fault Char :=
  if 0x80000000 ≤ code then .error .escapeTooLarge
  else if 0x110000 ≤ code then .error .codePoint
  else if code.isValidChar then .ok (Char.ofNat code)
  else .error .halfSurrogate

/-- The empty lines at the start of a line of a quoted scalar, as text, and the blanks after them.
-/
def quotedLines : (fuel : Nat) → Cursor → Except Fault (List Char × Cursor)
  | 0, _ => .error .malformed
  | fuel + 1, cursor =>
      if cursor.atMarker then .error .malformed
      else
        let cursor := cursor.skipWhile fun c => c == ' ' || c == '\t'
        match cursor.takeBreak? with
        | none => .ok ([], cursor)
        | some (ending, cursor) => do
            let (endings, cursor) ← quotedLines fuel cursor
            .ok (ending :: endings, cursor)

def linesFrom (cursor : Cursor) : Except Fault (List Char × Cursor) :=
  quotedLines (cursor.rest.length + 1) cursor

/-- Blanks and line ends in a quoted scalar, as text. -/
def quotedGap (cursor : Cursor) : Except Fault (List Char × Cursor) :=
  let isBlank := fun c => c == ' ' || c == '\t'
  let blanks := cursor.rest.takeWhile isBlank
  let cursor := cursor.skipWhile isBlank
  match cursor.takeBreak? with
  | some (ending, cursor) => do
      let (endings, cursor) ← linesFrom cursor
      .ok (folded ending endings, cursor)
  | none => if cursor.rest.isEmpty then .error .malformed else .ok (blanks, cursor)

/-- An escape, from the character after the backslash. -/
def readEscape (cursor : Cursor) : Except Fault (List Char × Cursor) :=
  match cursor.rest with
  | [] => .error .malformed
  | c :: cs =>
      match escapes.lookup c, escapeWidth? c with
      | some replacement, _ => .ok ([replacement], cursor.next)
      | none, some width =>
          match readHex? width cs with
          | none => .error .malformed
          | some code => do
              let char ← charOf? code
              .ok ([char], cursor.skip (width + 1))
      | none, none =>
          match cursor.takeBreak? with
          | some (_, cursor) => linesFrom cursor
          | none => .error .malformed

/-- Whether a character stands for itself in a quoted scalar of either kind. -/
def isOrdinary (c : Char) : Bool :=
  c != '\'' && c != '"' && c != '\\' && !isBlankOrBreak c

/-- The text of a quoted scalar, up to and without the closing quote.  What has been read is kept in
reverse. -/
def readQuotedFrom (isDouble : Bool) :
    (fuel : Nat) → (read : List Char) → Cursor → Except Fault (List Char × Cursor)
  | 0, _, _ => .error .malformed
  | fuel + 1, read, cursor =>
      match cursor.rest with
      | [] => .error .malformed
      | c :: cs =>
          if isDouble && c == '"' then .ok (read.reverse, cursor.next)
          else if !isDouble && c == '\'' then
            if cs.head? = some '\'' then readQuotedFrom isDouble fuel ('\'' :: read) (cursor.skip 2)
            else .ok (read.reverse, cursor.next)
          else if isDouble && c == '\\' then
            match readEscape cursor.next with
            | .ok (chunk, cursor) => readQuotedFrom isDouble fuel (chunk.reverse ++ read) cursor
            | .error fault => .error fault
          else if isBlankOrBreak c then
            match quotedGap cursor with
            | .ok (chunk, cursor) => readQuotedFrom isDouble fuel (chunk.reverse ++ read) cursor
            | .error fault => .error fault
          else
            let chunk := c :: cs.takeWhile isOrdinary
            readQuotedFrom isDouble fuel (chunk.reverse ++ read) (cursor.skip chunk.length)

/-- A quoted scalar, from its opening quote on. -/
def readQuoted (isDouble : Bool) (cursor : Cursor) : Except Fault (List Char × Cursor) :=
  readQuotedFrom isDouble cursor.rest.length [] cursor.next

end Interlinear.Yaml
