import Interlinear.Yaml.Cursor

/-!
# Plain scalars

A plain scalar is a row of words.  A word ends before a blank, before a colon that a blank follows,
and among flow collections before their indicators too.  Between words on one line the spaces are
kept.  A line end between words becomes a space, and empty lines become line feeds instead.  The
scalar ends before a comment, before a line that is indented too little, and before a document
marker.
-/

namespace Interlinear.Yaml

/-- Whether a colon ends a word, by the character that follows it. -/
def endsKey (inFlow : Bool) (next : Option Char) : Bool :=
  endsWord next || (inFlow && next.any isFlowIndicator)

/-- The longest word of a plain scalar at the start of a text. -/
def plainWord (inFlow : Bool) : List Char → List Char
  | [] => []
  | c :: cs =>
      if isBlankOrBreak c || (c == ':' && endsKey inFlow cs.head?) ||
          (inFlow && (c == '?' || isFlowIndicator c)) then []
      else c :: plainWord inFlow cs

/-- What stands between two words, as text, and where the second would start.  There is no text if
the scalar is over. -/
structure Gap where
  text : List Char
  cursor : Cursor
  crossesLine : Bool

/-- Skips empty lines and the spaces before the next word; the line ends are text.  Stops at a
document marker, without text. -/
def emptyLines : (fuel : Nat) → Cursor → Option (List Char) × Cursor
  | 0, cursor => (some [], cursor)
  | fuel + 1, cursor =>
      if cursor.peek = some ' ' then emptyLines fuel cursor.next
      else
        match cursor.takeBreak? with
        | none => (some [], cursor)
        | some (ending, cursor) =>
            if cursor.atMarker then (none, cursor)
            else
              let (endings, cursor) := emptyLines fuel cursor
              (endings.map (ending :: ·), cursor)

/-- A line end and the empty lines after it, as text. -/
def folded (ending : Char) (endings : List Char) : List Char :=
  if ending ≠ '\n' then ending :: endings
  else if endings.isEmpty then [' ']
  else endings

def plainGap (cursor : Cursor) : Gap :=
  let spaces := cursor.rest.takeWhile (· == ' ')
  let cursor := cursor.skipSpaces
  match cursor.takeBreak? with
  | none => ⟨spaces, cursor, false⟩
  | some (ending, cursor) =>
      if cursor.atMarker then ⟨[], cursor, true⟩
      else
        match emptyLines cursor.rest.length cursor with
        | (none, cursor) => ⟨[], cursor, true⟩
        | (some endings, cursor) => ⟨folded ending endings, cursor, true⟩

/-- The words from here on, with the gaps between them.  The least column holds for the words after
a line end. -/
def plainWords (inFlow : Bool) (least : Nat) :
    (fuel : Nat) → (gap : Gap) → Gap
  | 0, gap => { gap with text := [] }
  | fuel + 1, gap =>
      let word := plainWord inFlow gap.cursor.rest
      if gap.cursor.peek = some '#' || word.isEmpty then { gap with text := [] }
      else
        let after := plainGap (gap.cursor.skip word.length)
        if after.text.isEmpty || after.cursor.peek = some '#' ||
            (!inFlow && after.cursor.column < least) then
          { after with text := gap.text ++ word }
        else
          let words := plainWords inFlow least fuel after
          { words with text := gap.text ++ word ++ words.text }

/-- A plain scalar with the place after it, and whether that is on a later line. -/
def readPlain (inFlow : Bool) (least : Nat) (cursor : Cursor) : Gap :=
  plainWords inFlow least cursor.rest.length ⟨[], cursor, false⟩

end Interlinear.Yaml
