import Interlinear.Yaml.Label
import Interlinear.Yaml.Scalar.Block

/-!
# Reading tokens

The lexer keeps the columns of the open blocks, innermost first, and the number of open flow
collections.  Outside flow collections a token further left closes blocks.

A mapping key need not be marked: that a token is one shows only at the colon after it.  So the
lexer remembers, for each level of flow collections, the last token that may start a key.  The colon
puts the mark of the key before that token, with the opening of a block if the key is indented
deeper than the block around it.  A key stands on one line and has at most 1024 characters.  At the
column of the block around it nothing but a key may stand.

When no more tokens can be read, those that precede the fault are given with it, up to the first
that might yet have become a key.
-/

namespace Interlinear.Yaml

/-- A token that may start a key. -/
structure Candidate where
  level : Nat
  /-- The number of tokens before it. -/
  position : Nat
  isRequired : Bool
  index : Nat
  line : Nat
  column : Nat

def longestKey : Nat := 1024

/-- Whether a candidate can no longer become a key. -/
def Candidate.isStale (candidate : Candidate) (cursor : Cursor) : Bool :=
  candidate.line != cursor.line || longestKey < cursor.index - candidate.index

structure Lexer where
  cursor : Cursor
  tokens : Array Token
  /-- The columns of the open blocks, innermost first. -/
  blocks : List Nat
  /-- The number of open flow collections. -/
  level : Nat
  candidates : List Candidate
  mayStartKey : Bool

/-- Tokens and why there are no more; a whole document ends with the token for its end. -/
structure Tokens where
  tokens : List Token
  fault : Fault

namespace Lexer

def start (cs : List Char) : Lexer where
  cursor := .start cs
  tokens := #[]
  blocks := []
  level := 0
  candidates := []
  mayStartKey := true

def emit (lexer : Lexer) (token : Token) : Lexer :=
  { lexer with tokens := lexer.tokens.push token }

def inFlow (lexer : Lexer) : Bool :=
  lexer.level != 0

/-- The least column of a scalar in the innermost block. -/
def leastColumn (lexer : Lexer) : Nat :=
  match lexer.blocks with
  | [] => 0
  | column :: _ => column + 1

/-- Forgets the candidates that can no longer become keys. -/
def dropStale (lexer : Lexer) : Except Fault Lexer :=
  if lexer.candidates.any fun candidate =>
      candidate.isStale lexer.cursor && candidate.isRequired then
    .error .malformed
  else
    .ok { lexer with
      candidates := lexer.candidates.filter fun candidate => !candidate.isStale lexer.cursor }

/-- Forgets the candidate of this level. -/
def dropCandidate (lexer : Lexer) : Except Fault Lexer :=
  if lexer.candidates.any fun candidate =>
      candidate.level == lexer.level && candidate.isRequired then
    .error .malformed
  else
    .ok { lexer with
      candidates := lexer.candidates.filter fun candidate => candidate.level != lexer.level }

/-- Remembers the next token as a candidate, if a key may start here. -/
def addCandidate (lexer : Lexer) : Except Fault Lexer :=
  if lexer.mayStartKey then do
    let lexer ← lexer.dropCandidate
    let cursor := lexer.cursor
    let candidate : Candidate := {
      level := lexer.level
      position := lexer.tokens.size
      isRequired := !lexer.inFlow && lexer.blocks.head? == some cursor.column
      index := cursor.index
      line := cursor.line
      column := cursor.column
    }
    .ok { lexer with candidates := candidate :: lexer.candidates }
  else
    .ok lexer

/-- Closes the blocks that are indented deeper than a column. -/
def closeBlocks (lexer : Lexer) (isDeeper : Nat → Bool) : Lexer :=
  if lexer.inFlow then lexer
  else
    let closed := lexer.blocks.takeWhile isDeeper
    { lexer with
      blocks := lexer.blocks.drop closed.length
      tokens := lexer.tokens ++ closed.map fun _ => Token.blockEnd }

def closeAll (lexer : Lexer) : Lexer :=
  lexer.closeBlocks fun _ => true

/-- Whether a column is deeper than the innermost block. -/
def opensBlock (lexer : Lexer) (column : Nat) : Bool :=
  lexer.blocks.head?.all (· < column)

/-- Opens a block at the cursor, unless it is open. -/
def openBlock (lexer : Lexer) (token : Token) : Lexer :=
  let column := lexer.cursor.column
  if lexer.opensBlock column then { lexer.emit token with blocks := column :: lexer.blocks }
  else lexer

/-- Skips spaces, comments and line ends. -/
def skipGap : (fuel : Nat) → Lexer → Lexer
  | 0, lexer => lexer
  | fuel + 1, lexer =>
      let cursor := lexer.cursor.skipSpaces.skipComment
      match cursor.takeBreak? with
      | some (_, cursor) =>
          skipGap fuel
            { lexer with cursor := cursor, mayStartKey := lexer.mayStartKey || !lexer.inFlow }
      | none => { lexer with cursor := cursor }

/-- Ends everything before the boundary of a document. -/
def atBoundary (lexer : Lexer) : Except Fault Lexer := do
  let lexer ← lexer.closeAll.dropCandidate
  .ok { lexer with mayStartKey := false }

def readMarker (lexer : Lexer) (token : Token) : Except Fault Lexer := do
  let lexer ← lexer.atBoundary
  .ok { lexer.emit token with cursor := lexer.cursor.skip 3 }

def readDirectiveLine (lexer : Lexer) : Except Fault Lexer := do
  let lexer ← lexer.atBoundary
  let (directive, cursor) ← readDirective lexer.cursor
  .ok { lexer.emit (.directive directive) with cursor := cursor }

def openFlow (lexer : Lexer) (token : Token) : Except Fault Lexer := do
  let lexer ← lexer.addCandidate
  .ok { lexer.emit token with
    cursor := lexer.cursor.next, level := lexer.level + 1, mayStartKey := true }

def closeFlow (lexer : Lexer) (token : Token) : Except Fault Lexer := do
  let lexer ← lexer.dropCandidate
  .ok { lexer.emit token with
    cursor := lexer.cursor.next, level := lexer.level - 1, mayStartKey := false }

def readComma (lexer : Lexer) : Except Fault Lexer := do
  let lexer ← lexer.dropCandidate
  .ok { lexer.emit .comma with cursor := lexer.cursor.next, mayStartKey := true }

/-- Opens a block at an indicator, where a new line of a block may start. -/
def atIndicator (lexer : Lexer) (token : Token) : Except Fault Lexer :=
  if lexer.inFlow then .ok lexer
  else if lexer.mayStartKey then .ok (lexer.openBlock token)
  else .error .malformed

def readDash (lexer : Lexer) : Except Fault Lexer := do
  let lexer ← lexer.atIndicator .blockSequence
  let lexer ← lexer.dropCandidate
  .ok { lexer.emit .dash with cursor := lexer.cursor.next, mayStartKey := true }

def readKeyMark (lexer : Lexer) : Except Fault Lexer := do
  let lexer ← lexer.atIndicator .blockMapping
  let lexer ← lexer.dropCandidate
  .ok { lexer.emit .key with cursor := lexer.cursor.next, mayStartKey := !lexer.inFlow }

/-- Marks a candidate as a key. -/
def markKey (lexer : Lexer) (candidate : Candidate) : Lexer :=
  let tokens := lexer.tokens.insertIdxIfInBounds candidate.position .key
  if !lexer.inFlow && lexer.opensBlock candidate.column then
    { lexer with
      tokens := tokens.insertIdxIfInBounds candidate.position .blockMapping
      blocks := candidate.column :: lexer.blocks }
  else
    { lexer with tokens := tokens }

def readColon (lexer : Lexer) : Except Fault Lexer :=
  match lexer.candidates.find? fun candidate => candidate.level == lexer.level with
  | some candidate =>
      let candidates := lexer.candidates.filter fun other => other.level != lexer.level
      let lexer := { lexer with candidates := candidates }.markKey candidate
      .ok { lexer.emit .value with cursor := lexer.cursor.next, mayStartKey := false }
  | none => do
      let lexer ← lexer.atIndicator .blockMapping
      .ok { lexer.emit .value with cursor := lexer.cursor.next, mayStartKey := !lexer.inFlow }

/-- Reads a token that may start a key and after which none may start. -/
def readWith (lexer : Lexer) (read : Cursor → Except Fault (Token × Cursor)) :
    Except Fault Lexer := do
  let lexer ← lexer.addCandidate
  let (token, cursor) ← read lexer.cursor
  .ok { lexer.emit token with cursor := cursor, mayStartKey := false }

def readBlockScalar (lexer : Lexer) (isFolded : Bool) : Except Fault Lexer := do
  let lexer ← lexer.dropCandidate
  let (text, cursor) ← readBlock isFolded lexer.leastColumn lexer.cursor
  .ok { lexer.emit (.scalar (String.ofList text) false) with cursor := cursor, mayStartKey := true }

def readPlainScalar (lexer : Lexer) : Except Fault Lexer := do
  let lexer ← lexer.addCandidate
  let scalar := readPlain lexer.inFlow lexer.leastColumn lexer.cursor
  .ok { lexer.emit (.scalar (String.ofList scalar.text) true) with
    cursor := scalar.cursor, mayStartKey := scalar.crossesLine }

def readQuotedScalar (isDouble : Bool) (cursor : Cursor) : Except Fault (Token × Cursor) := do
  let (text, cursor) ← readQuoted isDouble cursor
  .ok (.scalar (String.ofList text) false, cursor)

/-- Whether a plain scalar may start with a character. -/
def startsPlain (lexer : Lexer) (c : Char) : Bool :=
  !(isBlankOrBreak c || "-?:,[]\x7b\x7d#&*!|>'\"%@\x60".toList.contains c) ||
    (!endsWord lexer.cursor.second && (c == '-' || (!lexer.inFlow && (c == '?' || c == ':'))))

/-- Reads the token that starts with a character. -/
def readToken (lexer : Lexer) (c : Char) : Except Fault Lexer :=
  let atLineStart := lexer.cursor.column == 0
  let isMark := endsWord lexer.cursor.second
  if c == '%' && atLineStart then lexer.readDirectiveLine
  else if atLineStart && lexer.cursor.isMarker '-' then lexer.readMarker .documentStart
  else if atLineStart && lexer.cursor.isMarker '.' then lexer.readMarker .documentEnd
  else if c == '[' then lexer.openFlow .openSequence
  else if c == '\x7b' then lexer.openFlow .openMapping
  else if c == ']' then lexer.closeFlow .closeSequence
  else if c == '\x7d' then lexer.closeFlow .closeMapping
  else if c == ',' then lexer.readComma
  else if c == '-' && isMark then lexer.readDash
  else if c == '?' && (lexer.inFlow || isMark) then lexer.readKeyMark
  else if c == ':' && (lexer.inFlow || isMark) then lexer.readColon
  else if c == '*' then lexer.readWith fun cursor => do
    let (name, cursor) ← readAnchor cursor
    .ok (.alias name, cursor)
  else if c == '&' then lexer.readWith fun cursor => do
    let (name, cursor) ← readAnchor cursor
    .ok (.anchor name, cursor)
  else if c == '!' then lexer.readWith fun cursor => do
    let (text, cursor) ← readTag cursor
    .ok (.tag text, cursor)
  else if c == '|' && !lexer.inFlow then lexer.readBlockScalar false
  else if c == '>' && !lexer.inFlow then lexer.readBlockScalar true
  else if c == '\'' then lexer.readWith (readQuotedScalar false)
  else if c == '"' then lexer.readWith (readQuotedScalar true)
  else if lexer.startsPlain c then lexer.readPlainScalar
  else .error .malformed

/-- Goes to the next token, of which there is always one more: the end if no character is left. -/
def toNextToken (lexer : Lexer) : Except Fault Lexer := do
  let lexer ← (lexer.skipGap (lexer.cursor.rest.length + 1)).dropStale
  .ok (lexer.closeBlocks (lexer.cursor.column < ·))

/-- Whether a bracket that closes a flow collection stands where none is open. -/
def isUnmatched (lexer : Lexer) (c : Char) : Bool :=
  !lexer.inFlow && (c == ']' || c == '\x7d')

/-- The tokens that may be looked at before another is read. -/
def settled (lexer : Lexer) : List Token :=
  let pending := lexer.candidates.filter fun candidate => !candidate.isStale lexer.cursor
  lexer.tokens.toList.take
    (pending.foldl (fun least candidate => min least candidate.position) lexer.tokens.size)

def readAll : (fuel : Nat) → Lexer → Tokens
  | 0, lexer => ⟨lexer.settled, .malformed⟩
  | fuel + 1, lexer =>
      match lexer.toNextToken with
      | .error fault => ⟨lexer.settled, fault⟩
      | .ok next =>
          match next.cursor.peek with
          | none =>
              match next.atBoundary with
              | .ok last => ⟨(last.emit .streamEnd).tokens.toList, .malformed⟩
              | .error fault => ⟨lexer.settled, fault⟩
          | some c =>
              match next.readToken c with
              | .error fault => ⟨lexer.settled, fault⟩
              | .ok after =>
                  if next.isUnmatched c then ⟨after.tokens.toList, .malformed⟩
                  else readAll fuel after

end Lexer

/-- The tokens of a document. -/
def Tokens.ofText (text : String) : Tokens :=
  let cs := text.toList
  if cs.all isAllowed then Lexer.readAll (cs.length + 1) (.start cs)
  else ⟨[], .malformed⟩

end Interlinear.Yaml
