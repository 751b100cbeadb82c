import Interlinear.Yaml.Scalar.Quoted

/-!
# Anchors, tags and directives

A tag is written out between angle brackets, or with a handle between exclamation marks that a
directive explains, or it is a single exclamation mark.  Percent signs escape the bytes of
characters that tags cannot hold.  A directive stands on a line of its own before a document and
gives the version of the format or explains a handle; other directives are skipped.
-/

namespace Interlinear.Yaml

/-- A name, as in anchors and directives. -/
def readName (cursor : Cursor) : Except Fault (String × Cursor) :=
  let name := cursor.rest.takeWhile isNameChar
  if name.isEmpty then .error .malformed
  else .ok (String.ofList name, cursor.skip name.length)

/-- What may follow the name of an anchor. -/
def endsAnchor (next : Option Char) : Bool :=
  endsWord next || next.any fun c => "?:,]\x7d%@\x60".toList.contains c

/-- The name of an anchor or alias, from its sign on. -/
def readAnchor (cursor : Cursor) : Except Fault (String × Cursor) := do
  let (name, cursor) ← readName cursor.next
  if endsAnchor cursor.peek then .ok (name, cursor) else .error .malformed

/-- The bytes of a row of percent escapes. -/
def readEscapedBytes : List Char → Option (List UInt8)
  | '%' :: a :: b :: cs =>
      match readHex? 2 [a, b], readEscapedBytes cs with
      | some byte, some bytes => some (UInt8.ofNat byte :: bytes)
      | _, _ => none
  | '%' :: _ => none
  | _ => some []

/-- The text of a tag, escapes resolved. -/
def readTagChars : (fuel : Nat) → Cursor → Except Fault (List Char × Cursor)
  | 0, cursor => .ok ([], cursor)
  | fuel + 1, cursor =>
      let plain := cursor.rest.takeWhile fun c => isTagChar c && c != '%'
      let cursor := cursor.skip plain.length
      if cursor.peek = some '%' then
        match readEscapedBytes cursor.rest with
        | none => .error .malformed
        | some bytes =>
            match String.fromUTF8? ⟨bytes.toArray⟩ with
            | none => .error .malformed
            | some decoded => do
                let (rest, cursor) ← readTagChars fuel (cursor.skip (3 * bytes.length))
                .ok (plain ++ decoded.toList ++ rest, cursor)
      else
        .ok (plain, cursor)

def readTagText (cursor : Cursor) : Except Fault (String × Cursor) := do
  let (text, cursor) ← readTagChars (cursor.rest.length + 1) cursor
  if text.isEmpty then .error .malformed else .ok (String.ofList text, cursor)

/-- A handle, from its exclamation mark on. -/
def readHandle (cursor : Cursor) : Except Fault (String × Cursor) :=
  if cursor.peek ≠ some '!' then .error .malformed
  else if cursor.second = some ' ' then .ok ("!", cursor.next)
  else
    let name := cursor.rest.tail.takeWhile isNameChar
    let cursor := cursor.skip (name.length + 1)
    if cursor.peek = some '!' then .ok (String.ofList ('!' :: name ++ ['!']), cursor.next)
    else .error .malformed

/-- A tag in any of its forms, from its exclamation mark on. -/
def readTagForm (cursor : Cursor) : Except Fault (TagText × Cursor) :=
  if cursor.second = some '<' then do
    let (suffix, cursor) ← readTagText (cursor.skip 2)
    if cursor.peek = some '>' then .ok (⟨none, suffix⟩, cursor.next) else .error .malformed
  else if endsWord cursor.second then .ok (⟨none, "!"⟩, cursor.next)
  else do
    let word := cursor.rest.tail.takeWhile fun c => !isSpaceOrBreak c
    let (handle, cursor) ←
      if word.contains '!' then readHandle cursor else .ok ("!", cursor.next)
    let (suffix, cursor) ← readTagText cursor
    .ok (⟨some handle, suffix⟩, cursor)

def readTag (cursor : Cursor) : Except Fault (TagText × Cursor) := do
  let (tag, cursor) ← readTagForm cursor
  if endsField cursor.peek then .ok (tag, cursor) else .error .malformed

def readVersionNumber (cursor : Cursor) : Except Fault (Nat × Cursor) :=
  let digits := cursor.rest.takeWhile Numeral.isAsciiDigit
  if digits.isEmpty then .error .malformed
  else if Numeral.digitLimit < digits.length then .error (.integer (.tooLong digits.length))
  else .ok (Numeral.ofDigits digits, cursor.skip digits.length)

def readVersion (cursor : Cursor) : Except Fault (Directive × Cursor) := do
  let (major, cursor) ← readVersionNumber cursor.skipSpaces
  if cursor.peek ≠ some '.' then .error .malformed
  else
    let (_, cursor) ← readVersionNumber cursor.next
    if endsField cursor.peek then .ok (.version major, cursor) else .error .malformed

def readHandleDirective (cursor : Cursor) : Except Fault (Directive × Cursor) := do
  let (handle, cursor) ← readHandle cursor.skipSpaces
  if cursor.peek ≠ some ' ' then .error .malformed
  else
    let (namespaceText, cursor) ← readTagText cursor.skipSpaces
    if endsField cursor.peek then .ok (.handle handle namespaceText, cursor)
    else .error .malformed

/-- A directive with its line, from its percent sign on. -/
def readDirective (cursor : Cursor) : Except Fault (Directive × Cursor) := do
  let (name, cursor) ← readName cursor.next
  if !endsField cursor.peek then .error .malformed
  else
    let (directive, cursor) ←
      if name = "YAML" then readVersion cursor
      else if name = "TAG" then readHandleDirective cursor
      else .ok (.reserved, cursor.skipWhile fun c => !isBreak c)
    match cursor.skipLine? with
    | some cursor => .ok (directive, cursor)
    | none => .error .malformed

end Interlinear.Yaml
