import Interlinear.Pattern.Cursor
import Interlinear.Pattern.Node
import Interlinear.Unicode.Letter

/-!
# Flags in patterns

Flags are letters in a group.  At the start of a pattern they hold for all of it; before a colon
they hold for the group, and those after a hyphen are turned off.  The two flags that choose an
alphabet exclude each other, and one that is turned on in a group replaces the other there.
-/

namespace Interlinear.Pattern

structure Flags where
  ignoreCase : Bool
  multiline : Bool
  dotAll : Bool
  verbose : Bool
  ascii : Bool
  unicode : Bool
  /-- Refuses every repetition. -/
  plain : Bool

namespace Flags

def none : Flags :=
  ⟨false, false, false, false, false, false, false⟩

def letters : List Char :=
  ['i', 'L', 'm', 's', 'x', 'a', 't', 'u']

def isLetter (c : Char) : Bool :=
  letters.contains c

def alphabetLetters : List Char :=
  ['a', 'u', 'L']

def set (flags : Flags) (value : Bool) : Char → Flags
  | 'i' => { flags with ignoreCase := value }
  | 'm' => { flags with multiline := value }
  | 's' => { flags with dotAll := value }
  | 'x' => { flags with verbose := value }
  | 'a' => { flags with ascii := value }
  | 'u' => { flags with unicode := value }
  | 't' => { flags with plain := value }
  | _ => flags

def setAll (flags : Flags) (value : Bool) (letters : List Char) : Flags :=
  letters.foldl (fun flags c => flags.set value c) flags

/-- The flags inside a group that turns some on and some off. -/
def within (flags : Flags) (on off : List Char) : Flags :=
  let flags :=
    if on.any alphabetLetters.contains then { flags with ascii := false, unicode := false }
    else flags
  (flags.setAll true on).setAll false off

def isAscii (flags : Flags) : Bool :=
  flags.ascii && !flags.unicode

def folding (flags : Flags) : Folding :=
  if flags.ignoreCase then
    if flags.isAscii then .ascii else .unicode
  else
    .exact

end Flags

/-- What a group of flag letters does. -/
inductive FlagGroup where
  | global (on : List Char)
  | part (on off : List Char)

namespace Cursor

/-- The next symbol, which is passed. -/
def next (cursor : Cursor) (atEnd : Cause) : Except Fault (Symbol × Cursor) :=
  match cursor.peek with
  | some symbol => do .ok (symbol, ← cursor.advance)
  | none => .error (cursor.fault atEnd 0)

/-- The fault of a symbol that was passed and is no flag letter. -/
def noFlag (cursor : Cursor) (symbol : Symbol) (otherwise : Cause) : Fault :=
  match symbol with
  | .plain c => cursor.fault (if Unicode.isLetter c then .unknownFlag else otherwise) 1
  | symbol => cursor.fault otherwise symbol.text.length

/-- The letters to turn on, the first of which has been passed, and the character that ends them. -/
def flagsOn : (fuel : Nat) → (c : Char) → (on : List Char) → Cursor →
    Except Fault ((List Char × Char) × Cursor)
  | 0, _, _, cursor => .error (cursor.fault .missingFlagsEnd 0)
  | fuel + 1, c, on, cursor => do
      if c = 'L' then
        .error (cursor.fault .localeFlag 0)
      else if Flags.alphabetLetters.contains c &&
          on.any (fun other => Flags.alphabetLetters.contains other && other != c) then
        .error (cursor.fault .incompatibleFlags 0)
      else
        let (symbol, cursor) ← cursor.next .missingFlagsEnd
        match symbol with
        | .plain following =>
            if following = ')' ∨ following = '-' ∨ following = ':' then
              .ok ((c :: on, following), cursor)
            else if Flags.isLetter following then
              flagsOn fuel following (c :: on) cursor
            else
              .error (cursor.noFlag symbol .missingFlagsEnd)
        | _ => .error (cursor.noFlag symbol .missingFlagsEnd)

/-- The letters to turn off, up to a colon; `missing` is the cause when neither comes. -/
def flagsOff : (fuel : Nat) → (missing : Cause) → (off : List Char) → Cursor →
    Except Fault (List Char × Cursor)
  | 0, missing, _, cursor => .error (cursor.fault missing 0)
  | fuel + 1, missing, off, cursor => do
      let (symbol, cursor) ← cursor.next missing
      match symbol with
      | .plain c =>
          if c = ':' ∧ !off.isEmpty then
            .ok (off, cursor)
          else if Flags.isLetter c then
            if Flags.alphabetLetters.contains c then
              .error (cursor.fault .alphabetFlagOff 0)
            else
              flagsOff fuel .missingColon (c :: off) cursor
          else
            .error (cursor.noFlag symbol missing)
      | _ => .error (cursor.noFlag symbol missing)

/-- The group of flags whose first character has been passed. -/
def flagGroup (cursor : Cursor) (c : Char) : Except Fault (FlagGroup × Cursor) := do
  let fuel := cursor.rest.length + 1
  let ((on, ending), cursor) ←
    if c = '-' then .ok (([], '-'), cursor) else cursor.flagsOn fuel c []
  if ending = ')' then
    .ok (.global on, cursor)
  else if on.contains 't' then
    .error (cursor.fault .globalFlagOn 1)
  else
    let (off, cursor) ←
      if ending = '-' then cursor.flagsOff fuel .missingFlag [] else .ok ([], cursor)
    if off.contains 't' then
      .error (cursor.fault .globalFlagOff 1)
    else if on.any off.contains then
      .error (cursor.fault .flagOnAndOff 1)
    else
      .ok (.part on off, cursor)

end Cursor

end Interlinear.Pattern
