import Interlinear.Pattern.Cursor
import Interlinear.Pattern.Node
import Interlinear.Unicode.Names

/-!
# Escapes

Some escapes mean the same in a class and outside: control characters, code points in hexadecimal
and octal digits, names of characters, and the categories.  Outside a class a number refers to a
group unless it starts with a zero or has three octal digits, and a few letters are anchors.  A
letter without a meaning is refused; any other character stands for itself.
-/

namespace Interlinear.Pattern

def isOctal (c : Char) : Bool :=
  '0' ≤ c && c ≤ '7'

def isHex (c : Char) : Bool :=
  ('0' ≤ c && c ≤ '9') || ('a' ≤ c && c ≤ 'f') || ('A' ≤ c && c ≤ 'F')

def isAsciiLetter (c : Char) : Bool :=
  ('a' ≤ c && c ≤ 'z') || ('A' ≤ c && c ≤ 'Z')

def hexValue (c : Char) : Nat :=
  if c ≤ '9' then c.toNat - 0x30
  else if c ≤ 'F' then c.toNat - 0x37
  else c.toNat - 0x57

/-- The number that digits write in a base. -/
def numberIn (base : Nat) (digits : List Char) : Nat :=
  digits.foldl (fun value c => base * value + hexValue c) 0

/-- The controls that have a letter, and the backslash. -/
def controlCode? : Char → Option Nat
  | 'a' => some 7
  | 'f' => some 12
  | 'n' => some 10
  | 'r' => some 13
  | 't' => some 9
  | 'v' => some 11
  | '\\' => some 0x5C
  | _ => none

def category? (ascii : Bool) : Char → Option ClassItem
  | 'd' => some (.category .digit false ascii)
  | 'D' => some (.category .digit true ascii)
  | 's' => some (.category .blank false ascii)
  | 'S' => some (.category .blank true ascii)
  | 'w' => some (.category .word false ascii)
  | 'W' => some (.category .word true ascii)
  | _ => none

def hexDigitsAfter : Char → Option Nat
  | 'x' => some 2
  | 'u' => some 4
  | 'U' => some 8
  | _ => none

namespace Cursor

variable [Unicode.Names]

/-- A code point in exactly `count` hexadecimal digits, after the letter `c`. -/
def hexEscape (cursor : Cursor) (c : Char) (count : Nat) : Except Fault (Nat × Cursor) := do
  let (digits, cursor) ← cursor.takeUpTo isHex count
  let escape := '\\' :: c :: digits
  if digits.length ≠ count then
    .error (cursor.fault (.incompleteEscape escape) escape.length)
  else if 0x7FFFFFFF < numberIn 16 digits then
    .error (cursor.fault .numberTooLarge 0)
  else if 0x10FFFF < numberIn 16 digits then
    .error (cursor.fault (.badEscape escape) escape.length)
  else
    .ok (numberIn 16 digits, cursor)

/-- A character by name. -/
def namedEscape (cursor : Cursor) : Except Fault (Nat × Cursor) := do
  if !cursor.isNext '\x7b' then
    .error (cursor.fault .missingBrace 0)
  else
    let (name, cursor) ← (← cursor.advance).takeName '\x7d' "character name"
    match Unicode.Names.code? name with
    | some code => .ok (code, cursor)
    | none => .error (cursor.fault (.unknownCharacter name) (name.length + 4))

/-- The rest of an octal escape whose digits so far are given. -/
def octalEscape (cursor : Cursor) (digits : List Char) : Except Fault (Nat × Cursor) :=
  if 0o377 < numberIn 8 digits then
    .error (cursor.fault (.octalTooLarge ('\\' :: digits)) (digits.length + 1))
  else
    .ok (numberIn 8 digits, cursor)

def badEscape (cursor : Cursor) (c : Char) : Fault :=
  cursor.fault (.badEscape ['\\', c]) 2

/-- The member of a class that an escape stands for. -/
def classEscape (cursor : Cursor) (ascii : Bool) (c : Char) :
    Except Fault (ClassItem × Cursor) := do
  if c = 'b' then .ok (.code 8, cursor)
  else if let some code := controlCode? c then .ok (.code code, cursor)
  else if let some item := category? ascii c then .ok (item, cursor)
  else if let some count := hexDigitsAfter c then
    let (code, cursor) ← cursor.hexEscape c count
    .ok (.code code, cursor)
  else if c = 'N' then
    let (code, cursor) ← cursor.namedEscape
    .ok (.code code, cursor)
  else if isOctal c then
    let (digits, cursor) ← cursor.takeUpTo isOctal 2
    let (code, cursor) ← cursor.octalEscape (c :: digits)
    .ok (.code code, cursor)
  else if c = '8' ∨ c = '9' ∨ isAsciiLetter c then
    .error (cursor.badEscape c)
  else
    .ok (.code c.toNat, cursor)

/-- What a number after a backslash, its first digit given, stands for. -/
inductive NumberEscape where
  | code (code : Nat)
  | group (digits : List Char)

def numberEscape (cursor : Cursor) (c : Char) : Except Fault (NumberEscape × Cursor) :=
  match cursor.nextIn? Numeral.isAsciiDigit with
  | none => .ok (.group [c], cursor)
  | some second => do
      let cursor ← cursor.advance
      match cursor.nextIn? isOctal with
      | some third =>
          if isOctal c && isOctal second then do
            let cursor ← cursor.advance
            let (code, cursor) ← cursor.octalEscape [c, second, third]
            .ok (.code code, cursor)
          else
            .ok (.group [c, second], cursor)
      | none => .ok (.group [c, second], cursor)

end Cursor

end Interlinear.Pattern
