import Interlinear.Pattern.Fault
import Interlinear.Pattern.Token

/-!
# A place in a pattern or template

A cursor stands before the symbols that are left.  Moving it fails when a backslash that escapes
nothing comes next, so that this fault is found before any that concerns the symbol just passed.
-/

namespace Interlinear.Pattern

structure Cursor where
  source : String
  length : Nat
  rest : List Token

namespace Cursor

def peek (cursor : Cursor) : Option Symbol :=
  cursor.rest.head?.map (·.symbol)

def position (cursor : Cursor) : Nat :=
  match cursor.rest with
  | [] => cursor.length
  | token :: _ => token.position

/-- A fault found `back` characters before the cursor. -/
def fault (cursor : Cursor) (cause : Cause) (back : Nat) : Fault :=
  ⟨cursor.source, cause, some (cursor.position - back)⟩

/-- Refuses a backslash that escapes nothing and comes next. -/
def settle (cursor : Cursor) : Except Fault Cursor :=
  match cursor.peek with
  | some .dangling => .error (cursor.fault .danglingBackslash 0)
  | _ => .ok cursor

def start (source : String) : Except Fault Cursor :=
  settle ⟨source, source.length, tokens source.toList⟩

def advance (cursor : Cursor) : Except Fault Cursor :=
  settle { cursor with rest := cursor.rest.tail }

def isNext (cursor : Cursor) (c : Char) : Bool :=
  cursor.peek == some (.plain c)

/-- The next character, if it is not escaped and in the class. -/
def nextIn? (cursor : Cursor) (holds : Char → Bool) : Option Char :=
  match cursor.peek with
  | some (.plain c) => if holds c then some c else none
  | _ => none

/-- At most `count` characters of a class. -/
def takeUpTo (holds : Char → Bool) : (count : Nat) → Cursor → Except Fault (List Char × Cursor)
  | 0, cursor => .ok ([], cursor)
  | count + 1, cursor =>
      match cursor.nextIn? holds with
      | none => .ok ([], cursor)
      | some c => do
          let (cs, cursor) ← takeUpTo holds count (← cursor.advance)
          .ok (c :: cs, cursor)

def takeWhile (holds : Char → Bool) (cursor : Cursor) : Except Fault (List Char × Cursor) :=
  takeUpTo holds cursor.rest.length cursor

/-- The characters of `name` so far are in reverse. -/
def takeNameFrom (terminator : Char) (what : String) :
    (fuel : Nat) → (name : List Char) → Cursor → Except Fault (List Char × Cursor)
  | 0, _, cursor => .error (cursor.fault (.missingName what) 0)
  | fuel + 1, name, cursor =>
      match cursor.peek with
      | none =>
          if name.isEmpty then .error (cursor.fault (.missingName what) 0)
          else .error (cursor.fault (.unterminatedName terminator) name.length)
      | some symbol => do
          let cursor ← cursor.advance
          if symbol = .plain terminator then
            if name.isEmpty then .error (cursor.fault (.missingName what) 1)
            else .ok (name.reverse, cursor)
          else
            takeNameFrom terminator what fuel (symbol.text.reverse ++ name) cursor

/-- A name up to a terminator, which is passed. -/
def takeName (terminator : Char) (what : String) (cursor : Cursor) :
    Except Fault (List Char × Cursor) :=
  takeNameFrom terminator what (cursor.rest.length + 1) [] cursor

end Cursor

end Interlinear.Pattern
