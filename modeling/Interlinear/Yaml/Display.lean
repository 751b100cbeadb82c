import Interlinear.Numeral.Integer
import Interlinear.Numeral.Notation
import Interlinear.Text.Quoted
import Interlinear.Yaml.Value

/-!
# Values in messages

A message shows a value in the notation of JSON, with texts as they are and keys turned into texts.
A value with a part that JSON cannot hold, such as a date, is shown in another notation as a whole.
That one abbreviates a value inside itself; in JSON such a value cannot be shown.  Whichever comes
first in the value decides.  Very long integers cannot be shown in either.
-/

namespace Interlinear.Yaml

/-- Why a value cannot be shown. -/
inductive DisplayFault where
  | endless
  | numberTooLong
deriving DecidableEq

def DisplayFault.message : DisplayFault → String
  | endless => "Circular reference detected"
  | numberTooLong =>
      "Exceeds the limit (4300 digits) for integer string conversion; " ++
        "use sys.set_int_max_str_digits() to increase the limit"

/-- Why a value has no text in JSON. -/
inductive JsonFault where
  | foreign
  | display (fault : DisplayFault)

namespace Value

def integerText (n : Int) : Except DisplayFault String :=
  if Nat.pow 10 Numeral.digitLimit ≤ n.natAbs then .error .numberTooLong else .ok (toString n)

def jsonInteger (n : Int) : Except JsonFault String :=
  (integerText n).mapError .display

def jsonNames : Numeral.SpecialNames :=
  ⟨"NaN", "Infinity", "-Infinity"⟩

def jsonEscape (c : Char) : List Char :=
  if c = '"' ∨ c = '\\' then ['\\', c]
  else if c = '\n' then ['\\', 'n']
  else if c = '\r' then ['\\', 'r']
  else if c = '\t' then ['\\', 't']
  else if c = '\x08' then ['\\', 'b']
  else if c = '\x0c' then ['\\', 'f']
  else if c.toNat < 0x20 then '\\' :: 'u' :: Text.hexDigits 4 c.toNat
  else [c]

def jsonText (s : String) : String :=
  String.ofList ('"' :: s.toList.flatMap jsonEscape ++ ['"'])

/-- A value that JSON writes as a word. -/
def jsonWord? : Value → Option (Except JsonFault String)
  | null => some (.ok "null")
  | bool true => some (.ok "true")
  | bool false => some (.ok "false")
  | int n => some (jsonInteger n)
  | float x => some (.ok (Numeral.floatText jsonNames x))
  | nan _ => some (.ok jsonNames.notNumber)
  | _ => none

/-- A key: a text, or a word turned into one. -/
def jsonKey (key : Value) : Except JsonFault String :=
  match key, key.jsonWord? with
  | text s, _ => .ok (jsonText s)
  | _, some word => word.map jsonText
  | _, none => .error .foreign

def bracketed (first last : String) (parts : List String) : String :=
  first ++ ", ".intercalate parts ++ last

mutual
/-- The text in JSON, inside values with the numbers given. -/
def json (outer : List Nat) : Value → Except JsonFault String
  | null => .ok "null"
  | bool b => .ok (if b then "true" else "false")
  | int n => jsonInteger n
  | float x => .ok (Numeral.floatText jsonNames x)
  | nan _ => .ok jsonNames.notNumber
  | text s => .ok (jsonText s)
  | bytes _ | date _ | time _ | set _ => .error .foreign
  | list items => (jsonItems outer items).map (bracketed "[" "]")
  | pair first second => do
      let first ← json outer first
      let second ← json outer second
      .ok (bracketed "[" "]" [first, second])
  | mapping entries => (jsonEntries outer entries).map (bracketed "\x7b" "\x7d")
  | knot number value =>
      if outer.contains number then .error (.display .endless)
      else json (number :: outer) value
def jsonItems (outer : List Nat) : List Value → Except JsonFault (List String)
  | [] => .ok []
  | item :: items => do
      let shown ← json outer item
      let others ← jsonItems outer items
      .ok (shown :: others)
def jsonEntries (outer : List Nat) : List (Value × Value) → Except JsonFault (List String)
  | [] => .ok []
  | (key, value) :: entries => do
      let name ← jsonKey key
      let shown ← json outer value
      let others ← jsonEntries outer entries
      .ok ((name ++ ": " ++ shown) :: others)
end

/-! ## The other notation -/

def byteEscape (quote : Char) (byte : UInt8) : List Char :=
  let c := Char.ofNat byte.toNat
  if c = quote ∨ c = '\\' then ['\\', c]
  else if c = '\n' then ['\\', 'n']
  else if c = '\r' then ['\\', 'r']
  else if c = '\t' then ['\\', 't']
  else if 0x20 ≤ byte.toNat ∧ byte.toNat < 0x7F then [c]
  else '\\' :: 'x' :: Text.hexDigits 2 byte.toNat

def bytesText (bytes : List UInt8) : String :=
  let quote := Text.quoteFor (bytes.map fun byte => Char.ofNat byte.toNat)
  String.ofList ('b' :: quote :: bytes.flatMap (byteEscape quote) ++ [quote])

/-- How a value inside itself is abbreviated. -/
def abbreviation : Value → String
  | mapping _ => "\x7b...\x7d"
  | set _ => "set(...)"
  | _ => "[...]"

mutual
def describe (outer : List Nat) : Value → Except DisplayFault String
  | null => .ok "None"
  | bool b => .ok (if b then "True" else "False")
  | int n => integerText n
  | float x => .ok (Numeral.floatText Numeral.plainNames x)
  | nan _ => .ok Numeral.plainNames.notNumber
  | text s => .ok (Text.quoted s)
  | bytes content => .ok (bytesText content)
  | date day => .ok day.display
  | time moment => .ok moment.display
  | list items => (describeItems outer items).map (bracketed "[" "]")
  | pair first second => do
      let first ← describe outer first
      let second ← describe outer second
      .ok (bracketed "(" ")" [first, second])
  | mapping entries => (describeEntries outer entries).map (bracketed "\x7b" "\x7d")
  | set [] => .ok "set()"
  | set members => (describeItems outer members).map (bracketed "\x7b" "\x7d")
  | knot number value =>
      if outer.contains number then .ok value.abbreviation
      else describe (number :: outer) value
def describeItems (outer : List Nat) : List Value → Except DisplayFault (List String)
  | [] => .ok []
  | item :: items => do
      let shown ← describe outer item
      let others ← describeItems outer items
      .ok (shown :: others)
def describeEntries (outer : List Nat) :
    List (Value × Value) → Except DisplayFault (List String)
  | [] => .ok []
  | (key, value) :: entries => do
      let name ← describe outer key
      let shown ← describe outer value
      let others ← describeEntries outer entries
      .ok ((name ++ ": " ++ shown) :: others)
end

/-- The text of a value in a message. -/
def display (value : Value) : Except DisplayFault String :=
  match value.json [] with
  | .ok shown => .ok shown
  | .error (.display fault) => .error fault
  | .error .foreign => value.describe []

/-- The text of a key that serves as a name. -/
def name : Value → Except DisplayFault String
  | text s => .ok s
  | date day => .ok day.text
  | time moment => .ok moment.text
  | value => value.describe []

end Value

end Interlinear.Yaml
