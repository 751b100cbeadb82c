import Interlinear.Morphology.Basic
import Interlinear.Yaml.Display
import Interlinear.Yaml.Document

/-!
# Morphology configurations

A configuration is a mapping.  Under `inflections` it maps names to lists of rules, each a pattern
and a replacement, and under `compound` it may have a list of boundary rules, each two patterns and
two replacements.  Everything is checked in the order in which it stands, shape before patterns, and
a fault names the place by its path from the root `$`.

Names that are not texts count as their texts.  A name that comes up again keeps its first place and
takes the rules of the last.
-/

namespace Interlinear.Morphology.Config

/-- What a place in a configuration must hold. -/
inductive Shape where
  | object
  | array
  | string
  | replacement
  | boundary
deriving DecidableEq

def Shape.text : Shape → String
  | object => "an object"
  | array => "an array"
  | string => "a string"
  | replacement => "a [pattern, replacement] pair"
  | boundary => "a [left_pattern, right_pattern, left_replacement, right_replacement] rule"

inductive Error where
  /-- A value of the wrong shape at the place named, and the path of the rule or value it is in. -/
  | shape (place : String) (shape : Shape) (found : String) (path : String)
  | pattern (path source : String) (fault : Pattern.Fault)
  /-- The text of the configuration is no document. -/
  | document
  /-- A text of the document would have half of a surrogate pair in it, which no text has. -/
  | halfSurrogate
  /-- A scalar of the document has no value. -/
  | scalar (fault : Yaml.Fault)
  /-- A value that a message would have to show cannot be shown. -/
  | display (fault : Yaml.DisplayFault)
  /-- A pattern is refused for a reason without a place in it. -/
  | compile (error : Pattern.CompileError)

namespace Error

/-- The path that goes with the message, for faults of the configuration itself. -/
def path? : Error → Option String
  | shape _ _ _ path => some path
  | pattern path _ _ => some path
  | _ => none

def message : Error → String
  | shape place wanted found _ =>
      "expected " ++ place ++ " to be " ++ wanted.text ++ ", but got " ++ found
  | pattern path source fault =>
      "invalid regular expression at " ++ path ++ ": " ++ Text.quoted source ++ " (" ++
        fault.message ++ ")"
  | document => Yaml.Fault.malformed.message
  | halfSurrogate => Yaml.Fault.halfSurrogate.message
  | scalar fault => fault.message
  | display fault => fault.message
  | compile error => error.message

end Error

/-- The error for a value of the wrong shape, which the message shows. -/
def wrongShape (place path : String) (shape : Shape) (found : Yaml.Value) : Error :=
  match found.display with
  | .ok shown => .shape place shape shown path
  | .error fault => .display fault

def item (path : String) (i : Nat) : String :=
  path ++ "[" ++ toString i ++ "]"

/-- The texts in a list of values, from number `i` on. -/
def checkTexts (path : String) (i : Nat) : List Yaml.Value → Except Error (List String)
  | [] => .ok []
  | value :: values =>
      match value.untied with
      | .text s => do
          let texts ← checkTexts path (i + 1) values
          .ok (s :: texts)
      | _ => .error (wrongShape (item path i) path .string value)

/-- The texts of a rule with so many parts. -/
def checkRule (path : String) (parts : Nat) (shape : Shape) (value : Yaml.Value) :
    Except Error (List String) :=
  match value.untied with
  | .list items =>
      if items.length = parts then checkTexts path 0 items
      else .error (wrongShape path path shape value)
  | _ => .error (wrongShape path path shape value)

variable [Unicode.Names]

def checkPattern (path source : String) : Except Error Unit :=
  match Pattern.compile source with
  | .ok _ => .ok ()
  | .error (.fault fault) => .error (.pattern path source fault)
  | .error error => .error (.compile error)

def checkReplacement (path : String) (value : Yaml.Value) : Except Error ReplacementText := do
  match ← checkRule path 2 .replacement value with
  | [pattern, template] =>
      checkPattern (item path 0) pattern
      .ok ⟨pattern, template⟩
  | _ => .error (wrongShape path path .replacement value)

def checkBoundary (path : String) (value : Yaml.Value) : Except Error BoundaryText := do
  match ← checkRule path 4 .boundary value with
  | [leftPattern, rightPattern, leftTemplate, rightTemplate] =>
      checkPattern (item path 0) leftPattern
      checkPattern (item path 1) rightPattern
      .ok ⟨leftPattern, rightPattern, leftTemplate, rightTemplate⟩
  | _ => .error (wrongShape path path .boundary value)

/-- The rules in a list, from number `i` on. -/
def checkItems {α : Type} (check : String → Yaml.Value → Except Error α) (path : String)
    (i : Nat) : List Yaml.Value → Except Error (List α)
  | [] => .ok []
  | value :: values => do
      let rule ← check (item path i) value
      let rules ← checkItems check path (i + 1) values
      .ok (rule :: rules)

/-- A list of rules. -/
def checkRules {α : Type} (check : String → Yaml.Value → Except Error α) (path : String)
    (value : Yaml.Value) : Except Error (List α) :=
  match value.untied with
  | .list items => checkItems check path 0 items
  | _ => .error (wrongShape path path .array value)

def rootPath : String := "$"

def inflectionsPath : String := "$.inflections"

def compoundPath : String := "$.compound"

def checkInflections :
    List (Yaml.Value × Yaml.Value) → Except Error (List (String × List ReplacementText))
  | [] => .ok []
  | (key, value) :: entries => do
      let name ← key.name.mapError .display
      let rules ← checkRules checkReplacement (inflectionsPath ++ "." ++ name) value
      let inflections ← checkInflections entries
      .ok ((name, rules) :: inflections)

/-- The entries of a mapping. -/
def checkObject (path : String) (value : Yaml.Value) :
    Except Error (List (Yaml.Value × Yaml.Value)) :=
  match value.untied with
  | .mapping entries => .ok entries
  | _ => .error (wrongShape path path .object value)

/-- The value under a name, or nothing. -/
def member (name : String) (entries : List (Yaml.Value × Yaml.Value)) : Yaml.Value :=
  (Yaml.Value.lookup? name entries).getD .null

/-- Boundary rules may be left out. -/
def checkCompound (value : Yaml.Value) : Except Error (List BoundaryText) :=
  match value.untied with
  | .null => .ok []
  | _ => checkRules checkBoundary compoundPath value

/-- The rules that a value describes. -/
def check (value : Yaml.Value) : Except Error RuleTexts := do
  let entries ← checkObject rootPath value
  let inflections ← checkObject inflectionsPath (member "inflections" entries)
  let inflections ← checkInflections inflections
  let boundaries ← checkCompound (member "compound" entries)
  .ok ⟨.ofList inflections, boundaries⟩

def loadFault : Yaml.Fault → Error
  | .malformed => .document
  | .halfSurrogate => .halfSurrogate
  | fault => .scalar fault

end Config

/-- The morphology that a configuration describes. -/
def parse [Unicode.Names] (raw : String) : Except Config.Error Morphology := do
  let value ← (Yaml.load raw).mapError Config.loadFault
  let texts ← Config.check value
  (build texts).mapError .compile

end Interlinear.Morphology
