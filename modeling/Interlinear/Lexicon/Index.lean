import Interlinear.Dictionary
import Interlinear.Lexicon.Basic

/-!
# Indexes from ids to glosses

An index is built from lexemes in order.  Of several lexemes with one id the last one wins, and each
that overrides an earlier one is reported.
-/

namespace Interlinear

structure Index where
  glosses : Dictionary String Gloss

namespace Index

def build (lexemes : List Lexeme) : Index :=
  ⟨.ofList (lexemes.map fun lexeme => (lexeme.id, lexeme.translation))⟩

/-- The ids of the lexemes that override an earlier one, given the ids seen before. -/
def overridesAfter (seen : List String) : List Lexeme → List String
  | [] => []
  | lexeme :: lexemes =>
      if seen.contains lexeme.id then
        lexeme.id :: overridesAfter seen lexemes
      else
        overridesAfter (lexeme.id :: seen) lexemes

def overrides (lexemes : List Lexeme) : List String :=
  overridesAfter [] lexemes

def overrideMessage (id : String) : String :=
  "Duplicate lexeme id '" ++ id ++ "': later entry overrides earlier one"

def get? (index : Index) (id : String) : Option Gloss :=
  index.glosses.get? id

def contains (index : Index) (id : String) : Bool :=
  index.glosses.contains id

def ids (index : Index) : List String :=
  index.glosses.keys

def size (index : Index) : Nat :=
  index.glosses.size

/-- How messages write an index. -/
def display (index : Index) : String :=
  "LexiconIndex(" ++ toString index.size ++ " entries)"

/-- An id that no lexeme has. -/
structure MissingId where
  id : String

def MissingId.message (e : MissingId) : String :=
  Text.quoted e.id

def get (index : Index) (id : String) : Except MissingId Gloss :=
  match index.get? id with
  | some gloss => .ok gloss
  | none => .error ⟨id⟩

end Index

end Interlinear
