import Interlinear.Dictionary
import Interlinear.Morphology.Rule

/-!
# Morphologies

A morphology binds inflection names to rules and holds the boundary rules of compounds.  It is built
from rules written as texts, of which every pattern is compiled, inflections first.  The name `CAP`
is always bound: to capitalization, unless the rules say otherwise.
-/

namespace Interlinear

/-- A replacement as it is written. -/
structure ReplacementText where
  pattern : String
  template : String
deriving DecidableEq

/-- A boundary rule as it is written. -/
structure BoundaryText where
  leftPattern : String
  rightPattern : String
  leftTemplate : String
  rightTemplate : String
deriving DecidableEq

/-- The rules of a morphology as they are written. -/
structure RuleTexts where
  inflections : Dictionary String (List ReplacementText)
  boundaries : List BoundaryText

structure Morphology where
  inflections : Dictionary String Rule
  boundaries : List Boundary

namespace Morphology

def capitalName : String := "CAP"

/-- Adds the given inflections to capitalization. -/
def withCapital (inflections : Dictionary String Rule) (boundaries : List Boundary) : Morphology :=
  ⟨(Dictionary.ofList [(capitalName, Rule.capitalize)]).insertAll inflections.entries, boundaries⟩

def inflector? (morphology : Morphology) (name : String) : Option Rule :=
  morphology.inflections.get? name

variable [Unicode.Names]

def compileReplacements : List ReplacementText → Except Pattern.CompileError (List Rule)
  | [] => .ok []
  | replacement :: replacements => do
      let pattern ← Pattern.compile replacement.pattern
      let rules ← compileReplacements replacements
      .ok (.replace pattern replacement.template 1 :: rules)

def compileInflections :
    List (String × List ReplacementText) → Except Pattern.CompileError (List (String × Rule))
  | [] => .ok []
  | (name, replacements) :: inflections => do
      let rules ← compileReplacements replacements
      let others ← compileInflections inflections
      .ok ((name, .first rules) :: others)

def compileBoundaries : List BoundaryText → Except Pattern.CompileError (List Boundary)
  | [] => .ok []
  | text :: texts => do
      let leftPattern ← Pattern.compile text.leftPattern
      let rightPattern ← Pattern.compile text.rightPattern
      let others ← compileBoundaries texts
      .ok (⟨leftPattern, rightPattern, text.leftTemplate, text.rightTemplate⟩ :: others)

def build (texts : RuleTexts) : Except Pattern.CompileError Morphology := do
  let inflections ← compileInflections texts.inflections.entries
  let boundaries ← compileBoundaries texts.boundaries
  .ok (withCapital ⟨inflections⟩ boundaries)

end Morphology

end Interlinear
