import Interlinear.Generator.Choice
import Interlinear.Generator.Parser

/-!
# Generating words

A generator expands a rule by choosing one of its expansions with one draw and expanding the parts
of it from left to right.  An undefined rule expands to its name between underscores without a draw,
and an empty name stands for the default rule.

Draws come from a source whose state is carried through the whole expansion, a failed one too, so
that the next word goes on where the last one stopped.  Rules may refer to themselves, so expansion
is bounded by a nesting limit.
-/

namespace Interlinear.Generator

/-- A generator of which every rule has a choice. -/
structure Compiled (W : Type) where
  choices : Dictionary String (Choice W (Expansion W))

/-- A rule without expansions. -/
structure EmptyRule where
  name : String

def EmptyRule.message (e : EmptyRule) : String :=
  "Generator rule '" ++ e.name ++ "' lists no expansions"

variable {W : Type}

def compileRules :
    List (String × List (Expansion W)) →
      Except EmptyRule (List (String × Choice W (Expansion W)))
  | [] => .ok []
  | (name, expansions) :: rules =>
      match expansions.map fun expansion => (expansion, expansion.weight) with
      | [] => .error ⟨name⟩
      | first :: others => do
          let choices ← compileRules rules
          .ok ((name, ⟨first, others⟩) :: choices)

def compile (rules : Rules W) : Except EmptyRule (Compiled W) := do
  let choices ← compileRules rules.entries
  .ok ⟨⟨choices⟩⟩

inductive ExpansionError where
  | notPart (text : String)
  | nestedTooDeeply
deriving DecidableEq

def ExpansionError.message : ExpansionError → String
  | notPart text => "Not a pattern segment: " ++ Text.quoted text
  | nestedTooDeeply => "maximum recursion depth exceeded"

def defaultRule : String := "default"

/-- The rule that a name stands for. -/
def startRule (name : String) : String :=
  if name = "" then defaultRule else name

def undefinedRule (name : String) : String :=
  "_" ++ name ++ "_"

/-- A source of draws with a state. -/
structure Source (σ W : Type) where
  draw : σ → W × σ

variable {σ : Type}

/-- Expands parts from left to right, references by `expand`. -/
def expandParts (expand : String → σ → Except ExpansionError String × σ) :
    List Part → σ → Except ExpansionError String × σ
  | [], state => (.ok "", state)
  | .text text :: parts, state =>
      match expandParts expand parts state with
      | (.ok word, state) => (.ok (text ++ word), state)
      | (.error e, state) => (.error e, state)
  | .reference name :: parts, state =>
      match expand name state with
      | (.error e, state) => (.error e, state)
      | (.ok first, state) =>
          match expandParts expand parts state with
          | (.ok word, state) => (.ok (first ++ word), state)
          | (.error e, state) => (.error e, state)
  | .stray text :: _, state => (.error (.notPart text), state)

variable [Add W] [Mul W] [OfNat W 0] [LT W] [DecidableLT W]

/-- Expands a rule within a nesting limit. -/
def Compiled.expand (generator : Compiled W) (source : Source σ W) :
    (nesting : Nat) → String → σ → Except ExpansionError String × σ
  | 0, _, state => (.error .nestedTooDeeply, state)
  | nesting + 1, name, state =>
      match generator.choices.get? (startRule name) with
      | none => (.ok (undefinedRule (startRule name)), state)
      | some choice =>
          let (draw, state) := source.draw state
          expandParts (generator.expand source nesting) (choice.pick draw).parts state

/-- No generator of the usual size nests more deeply than this. -/
def nestingLimit (generator : Compiled W) : Nat :=
  max 1000 (generator.choices.size + 1)

/-- Generates a word within a nesting limit; a missing name is as good as an empty one. -/
def Compiled.generateWithin (generator : Compiled W) (source : Source σ W) (limit : Nat)
    (name? : Option String) (state : σ) : Except ExpansionError String × σ :=
  generator.expand source limit (name?.getD "") state

def Compiled.generate (generator : Compiled W) (source : Source σ W) (name? : Option String)
    (state : σ) : Except ExpansionError String × σ :=
  generator.generateWithin source (nestingLimit generator) name? state

end Interlinear.Generator
