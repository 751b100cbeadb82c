import Interlinear.Lexicon.Index
import Interlinear.Morphology.Basic

/-!
# Translating glosses

A literal translates to itself, a pointer to the translation of its lexeme's gloss, an inflection by
running the translation of its stem through the named rules in order, and a compound by joining the
translations of its elements from left to right.

Gaps in the data are written into the result.  A pointer to a missing lexeme, a pointer to a lexeme
that is being translated already, and a pointer at the depth limit each leave a diagnostic, and an
unknown inflection name makes one of the whole text so far.  The depth of a gloss counts all glosses
above it, those passed through pointers too.

Translation takes one hop for every pointer followed, and a pointer is followed only below the depth
limit, at a depth that every hop raises.  So the limit bounds the hops that can be nested.
-/

namespace Interlinear

/-- Why a gloss does not translate: a template fails, or a text stands where a gloss is due. -/
inductive TranslationError where
  | template (error : Pattern.TemplateError)
  | notGloss (text : String)

namespace Diagnostic

def missing (id : String) : String :=
  "(" ++ id ++ "??)"

def unknownInflection (text name : String) : String :=
  "(" ++ text ++ "#" ++ name ++ "??)"

def cyclic (id : String) : String :=
  "(" ++ id ++ "#CYCLE??)"

def tooDeep (id : String) : String :=
  "(" ++ id ++ "#DEPTH??)"

end Diagnostic

namespace Morphology

/-- Runs a text through the named rules in order. -/
def inflect (morphology : Morphology) : String → List String → Except TranslationError String
  | text, [] => .ok text
  | text, name :: names =>
      match morphology.inflector? name with
      | none => morphology.inflect (Diagnostic.unknownInflection text name) names
      | some rule =>
          match rule.apply text with
          | .ok (changed, _) => morphology.inflect changed names
          | .error error => .error (.template error)

def join (morphology : Morphology) (left right : String) : Except TranslationError String :=
  (Boundary.joinFirst morphology.boundaries left right).mapError .template

end Morphology

namespace Gloss

mutual
/-- The translation of a gloss at a depth, where `resolve` translates pointers. -/
def evaluate (morphology : Morphology)
    (resolve : (depth : Nat) → String → Except TranslationError String) :
    (depth : Nat) → Gloss → Except TranslationError String
  | _, literal text => .ok text
  | depth, pointer id => resolve depth id
  | depth, inflection stem names => do
      let text ← stem.evaluate morphology resolve (depth + 1)
      morphology.inflect text names
  | _, compound [] => .ok ""
  | depth, compound (first :: others) => do
      let text ← first.evaluate morphology resolve (depth + 1)
      evaluateOthers morphology resolve (depth + 1) text others
  | _, stray text => .error (.notGloss text)
/-- The translation of a row of glosses, joined to a text before them. -/
def evaluateOthers (morphology : Morphology)
    (resolve : (depth : Nat) → String → Except TranslationError String) :
    (depth : Nat) → (joined : String) → List Gloss → Except TranslationError String
  | _, joined, [] => .ok joined
  | depth, joined, gloss :: glosses => do
      let text ← gloss.evaluate morphology resolve depth
      let joined ← morphology.join joined text
      evaluateOthers morphology resolve depth joined glosses
end

end Gloss

structure Translator where
  index : Index
  morphology : Morphology
  maxDepth : Nat
  maxDepth_pos : 0 < maxDepth

namespace Translator

def defaultDepth : Nat := 200

/-- A depth limit that is not positive. -/
structure DepthFault where
  limit : Int

def DepthFault.message (fault : DepthFault) : String :=
  "max_depth must be positive, got " ++ toString fault.limit

def make (index : Index) (morphology : Morphology) (limit : Int) :
    Except DepthFault Translator :=
  if h : 0 < limit then
    .ok ⟨index, morphology, limit.toNat, by omega⟩
  else
    .error ⟨limit⟩

/-- The translation of a pointer below the lexemes of `path`, which are being translated. -/
def resolve (translator : Translator) :
    (hops : Nat) → (path : List String) → (depth : Nat) → String → Except TranslationError String
  | hops, path, depth, id =>
      match translator.index.get? id with
      | none => .ok (Diagnostic.missing id)
      | some gloss =>
          if path.contains id then
            .ok (Diagnostic.cyclic id)
          else if translator.maxDepth ≤ depth then
            .ok (Diagnostic.tooDeep id)
          else
            match hops with
            | 0 => .ok (Diagnostic.tooDeep id)
            | hops + 1 =>
                gloss.evaluate translator.morphology
                  (translator.resolve hops (path ++ [id])) (depth + 1)

def translate (translator : Translator) (gloss : Gloss) : Except TranslationError String :=
  gloss.evaluate translator.morphology (translator.resolve translator.maxDepth []) 0

end Translator

end Interlinear
