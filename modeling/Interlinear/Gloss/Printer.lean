import Interlinear.Gloss.Parser

/-!
# Writing glosses

The canonical text of a gloss has no question mark, and a circumflex or an asterisk only where the
mode's bare word would stand for something else.  An empty compound and an inflection without names
have no written form.
-/

namespace Interlinear.Gloss

inductive PrintError where
  | noNames (gloss : Gloss)
  | emptyCompound
  | notGloss (text : String)

def PrintError.message : PrintError → String
  | noNames gloss => "Cannot serialize an inflection with no names: " ++ gloss.display
  | emptyCompound => "Cannot serialize an empty compound"
  | notGloss text => (TypeFault.notGloss text).message

def printLiteral (mode : Mode) (text : String) : String :=
  match mode with
  | .implicitLiterals => text
  | .implicitPointers => "^" ++ text

def printPointer (mode : Mode) (id : String) : String :=
  match mode with
  | .implicitLiterals => "*" ++ id
  | .implicitPointers => id

mutual
def print (mode : Mode) : Gloss → Except PrintError String
  | literal text => .ok (printLiteral mode text)
  | pointer id => .ok (printPointer mode id)
  | inflection stem names =>
      if names.isEmpty then
        .error (.noNames (inflection stem names))
      else do
        let stem ← print mode stem
        .ok ("#".intercalate (stem :: names))
  | compound elements =>
      if elements.isEmpty then
        .error .emptyCompound
      else do
        let elements ← printAll mode elements
        .ok ("[" ++ "+".intercalate elements ++ "]")
  | stray text => .error (.notGloss text)
def printAll (mode : Mode) : List Gloss → Except PrintError (List String)
  | [] => .ok []
  | g :: gs => do
      let first ← print mode g
      let others ← printAll mode gs
      .ok (first :: others)
end

end Interlinear.Gloss
