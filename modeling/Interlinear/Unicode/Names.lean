/-!
# Names of characters

Every assigned character has a name, and some names stand for no single character.  The names are a
part of the character database that is kept elsewhere, so that whatever reads them is given them.
-/

namespace Interlinear.Unicode

/-- The characters that names stand for. -/
class Names where
  code? : List Char → Option Nat

/-- No name stands for a character. -/
@[reducible]
def Names.none : Names where
  code? _ := Option.none

end Interlinear.Unicode
