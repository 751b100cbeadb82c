/-!
# Parts between separators

A text is cut at every occurrence of a separating character.  There is one part more than there are
separators, and parts may be empty.
-/

namespace Interlinear.Text

/-- The parts of a text between separators. -/
def parts (separator : Char) : List Char → List (List Char)
  | [] => [[]]
  | c :: cs =>
      match parts separator cs with
      | [] => [[c]]
      | part :: rest => if c = separator then [] :: part :: rest else (c :: part) :: rest

end Interlinear.Text
