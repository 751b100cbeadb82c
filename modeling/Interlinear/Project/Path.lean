import Interlinear.Text.Parts

/-!
# Paths

A path is a row of names, from the root or from the working directory.  Repeated slashes and names
that consist of one dot are dropped when a path is read, and two dots are kept.  A path that starts
with exactly two slashes keeps both.
-/

namespace Interlinear.Project

inductive Root where
  | relative
  | single
  | double
deriving DecidableEq

def Root.text : Root → String
  | relative => ""
  | single => "/"
  | double => "//"

structure Path where
  root : Root
  names : List String
deriving DecidableEq

namespace Path

def rootOf : List Char → Root
  | '/' :: '/' :: '/' :: _ => .single
  | '/' :: '/' :: _ => .double
  | '/' :: _ => .single
  | _ => .relative

/-- The names in a text that name something: neither empty nor a single dot. -/
def namesIn (cs : List Char) : List String :=
  ((Text.parts '/' cs).filter fun part => part ≠ [] && part ≠ ['.']).map String.ofList

def ofString (text : String) : Path :=
  ⟨rootOf text.toList, namesIn text.toList⟩

/-- The working directory. -/
def here : Path :=
  ⟨.relative, []⟩

/-- A path of no names is written as a single dot, unless it has a root. -/
def text (path : Path) : String :=
  if path = here then "."
  else path.root.text ++ "/".intercalate path.names

/-- The path of a file in a directory. -/
def child (path : Path) (name : String) : Path :=
  { path with names := path.names ++ [name] }

end Path

end Interlinear.Project
