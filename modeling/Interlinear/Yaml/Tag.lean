import Interlinear.Yaml.Token
import Interlinear.Dictionary

/-!
# Tags

The tag of a node says what kind of value it stands for.  Handles shorten tags: the single
exclamation mark stands for itself, and the double one for the standard tags, unless a directive
says otherwise.
-/

namespace Interlinear.Yaml

inductive Tag where
  | null
  | bool
  | int
  | float
  | binary
  | timestamp
  | text
  | sequence
  | mapping
  | set
  | pairs
  /-- The key under which a mapping takes in the entries of others. -/
  | merge
  /-- The key under which a mapping has the value that stands for it as a scalar. -/
  | default
  | unknown
deriving DecidableEq

def standardNamespace : String := "tag:yaml.org,2002:"

/-- The names of the standard tags; ordered mappings are rows of pairs. -/
def standardTags : List (String × Tag) :=
  [("null", .null), ("bool", .bool), ("int", .int), ("float", .float), ("binary", .binary),
    ("timestamp", .timestamp), ("str", .text), ("seq", .sequence), ("map", .mapping), ("set", .set),
    ("omap", .pairs), ("pairs", .pairs), ("merge", .merge), ("value", .default)]

def Tag.ofName (name : String) : Tag :=
  let tags := standardTags.map fun (short, tag) => (standardNamespace ++ short, tag)
  (tags.lookup name).getD .unknown

abbrev Handles := Dictionary String String

def defaultHandles : List (String × String) :=
  [("!", "!"), ("!!", standardNamespace)]

/-- Adds the handles that need no directive. -/
def Handles.withDefaults (handles : Handles) : Handles :=
  defaultHandles.foldl
    (fun handles (name, text) =>
      if handles.contains name then handles else handles.insert name text)
    handles

/-- A tag as it is meant; a single exclamation mark is as good as none. -/
inductive TagSpec where
  | absent
  | plain
  | named (tag : Tag)

/-- The meaning of a tag, if its handle is known. -/
def Handles.resolve? (handles : Handles) (text : TagText) : Option TagSpec :=
  let named := fun name => if name = "!" then TagSpec.plain else .named (.ofName name)
  match text.handle with
  | none => some (named text.suffix)
  | some handle => (handles.get? handle).map fun space => named (space ++ text.suffix)

end Interlinear.Yaml
