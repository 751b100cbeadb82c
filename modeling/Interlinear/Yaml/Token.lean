import Interlinear.Yaml.Fault

/-!
# Tokens of configuration documents

The structure of a document is given by indicators and by indentation.  Indicators are tokens of
their own; where indentation opens or closes a block there are tokens that no characters stand for.
-/

namespace Interlinear.Yaml

inductive Directive where
  | version (major : Nat)
  | handle (name namespaceText : String)
  | reserved
deriving DecidableEq

/-- A tag as it is written: a handle, if it has one, and what follows it. -/
structure TagText where
  handle : Option String
  suffix : String
deriving DecidableEq

inductive Token where
  | directive (directive : Directive)
  | documentStart
  | documentEnd
  | streamEnd
  | blockSequence
  | blockMapping
  | blockEnd
  | openSequence
  | closeSequence
  | openMapping
  | closeMapping
  /-- The dash before an entry of a block sequence. -/
  | dash
  | comma
  | key
  | value
  | alias (name : String)
  | anchor (name : String)
  | tag (text : TagText)
  | scalar (text : String) (isPlain : Bool)
deriving DecidableEq

end Interlinear.Yaml
