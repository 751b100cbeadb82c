import Interlinear.Unicode.Blank
import Interlinear.Unicode.Case
import Interlinear.Unicode.Digit

/-!
# The trees of patterns

A pattern is a tree of single-character tests, anchors and references, joined by sequence, choice,
repetition and groups.  The flags in force at a node are resolved when the tree is built, so that a
node carries what it needs to match.  Characters are code points, since an escape may name a
surrogate, which no text holds.
-/

namespace Interlinear.Pattern

/-- Which case differences a test ignores. -/
inductive Folding where
  | exact
  | ascii
  | unicode
deriving DecidableEq

inductive Category where
  | digit
  | blank
  | word
deriving DecidableEq

/-- A member of a character class. -/
inductive ClassItem where
  | code (code : Nat)
  | range (low high : Nat)
  | category (category : Category) (negated ascii : Bool)
deriving DecidableEq

/-- A test of one character. -/
inductive CharTest where
  | code (code : Nat) (negated : Bool) (folding : Folding)
  | any (newlines : Bool)
  | set (items : List ClassItem) (negated : Bool) (folding : Folding)
deriving DecidableEq

/-- A condition on a place between characters. -/
inductive Anchor where
  | textStart
  | lineStart
  | textEnd
  /-- The end of the text, or before a newline that ends it. -/
  | lastEnd
  | lineEnd
  | boundary (negated ascii : Bool)
deriving DecidableEq

inductive Greed where
  | greedy
  | lazy
  | possessive
deriving DecidableEq

/-- The least and the greatest number of characters that a node can match, capped. -/
structure Width where
  least : Nat
  most : Nat
deriving DecidableEq

inductive Node where
  | empty
  | char (test : CharTest)
  | anchor (anchor : Anchor)
  | reference (group : Nat) (folding : Folding)
  | seq (first second : Node)
  | either (first second : Node)
  | group (index : Nat) (body : Node)
  /-- A part with flags of its own. -/
  | flagged (body : Node)
  | atomic (body : Node)
  | ahead (negated : Bool) (body : Node)
  | behind (width : Width) (negated : Bool) (body : Node)
  | conditional (group : Nat) (yes no : Node)
  | repeated (greed : Greed) (least : Nat) (most : Option Nat) (body : Node)

namespace Node

def ofList : List Node → Node
  | [] => empty
  | [node] => node
  | node :: nodes => seq node (ofList nodes)

/-- The choice between alternatives, tried from left to right. -/
def choice : List Node → Node
  | [] => empty
  | [node] => node
  | node :: nodes => either node (choice nodes)

end Node

namespace Width

def cap : Nat := Nat.pow 2 64

def zero : Width := ⟨0, 0⟩

def one : Width := ⟨1, 1⟩

def clamp (width : Width) : Width :=
  ⟨min width.least cap, min width.most cap⟩

def add (a b : Width) : Width :=
  clamp ⟨a.least + b.least, a.most + b.most⟩

def join (a b : Width) : Width :=
  ⟨min a.least b.least, max a.most b.most⟩

def times (width : Width) (least : Nat) : Option Nat → Width
  | some most => clamp ⟨width.least * least, width.most * most⟩
  | none => clamp ⟨width.least * least, if width.most = 0 then 0 else cap⟩

/-- The width of a node, given the widths of the groups it refers to. -/
def ofNode (groups : Nat → Width) : Node → Width
  | .empty => zero
  | .char _ => one
  | .anchor _ => zero
  | .reference group _ => groups group
  | .seq first second => add (ofNode groups first) (ofNode groups second)
  | .either first second => join (ofNode groups first) (ofNode groups second)
  | .group _ body => ofNode groups body
  | .flagged body => ofNode groups body
  | .atomic body => ofNode groups body
  | .ahead _ _ => zero
  | .behind _ _ _ => zero
  | .conditional _ yes no => join (ofNode groups yes) (ofNode groups no)
  | .repeated _ least most body => times (ofNode groups body) least most

end Width

/-! A character class in which letters are compared without regard to case holds the lower case of
its members and the lower-case letters that share their upper case; the character in question is
lowered before it is looked up.  The class is treated so only if one of its members has case, or
lies beyond the first 65536 code points.  Single members from beyond are looked up as they are, and
ranges that reach beyond also hold what their characters are the upper case of. -/

/-- The last code point for which classes keep lower-case members. -/
def lastBasic : Nat := 0xFFFF

def isAsciiUpper (code : Nat) : Bool :=
  0x41 ≤ code && code ≤ 0x5A

def asciiLower (code : Nat) : Nat :=
  if isAsciiUpper code then code + 0x20 else code

def isAsciiCased (code : Nat) : Bool :=
  isAsciiUpper code || (0x61 ≤ code && code ≤ 0x7A)

def Folding.lower : Folding → Nat → Nat
  | exact, code => code
  | ascii, code => asciiLower code
  | unicode, code => Unicode.lowerCode code

def Folding.variants : Folding → Nat → List Nat
  | unicode, code => Unicode.variantsOf code
  | _, _ => []

def Folding.isCased : Folding → Nat → Bool
  | exact, _ => false
  | ascii, code => isAsciiCased code
  | unicode, code => Unicode.isCasedCode code

/-- The code points other than `code` whose lower case it is. -/
def Folding.lowerSources : Folding → Nat → List Nat
  | exact, _ => []
  | ascii, code => if isAsciiUpper (code - 0x20) then [code - 0x20] else []
  | unicode, code => Unicode.lowerSources code

def Folding.hasCasedBetween : Folding → Nat → Nat → Bool
  | exact, _, _ => false
  | ascii, low, high => (low ≤ 0x5A && 0x41 ≤ high) || (low ≤ 0x7A && 0x61 ≤ high)
  | unicode, low, high => Unicode.hasCasedBetween low high

def Category.holds (category : Category) (ascii : Bool) (code : Nat) : Bool :=
  match category with
  | digit => if ascii then 0x30 ≤ code && code ≤ 0x39 else Unicode.isDigitCode code
  | blank => if ascii then code == 0x20 || (9 ≤ code && code ≤ 13) else Unicode.isBlankCode code
  | word => if ascii then code < 0x80 && Unicode.isWordCode code else Unicode.isWordCode code

namespace ClassItem

def holds (code : Nat) : ClassItem → Bool
  | .code member => code == member
  | range low high => low ≤ code && code ≤ high
  | category kind negated ascii => kind.holds ascii code != negated

/-- Whether the member makes its class fold case, as none does without folding. -/
def folds (folding : Folding) : ClassItem → Bool
  | .code member =>
      folding.isCased member || (folding != .exact && lastBasic < folding.lower member)
  | range low high =>
      folding.hasCasedBetween low high || (folding != .exact && lastBasic < high)
  | category _ _ _ => false

/-- Whether some code point from `low` to `high` has the lower case `code`. -/
def lowersInto (folding : Folding) (low high code : Nat) : Bool :=
  (folding.lower code == code && low ≤ code && code ≤ high) ||
    (folding.lowerSources code).any fun source => low ≤ source && source ≤ high

/-- Whether a class that folds case holds `code`, which is in lower case. -/
def holdsFolded (folding : Folding) (code : Nat) : ClassItem → Bool
  | .code member =>
      if folding.lower member ≤ lastBasic then
        code == folding.lower member || (folding.variants (folding.lower member)).contains code
      else
        code == member
  | range low high =>
      (code :: folding.variants code).any (lowersInto folding low (min high lastBasic)) ||
        (lastBasic < high &&
          ((low ≤ code && code ≤ high) ||
            match Unicode.upperCodes code with
            | [] => false
            | upper :: _ => low ≤ upper && upper ≤ high))
  | category kind negated ascii => kind.holds ascii code != negated

end ClassItem

namespace CharTest

def holdsCode (folding : Folding) (member code : Nat) : Bool :=
  if folding.isCased member then
    folding.lower code == folding.lower member ||
      (folding.variants (folding.lower member)).contains (folding.lower code)
  else
    code == member

def holdsSet (folding : Folding) (items : List ClassItem) (code : Nat) : Bool :=
  if items.any (·.folds folding) then
    items.any (·.holdsFolded folding (folding.lower code))
  else
    items.any (·.holds code)

def holds (test : CharTest) (c : Char) : Bool :=
  match test with
  | code member negated folding => holdsCode folding member c.toNat != negated
  | any newlines => newlines || c != '\n'
  | set items negated folding => holdsSet folding items c.toNat != negated

end CharTest

end Interlinear.Pattern
