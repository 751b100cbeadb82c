import Interlinear.Pattern.Template

/-!
# Morphological rules

A rule changes a text or does not match it.  A replacement matches when its pattern is found, and
only then is its template looked at.  A row of rules applies the first that matches.
-/

namespace Interlinear

inductive Status where
  | applied
  | doesNotMatch
deriving DecidableEq

def Status.name : Status → String
  | applied => "applied"
  | doesNotMatch => "does-not-match"

inductive Rule where
  /-- Replaces at most `count` matches from the left; zero stands for all of them, and a negative
  number for none. -/
  | replace (pattern : Pattern) (template : String) (count : Int)
  | capitalize
  | first (rules : List Rule)

/-- Puts the first character into upper case. -/
def capitalized (text : String) : String :=
  match text.toList with
  | [] => text
  | c :: cs => String.ofList (Unicode.upper c ++ cs)

namespace Rule

mutual
def apply : Rule → String → Except Pattern.TemplateError (String × Status)
  | replace pattern template count, text =>
      if pattern.isFound text then do
        let changed ← pattern.replace template count text
        .ok (changed, .applied)
      else
        .ok (text, .doesNotMatch)
  | capitalize, text => .ok (capitalized text, .applied)
  | first rules, text => applyFirst rules text
def applyFirst : List Rule → String → Except Pattern.TemplateError (String × Status)
  | [], text => .ok (text, .doesNotMatch)
  | rule :: rules, text => do
      let (changed, status) ← rule.apply text
      match status with
      | .applied => .ok (changed, .applied)
      | .doesNotMatch => applyFirst rules text
end

end Rule

/-- A rule for the place where two parts of a compound meet. -/
structure Boundary where
  leftPattern : Pattern
  rightPattern : Pattern
  leftTemplate : String
  rightTemplate : String

namespace Boundary

def applies (boundary : Boundary) (left right : String) : Bool :=
  boundary.leftPattern.isFound left && boundary.rightPattern.isFound right

/-- Changes the first match on either side and joins the sides. -/
def join (boundary : Boundary) (left right : String) : Except Pattern.TemplateError String := do
  let left ← boundary.leftPattern.replace boundary.leftTemplate 1 left
  let right ← boundary.rightPattern.replace boundary.rightTemplate 1 right
  .ok (left ++ right)

/-- Joins two texts by the first rule that applies, and plainly if none does. -/
def joinFirst (boundaries : List Boundary) (left right : String) :
    Except Pattern.TemplateError String :=
  match boundaries.find? fun boundary => boundary.applies left right with
  | some boundary => boundary.join left right
  | none => .ok (left ++ right)

end Boundary

end Interlinear
