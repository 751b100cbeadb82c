import Interlinear.Text.Quoted

/-!
# Gloss expressions

A gloss is a word that stands for itself, a pointer to a lexeme, a stem with inflection names that
apply from left to right, or a row of glosses that are joined into one word.

Glosses that come from outside may be ill-formed in three ways: a plain text stands where a gloss,
the names of an inflection or the elements of a compound are due.  The first is kept as a leaf,
`stray`, and refused by every operation that reaches it; the other two are refused when the gloss is
built.
-/

namespace Interlinear

inductive Gloss where
  | literal (text : String)
  | pointer (id : String)
  | inflection (stem : Gloss) (names : List String)
  | compound (elements : List Gloss)
  | stray (text : String)

namespace Gloss

mutual
def decEq : (a b : Gloss) → Decidable (a = b)
  | literal s, literal t => decidable_of_iff (s = t) (by simp)
  | pointer s, pointer t => decidable_of_iff (s = t) (by simp)
  | inflection g ns, inflection h ms =>
      match decEq g h with
      | isTrue hg => decidable_of_iff (ns = ms) (by simp [hg])
      | isFalse hg => isFalse (by simp [hg])
  | compound gs, compound hs =>
      match listDecEq gs hs with
      | isTrue hg => isTrue (by simp [hg])
      | isFalse hg => isFalse (by simp [hg])
  | stray s, stray t => decidable_of_iff (s = t) (by simp)
  | literal _, pointer _ | literal _, inflection _ _ | literal _, compound _ | literal _, stray _
  | pointer _, literal _ | pointer _, inflection _ _ | pointer _, compound _ | pointer _, stray _
  | inflection _ _, literal _ | inflection _ _, pointer _ | inflection _ _, compound _
  | inflection _ _, stray _
  | compound _, literal _ | compound _, pointer _ | compound _, inflection _ _
  | compound _, stray _
  | stray _, literal _ | stray _, pointer _ | stray _, inflection _ _ | stray _, compound _ =>
      isFalse (by simp)
def listDecEq : (gs hs : List Gloss) → Decidable (gs = hs)
  | [], [] => isTrue rfl
  | [], _ :: _ => isFalse (by simp)
  | _ :: _, [] => isFalse (by simp)
  | g :: gs, h :: hs =>
      match decEq g h, listDecEq gs hs with
      | isTrue hg, isTrue hgs => isTrue (by simp [hg, hgs])
      | isFalse hg, _ => isFalse (by simp [hg])
      | _, isFalse hgs => isFalse (by simp [hgs])
end

instance : DecidableEq Gloss := decEq

mutual
/-- No text stands where a gloss is due. -/
def WellTyped : Gloss → Prop
  | literal _ => True
  | pointer _ => True
  | inflection stem _ => stem.WellTyped
  | compound elements => AllWellTyped elements
  | stray _ => False
def AllWellTyped : List Gloss → Prop
  | [] => True
  | g :: gs => g.WellTyped ∧ AllWellTyped gs
end

theorem allWellTyped_iff (gs : List Gloss) : AllWellTyped gs ↔ ∀ g ∈ gs, g.WellTyped := by
  induction gs with
  | nil => simp [AllWellTyped]
  | cons g gs ih => simp [AllWellTyped, ih]

/-- How messages write a row: in parentheses, a row of one with a comma after it. -/
def displayRow : List String → String
  | [] => "()"
  | [x] => "(" ++ x ++ ",)"
  | xs => "(" ++ ", ".intercalate xs ++ ")"

mutual
/-- How messages write a gloss. -/
def display : Gloss → String
  | literal text => "Literal(string=" ++ Text.quoted text ++ ")"
  | pointer id => "Pointer(lexeme=" ++ Text.quoted id ++ ")"
  | inflection stem names =>
      "Inflection(stem=" ++ stem.display ++ ", inflections=" ++
        displayRow (names.map Text.quoted) ++ ")"
  | compound elements => "Compound(elements=" ++ displayRow (displayAll elements) ++ ")"
  | stray text => Text.quoted text
def displayAll : List Gloss → List String
  | [] => []
  | g :: gs => g.display :: displayAll gs
end

/-- What is offered where a list is due: the list, or a plain text. -/
inductive Offer (α : Type) where
  | items (items : List α)
  | text (text : String)

/-- A text where the type of a gloss asks for something else. -/
inductive TypeFault where
  | namesText (text : String)
  | elementsText (text : String)
  | notGloss (text : String)

def TypeFault.message : TypeFault → String
  | namesText text =>
      "inflections must be a sequence of names, not a string: " ++ Text.quoted text
  | elementsText text =>
      "elements must be a sequence of glosses, not a string: " ++ Text.quoted text
  | notGloss text => "Not a gloss: " ++ Text.quoted text

def ofNames (stem : Gloss) : Offer String → Except TypeFault Gloss
  | .items names => .ok (inflection stem names)
  | .text text => .error (.namesText text)

def ofElements : Offer Gloss → Except TypeFault Gloss
  | .items elements => .ok (compound elements)
  | .text text => .error (.elementsText text)

end Gloss

end Interlinear
