import Interlinear.Proofs.Morphology.Leaves
import Interlinear.Proofs.Pattern.Leftmost
import Interlinear.Proofs.Translation.Calls

/-!
# The seams of a compound

Two texts are joined by the first boundary whose patterns are found on both sides.  It rewrites the
leftmost match on either side, the left one first, and where there is no such boundary the texts are
put together as they are.  So boundaries that come after the one that decides, and boundaries that
lack a match on one side, can be added without any effect.

A compound has a seam before every element but the first.  At each of them the translation of the
elements before it meets that of the next element, so that a join sees what earlier joins have
written.  The joins follow one upon another until one of them fails.
-/

namespace Interlinear

open Outcome

namespace Boundary

/-! ## One seam -/

theorem applies_eq_false_iff {boundary : Boundary} {left right : String} :
    boundary.applies left right = false ↔
      boundary.leftPattern.isFound left = false ∨ boundary.rightPattern.isFound right = false := by
  rw [applies, Bool.and_eq_false_iff]

theorem applies_iff {boundary : Boundary} {left right : String} :
    boundary.applies left right = true ↔
      ∃ m n, boundary.leftPattern.IsLeftmost left.toList.toArray m ∧
        boundary.rightPattern.IsLeftmost right.toList.toArray n := by
  rw [applies, Bool.and_eq_true, Pattern.isFound_iff, Pattern.isFound_iff]
  constructor
  · rintro ⟨⟨m, hleft⟩, ⟨n, hright⟩⟩
    exact ⟨m, n, hleft, hright⟩
  · rintro ⟨m, n, hleft, hright⟩
    exact ⟨⟨m, hleft⟩, ⟨n, hright⟩⟩

theorem find?_eq_none {boundaries : List Boundary} {left right : String}
    (h : ∀ boundary ∈ boundaries, boundary.leftPattern.isFound left = false ∨
      boundary.rightPattern.isFound right = false) :
    boundaries.find? (fun boundary => boundary.applies left right) = none := by
  rw [List.find?_eq_none]
  intro boundary hmem
  simp [applies_eq_false_iff.mpr (h boundary hmem)]

/-- What comes of two texts at a seam: the first boundary with a match on both sides rewrites the
leftmost ones, and without such a boundary nothing is changed. -/
inductive JoinsTo (left right : String) :
    List Boundary → Except Pattern.TemplateError String → Prop
  | rewritten {before after : List Boundary} {boundary : Boundary} {m n : Pattern.Match}
      (hbefore : ∀ other ∈ before, other.leftPattern.isFound left = false ∨
        other.rightPattern.isFound right = false)
      (hleft : boundary.leftPattern.IsLeftmost left.toList.toArray m)
      (hright : boundary.rightPattern.IsLeftmost right.toList.toArray n) :
      JoinsTo left right (before ++ boundary :: after) (do
        let leftParts ← Pattern.Template.parse boundary.leftPattern boundary.leftTemplate
        let rightParts ← Pattern.Template.parse boundary.rightPattern boundary.rightTemplate
        .ok (Pattern.rewritten left m leftParts ++ Pattern.rewritten right n rightParts))
  | plain {boundaries : List Boundary}
      (hnone : ∀ boundary ∈ boundaries, boundary.leftPattern.isFound left = false ∨
        boundary.rightPattern.isFound right = false) :
      JoinsTo left right boundaries (.ok (left ++ right))

theorem join_eq {boundary : Boundary} {left right : String} {m n : Pattern.Match}
    (hleft : boundary.leftPattern.IsLeftmost left.toList.toArray m)
    (hright : boundary.rightPattern.IsLeftmost right.toList.toArray n) :
    boundary.join left right = (do
      let leftParts ← Pattern.Template.parse boundary.leftPattern boundary.leftTemplate
      let rightParts ← Pattern.Template.parse boundary.rightPattern boundary.rightTemplate
      .ok (Pattern.rewritten left m leftParts ++ Pattern.rewritten right n rightParts)) := by
  rw [join, hleft.replace_one, hright.replace_one]
  cases Pattern.Template.parse boundary.leftPattern boundary.leftTemplate with
  | error error => rfl
  | ok leftParts =>
      cases Pattern.Template.parse boundary.rightPattern boundary.rightTemplate <;> rfl

theorem JoinsTo.joinFirst_eq {boundaries : List Boundary} {left right : String}
    {outcome : Except Pattern.TemplateError String} (h : JoinsTo left right boundaries outcome) :
    joinFirst boundaries left right = outcome := by
  rw [joinFirst]
  cases h with
  | @rewritten before after boundary m n hbefore hleft hright =>
      have hfind : (boundary :: after).find? (fun boundary => boundary.applies left right) =
          some boundary := List.find?_cons_of_pos (applies_iff.mpr ⟨m, n, hleft, hright⟩)
      rw [List.find?_append, find?_eq_none hbefore, Option.none_or, hfind]
      exact join_eq hleft hright
  | plain hnone => rw [find?_eq_none hnone]

theorem joinsTo_joinFirst (boundaries : List Boundary) (left right : String) :
    JoinsTo left right boundaries (joinFirst boundaries left right) := by
  rw [joinFirst]
  cases hfind : boundaries.find? fun boundary => boundary.applies left right with
  | none =>
      refine .plain fun boundary hmem => applies_eq_false_iff.mp ?_
      simpa using List.find?_eq_none.mp hfind boundary hmem
  | some boundary =>
      obtain ⟨happlies, before, after, rfl, hskipped⟩ := List.find?_eq_some_iff_append.mp hfind
      obtain ⟨m, n, hleft, hright⟩ := applies_iff.mp happlies
      dsimp only
      rw [join_eq hleft hright]
      refine .rewritten (fun other hmem => applies_eq_false_iff.mp ?_) hleft hright
      simpa using hskipped other hmem

theorem joinFirst_eq_iff {boundaries : List Boundary} {left right : String}
    {outcome : Except Pattern.TemplateError String} :
    joinFirst boundaries left right = outcome ↔ JoinsTo left right boundaries outcome := by
  constructor
  · rintro rfl
    exact joinsTo_joinFirst boundaries left right
  · exact JoinsTo.joinFirst_eq

/-- Boundaries are added where they cannot decide: after one that applies, or with a match on one
side at most. -/
inductive Adds (left right : String) : List Boundary → List Boundary → Prop
  | later {before added after : List Boundary} {boundary : Boundary} (hmem : boundary ∈ before)
      (happlies : boundary.applies left right = true) :
      Adds left right (before ++ after) (before ++ added ++ after)
  | oneSided {before added after : List Boundary}
      (hadded : ∀ boundary ∈ added, boundary.leftPattern.isFound left = false ∨
        boundary.rightPattern.isFound right = false) :
      Adds left right (before ++ after) (before ++ added ++ after)

/-- Any number of such additions. -/
def Extends (left right : String) : List Boundary → List Boundary → Prop :=
  Relation.ReflTransGen (Adds left right)

theorem Adds.find?_eq {boundaries more : List Boundary} {left right : String}
    (h : Adds left right boundaries more) :
    more.find? (fun boundary => boundary.applies left right) =
      boundaries.find? fun boundary => boundary.applies left right := by
  cases h with
  | @later before added after boundary hmem happlies =>
      have hfind : (before.find? fun boundary => boundary.applies left right).isSome :=
        List.find?_isSome.mpr ⟨boundary, hmem, happlies⟩
      obtain ⟨winner, hwinner⟩ := Option.isSome_iff_exists.mp hfind
      simp only [List.find?_append, hwinner, Option.some_or]
  | oneSided hadded =>
      rw [List.find?_append, List.find?_append, List.find?_append, find?_eq_none hadded,
        Option.or_none]

theorem Extends.joinFirst_eq {boundaries more : List Boundary} {left right : String}
    (h : Extends left right boundaries more) :
    joinFirst more left right = joinFirst boundaries left right := by
  induction h with
  | refl => rfl
  | tail _ hadds ih => rw [← ih, joinFirst, joinFirst, hadds.find?_eq]

/-! ## All seams -/

/-- Texts are joined to a text one after the other; each seam is the text joined so far and the
next one. -/
inductive Joins (boundaries : List Boundary) :
    String → List String → List (String × String) → Except Pattern.TemplateError String → Prop
  | done {joined : String} : Joins boundaries joined [] [] (.ok joined)
  | seam {joined text result : String} {texts : List String} {seams : List (String × String)}
      {outcome : Except Pattern.TemplateError String}
      (hjoin : JoinsTo joined text boundaries (.ok result))
      (hrest : Joins boundaries result texts seams outcome) :
      Joins boundaries joined (text :: texts) ((joined, text) :: seams) outcome
  | failed {joined text : String} {texts : List String} {error : Pattern.TemplateError}
      (hjoin : JoinsTo joined text boundaries (.error error)) :
      Joins boundaries joined (text :: texts) [(joined, text)] (.error error)

variable {boundaries : List Boundary} {joined : String} {texts : List String}
variable {seams : List (String × String)} {outcome : Except Pattern.TemplateError String}

theorem exists_joins (boundaries : List Boundary) (joined : String) (texts : List String) :
    ∃ seams outcome, Joins boundaries joined texts seams outcome := by
  induction texts generalizing joined with
  | nil => exact ⟨[], .ok joined, .done⟩
  | cons text texts ih =>
      have hjoin := joinsTo_joinFirst boundaries joined text
      cases hresult : joinFirst boundaries joined text with
      | error error =>
          rw [hresult] at hjoin
          exact ⟨_, _, .failed hjoin⟩
      | ok result =>
          rw [hresult] at hjoin
          obtain ⟨seams, outcome, hrest⟩ := ih result
          exact ⟨_, _, .seam hjoin hrest⟩

theorem Joins.length_eq (h : Joins boundaries joined texts seams outcome)
    (houtcome : ∃ result, outcome = .ok result) : seams.length = texts.length := by
  induction h with
  | done => rfl
  | seam _ _ ih => rw [List.length_cons, List.length_cons, ih houtcome]
  | failed =>
      obtain ⟨result, hresult⟩ := houtcome
      cases hresult

/-- The text on the left of a seam is what the joins before it have made. -/
theorem Joins.take (h : Joins boundaries joined texts seams outcome) {k : Nat}
    {left right : String} (hseam : seams[k]? = some (left, right)) :
    texts[k]? = some right ∧ Joins boundaries joined (texts.take k) (seams.take k) (.ok left) := by
  induction h generalizing k with
  | done => simp at hseam
  | seam hjoin hrest ih =>
      cases k with
      | zero =>
          obtain ⟨rfl, rfl⟩ := Prod.mk.inj (Option.some.inj hseam)
          exact ⟨rfl, .done⟩
      | succ k =>
          obtain ⟨hright, hbefore⟩ := ih hseam
          exact ⟨hright, .seam hjoin hbefore⟩
  | failed hjoin =>
      cases k with
      | zero =>
          obtain ⟨rfl, rfl⟩ := Prod.mk.inj (Option.some.inj hseam)
          exact ⟨rfl, .done⟩
      | succ k => simp at hseam

theorem Joins.of_extends {more : List Boundary} (h : Joins boundaries joined texts seams outcome)
    (hmore : ∀ seam ∈ seams, Extends seam.1 seam.2 boundaries more) :
    Joins more joined texts seams outcome := by
  -- A seam is joined as before, since the boundaries that are added cannot decide it.
  have hsame : ∀ {left right : String} {result : Except Pattern.TemplateError String},
      Extends left right boundaries more → JoinsTo left right boundaries result →
      JoinsTo left right more result := by
    intro left right result hextends hjoin
    rw [← joinFirst_eq_iff, hextends.joinFirst_eq, joinFirst_eq_iff]
    exact hjoin
  induction h with
  | done => exact .done
  | seam hjoin _ ih =>
      obtain ⟨hseam, hrest⟩ := List.forall_mem_cons.mp hmore
      exact .seam (hsame hseam hjoin) (ih hrest)
  | failed hjoin =>
      obtain ⟨hseam, -⟩ := List.forall_mem_cons.mp hmore
      exact .failed (hsame hseam hjoin)

end Boundary

open Boundary

variable {joined : String} {texts : List String} {seams : List (String × String)}
variable {outcome : Except Pattern.TemplateError String}

theorem Gloss.evaluateOthers_of_joins {morphology : Morphology}
    {resolve : Nat → String → Except TranslationError String} {depth : Nat} {glosses : List Gloss}
    (hglosses : List.Forall₂ (fun gloss text => gloss.evaluate morphology resolve depth = .ok text)
      glosses texts)
    (h : Joins morphology.boundaries joined texts seams outcome) :
    evaluateOthers morphology resolve depth joined glosses =
      outcome.mapError .template := by
  induction h generalizing glosses with
  | done =>
      cases hglosses
      rw [evaluateOthers]
      rfl
  | seam hjoin _ ih =>
      cases hglosses with
      | cons hgloss hglosses =>
          rw [evaluateOthers, hgloss, ok_bind, Morphology.join, hjoin.joinFirst_eq, mapError_ok,
            ok_bind]
          exact ih hglosses
  | failed hjoin =>
      cases hglosses with
      | cons hgloss hglosses =>
          rw [evaluateOthers, hgloss, ok_bind, Morphology.join, hjoin.joinFirst_eq,
            mapError_error, error_bind]

namespace Translator

variable {translator : Translator} {path : List String} {depth : Nat}
variable {first : Gloss} {others : List Gloss} {text : String}

theorem translateAt_compound_of_joins
    (hfirst : translator.translateAt path (depth + 1) first = .ok text)
    (hothers : List.Forall₂ (fun gloss text =>
      translator.translateAt path (depth + 1) gloss = .ok text) others texts)
    (h : Joins translator.morphology.boundaries text texts seams outcome) :
    translator.translateAt path depth (.compound (first :: others)) =
      outcome.mapError .template := by
  rw [translateAt] at hfirst
  rw [translateAt, Gloss.evaluate, hfirst, ok_bind]
  exact Gloss.evaluateOthers_of_joins hothers h

/-- Elements that translate to texts are joined at the seams of their compound, one seam before
every element but the first unless a join fails.  On the left of a seam stands the translation of
the compound of the elements before it, and on its right the text of the next element; what comes of
them is the work of the first boundary with a match on both sides.  Boundaries that cannot decide a
seam can be added. -/
theorem compound_joins_at_seams
    (helements : List.Forall₂ (fun gloss text =>
      translator.translateAt path (depth + 1) gloss = .ok text) (first :: others) (text :: texts)) :
    (∀ (boundaries : List Boundary) (left right : String)
      (result : Except Pattern.TemplateError String),
        joinFirst boundaries left right = result ↔ JoinsTo left right boundaries result) ∧
    (∀ (boundaries more : List Boundary) (left right : String),
      Extends left right boundaries more →
        joinFirst more left right = joinFirst boundaries left right) ∧
    ∃ seams outcome, Joins translator.morphology.boundaries text texts seams outcome ∧
      translator.translateAt path depth (.compound (first :: others)) =
        outcome.mapError .template ∧
      ((∃ result, outcome = .ok result) → seams.length + 1 = (first :: others).length) ∧
      (∀ (k : Nat) (left right : String), seams[k]? = some (left, right) →
        texts[k]? = some right ∧
          translator.translateAt path depth (.compound (first :: others.take k)) = .ok left) ∧
      ∀ other : Translator,
        List.Forall₂ (fun gloss text => other.translateAt path (depth + 1) gloss = .ok text)
          (first :: others) (text :: texts) →
        (∀ seam ∈ seams, Extends seam.1 seam.2 translator.morphology.boundaries
          other.morphology.boundaries) →
        other.translateAt path depth (.compound (first :: others)) =
          translator.translateAt path depth (.compound (first :: others)) := by
  obtain ⟨hfirst, hothers⟩ := List.forall₂_cons.mp helements
  obtain ⟨seams, outcome, hjoins⟩ :=
    exists_joins translator.morphology.boundaries text texts
  have hcompound := translateAt_compound_of_joins hfirst hothers hjoins
  refine ⟨fun _ _ _ _ => joinFirst_eq_iff, fun _ _ _ _ h => h.joinFirst_eq, seams, outcome, hjoins,
    hcompound, ?count, ?sides, ?additions⟩
  case count =>
    intro houtcome
    rw [hjoins.length_eq houtcome, List.length_cons, hothers.length_eq]
  case sides =>
    intro k left right hseam
    obtain ⟨hright, hbefore⟩ := hjoins.take hseam
    refine ⟨hright, ?_⟩
    exact translateAt_compound_of_joins hfirst (List.forall₂_take k hothers) hbefore
  case additions =>
    intro other hother hmore
    obtain ⟨hotherFirst, hotherOthers⟩ := List.forall₂_cons.mp hother
    rw [hcompound]
    exact translateAt_compound_of_joins hotherFirst hotherOthers (hjoins.of_extends hmore)

def finalVowel : Pattern :=
  ⟨"a$", .seq (.char (.code 97 false .exact)) (.anchor .lastEnd), 0, []⟩

def initialVowel : Pattern :=
  ⟨"^a", .seq (.anchor .textStart) (.char (.code 97 false .exact)), 0, []⟩

/-- Two vowels that meet become another one. -/
def contracting : Translator :=
  ⟨⟨.empty⟩, ⟨.empty, [⟨finalVowel, initialVowel, "", "e"⟩]⟩, 1, Nat.one_pos⟩

theorem compound_joins_at_seams_contracting :
    ∃ seams outcome, Joins contracting.morphology.boundaries "da" ["a", "a"] seams outcome ∧
      contracting.translateAt [] 0 (.compound [.literal "da", .literal "a", .literal "a"]) =
        outcome.mapError .template ∧
      ((∃ result, outcome = .ok result) → seams.length + 1 = 3) := by
  have helements : List.Forall₂ (fun gloss text =>
      contracting.translateAt [] 1 gloss = .ok text)
      [.literal "da", .literal "a", .literal "a"] ["da", "a", "a"] := by
    simp
  obtain ⟨-, -, seams, outcome, hjoins, hcompound, hcount, -⟩ := compound_joins_at_seams helements
  exact ⟨seams, outcome, hjoins, hcompound, hcount⟩

/-- The second seam finds no vowel before it any more. -/
example : contracting.translateAt [] 0
    (.compound [.literal "da", .literal "a", .literal "a"]) = .ok "dea" := by
  rfl

end Translator

end Interlinear
