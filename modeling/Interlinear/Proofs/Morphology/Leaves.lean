import Interlinear.Morphology.Rule
import Interlinear.Proofs.Outcome

/-!
# The rule that decides

Rows of rules may stand in rows of rules.  What does the work are the leaves, the replacements and
capitalizations in the order in which they are tried.  The first leaf that meets a text decides
alone: its outcome is the outcome of the whole rule, and a text that no leaf meets is left as it is.

A replacement that meets a text fails only because its template cannot be read for its pattern.  So
the template of the leaf that decides is the only source of failure, and for boundaries the two
templates of the first boundary that applies.
-/

namespace Interlinear

open Outcome

/-- The template can be read for the groups of the pattern. -/
def Pattern.Reads (pattern : Pattern) (template : String) : Prop :=
  ∃ parts, Pattern.Template.parse pattern template = .ok parts

theorem Pattern.reads_iff {pattern : Pattern} {template : String} :
    pattern.Reads template ↔
      ∀ error, Pattern.Template.parse pattern template ≠ .error error := by
  rw [Pattern.Reads]
  cases Pattern.Template.parse pattern template <;> simp

theorem Pattern.replace_eq_error_iff (pattern : Pattern) (template : String) (count : Int)
    (text : String) (error : Pattern.TemplateError) :
    pattern.replace template count text = .error error ↔
      Pattern.Template.parse pattern template = .error error := by
  rw [Pattern.replace]
  cases Pattern.Template.parse pattern template with
  | error other => rw [error_bind, Except.error.injEq, Except.error.injEq]
  | ok parts => simp

theorem Pattern.exists_replace_eq_ok {pattern : Pattern} {template : String}
    (h : pattern.Reads template) (count : Int) (text : String) :
    ∃ changed, pattern.replace template count text = .ok changed := by
  obtain ⟨parts, hparts⟩ := h
  rw [Pattern.replace, hparts]
  exact ⟨_, rfl⟩

theorem Pattern.reads_of_no_backslash (pattern : Pattern) {template : String}
    (h : template.toList.contains '\\' = false) : pattern.Reads template :=
  ⟨[.text template.toList], by rw [Template.parse, h]; rfl⟩

namespace Rule

mutual
/-- The rules that rows are made of, in the order in which they are tried. -/
def leaves : Rule → List Rule
  | replace pattern template count => [replace pattern template count]
  | capitalize => [capitalize]
  | first rules => leavesOfAll rules
def leavesOfAll : List Rule → List Rule
  | [] => []
  | rule :: rules => rule.leaves ++ leavesOfAll rules
end

def meets (text : String) : Rule → Bool
  | replace pattern _ _ => pattern.isFound text
  | capitalize => true
  | first _ => false

/-- The template of a leaf has no backslash. -/
def isPlain : Rule → Bool
  | replace _ template _ => !template.toList.contains '\\'
  | _ => true

theorem mem_leavesOfAll {leaf rule : Rule} {rules : List Rule} (hrule : rule ∈ rules)
    (hleaf : leaf ∈ rule.leaves) : leaf ∈ leavesOfAll rules := by
  induction rules with
  | nil => simp at hrule
  | cons other rules ih =>
      rw [leavesOfAll, List.mem_append]
      rcases List.mem_cons.mp hrule with rfl | hrule
      · exact .inl hleaf
      · exact .inr (ih hrule)

def applyLeaf (text : String) (leaves : List Rule) :
    Except Pattern.TemplateError (String × Status) :=
  match leaves.find? (meets text) with
  | some leaf => leaf.apply text
  | none => .ok (text, .doesNotMatch)

theorem apply_replace {pattern : Pattern} {text : String} (h : pattern.isFound text = true)
    (template : String) (count : Int) :
    (replace pattern template count).apply text =
      (pattern.replace template count text).map fun changed => (changed, .applied) := by
  rw [apply, if_pos h]
  cases pattern.replace template count text <;> rfl

/-- A leaf that meets a text changes it or fails. -/
theorem apply_of_meets {leaf : Rule} {text : String} (h : leaf.meets text = true) :
    (∃ error, leaf.apply text = .error error) ∨
      ∃ changed, leaf.apply text = .ok (changed, .applied) := by
  cases leaf with
  | capitalize => exact .inr ⟨_, by rw [apply]⟩
  | first rules => simp [meets] at h
  | replace pattern template count =>
      rw [apply_replace h]
      cases pattern.replace template count text with
      | error error => exact .inl ⟨error, rfl⟩
      | ok changed => exact .inr ⟨changed, rfl⟩

mutual
theorem apply_eq_applyLeaf (text : String) :
    (rule : Rule) → rule.apply text = applyLeaf text rule.leaves
  | replace pattern template count => by
      cases hfound : pattern.isFound text <;>
        simp [applyLeaf, leaves, List.find?, meets, apply, hfound]
  | capitalize => by simp [applyLeaf, leaves, meets]
  | first rules => by rw [apply, leaves, applyFirst_eq_applyLeaf text rules]
theorem applyFirst_eq_applyLeaf (text : String) :
    (rules : List Rule) → applyFirst rules text = applyLeaf text (leavesOfAll rules)
  | [] => by rw [applyFirst, leavesOfAll, applyLeaf, List.find?_nil]
  | rule :: rules => by
      rw [applyFirst, leavesOfAll, apply_eq_applyLeaf text rule, applyLeaf, applyLeaf,
        List.find?_append]
      cases hfind : rule.leaves.find? (meets text) with
      | none =>
          rw [Option.none_or]
          exact applyFirst_eq_applyLeaf text rules
      | some leaf =>
          rw [Option.some_or]
          rcases apply_of_meets (List.find?_some hfind) with ⟨error, herror⟩ | ⟨changed, hchanged⟩
          · simp [herror]
          · simp [hchanged]
end

theorem apply_eq_error_iff (rule : Rule) (text : String) (error : Pattern.TemplateError) :
    rule.apply text = .error error ↔
      ∃ pattern template count,
        rule.leaves.find? (meets text) = some (.replace pattern template count) ∧
          Pattern.Template.parse pattern template = .error error := by
  rw [apply_eq_applyLeaf, applyLeaf]
  cases hfind : rule.leaves.find? (meets text) with
  | none => simp
  | some leaf =>
      have hmeets := List.find?_some hfind
      cases leaf with
      | capitalize => simp [apply]
      | first rules => simp [meets] at hmeets
      | replace pattern template count =>
          simp only [Option.some.injEq, replace.injEq, apply_replace hmeets]
          constructor
          · intro h
            refine ⟨pattern, template, count, ⟨rfl, rfl, rfl⟩, ?_⟩
            cases hchanged : pattern.replace template count text with
            | ok changed => simp [hchanged, Except.map] at h
            | error other =>
                rw [hchanged] at h
                obtain rfl := Except.error.inj h
                exact (pattern.replace_eq_error_iff template count text other).mp hchanged
          · rintro ⟨_, _, _, ⟨rfl, rfl, rfl⟩, hparse⟩
            rw [(pattern.replace_eq_error_iff template count text error).mpr hparse]
            rfl

theorem leavesOfAll_eq_self {rules : List Rule}
    (h : ∀ rule ∈ rules, ∃ pattern template count, rule = replace pattern template count) :
    leavesOfAll rules = rules := by
  induction rules with
  | nil => rw [leavesOfAll]
  | cons rule rules ih =>
      obtain ⟨pattern, template, count, rfl⟩ := h rule (by simp)
      have hothers := ih fun other hother => h other (List.mem_cons_of_mem _ hother)
      rw [leavesOfAll, leaves, hothers, List.singleton_append]

end Rule

namespace Boundary

theorem joinFirst_eq_error_iff (boundaries : List Boundary) (left right : String)
    (error : Pattern.TemplateError) :
    joinFirst boundaries left right = .error error ↔
      ∃ boundary,
        boundaries.find? (fun boundary => boundary.applies left right) = some boundary ∧
          (Pattern.Template.parse boundary.leftPattern boundary.leftTemplate = .error error ∨
            boundary.leftPattern.Reads boundary.leftTemplate ∧
              Pattern.Template.parse boundary.rightPattern boundary.rightTemplate =
                .error error) := by
  rw [joinFirst]
  cases boundaries.find? fun boundary => boundary.applies left right with
  | none => simp
  | some boundary =>
      simp only [Option.some.injEq, exists_eq_left', join]
      cases hleft : Pattern.Template.parse boundary.leftPattern boundary.leftTemplate with
      | error other =>
          rw [(Pattern.replace_eq_error_iff _ _ 1 left other).mpr hleft]
          simp [Pattern.Reads, hleft]
      | ok parts =>
          have hreads : boundary.leftPattern.Reads boundary.leftTemplate := ⟨parts, hleft⟩
          obtain ⟨changed, hchanged⟩ := Pattern.exists_replace_eq_ok hreads 1 left
          rw [hchanged, ok_bind]
          simp only [hreads, true_and, reduceCtorEq, false_or]
          rw [← Pattern.replace_eq_error_iff _ _ 1 right]
          cases boundary.rightPattern.replace boundary.rightTemplate 1 right <;> simp

end Boundary

end Interlinear
