import Interlinear.Proofs.Morphology.Leaves
import Interlinear.Proofs.Pattern.Leftmost
import Mathlib.Data.List.Forall2
import Mathlib.Logic.Relation

/-!
# Rows of rules in rows of rules

A rule is its leaves.  The first leaf that meets a text makes the outcome, of which the others know
nothing: a leaf that is skipped leaves the text as it is, and neither its template nor those of the
leaves that come later are looked at.  A replacement of one match puts the expanded template in the
place of the leftmost match.

How the leaves are grouped plays no part.  Giving a run of consecutive rules a row of its own, or
dissolving such a row, keeps the leaves and their order at any place in a rule, and so it keeps the
outcome on every text.
-/

namespace Interlinear.Rule

open Outcome

/-! ## The leaf that decides -/

/-- The leaf meets the text, and those before it do not. -/
structure DecidedBy (rule : Rule) (text : String) (before : List Rule) (leaf : Rule)
    (after : List Rule) : Prop where
  leaves_eq : rule.leaves = before ++ leaf :: after
  skipped : ∀ other ∈ before, other.meets text = false
  meets_text : leaf.meets text = true

theorem exists_decidedBy {rule : Rule} {text : String}
    (h : ∃ leaf ∈ rule.leaves, leaf.meets text = true) :
    ∃ before leaf after, rule.DecidedBy text before leaf after := by
  obtain ⟨leaf, hfind⟩ := Option.isSome_iff_exists.mp (List.find?_isSome.mpr h)
  obtain ⟨hmeets, before, after, hleaves, hskipped⟩ := List.find?_eq_some_iff_append.mp hfind
  exact ⟨before, leaf, after, hleaves, by simpa using hskipped, hmeets⟩

theorem DecidedBy.apply_eq {rule leaf : Rule} {text : String} {before after : List Rule}
    (h : rule.DecidedBy text before leaf after) : rule.apply text = leaf.apply text := by
  have hnone : before.find? (meets text) = none := by
    rw [List.find?_eq_none]
    intro other hother
    simp [h.skipped other hother]
  have hfind : rule.leaves.find? (meets text) = some leaf := by
    rw [h.leaves_eq, List.find?_append, hnone, Option.none_or]
    exact List.find?_cons_of_pos h.meets_text
  rw [apply_eq_applyLeaf, applyLeaf, hfind]

/-- Two leaves that differ in their templates at most. -/
inductive SameButTemplate : Rule → Rule → Prop
  | replace {pattern : Pattern} {template other : String} {count : Int} :
      SameButTemplate (.replace pattern template count) (.replace pattern other count)
  | capitalize : SameButTemplate .capitalize .capitalize

theorem SameButTemplate.meets_eq {leaf other : Rule} (h : leaf.SameButTemplate other)
    (text : String) : other.meets text = leaf.meets text := by
  cases h <;> rfl

/-- The templates of the leaves that are skipped may be others, and anything may come later. -/
theorem DecidedBy.of_sameButTemplate {rule other leaf : Rule} {text : String}
    {before after otherBefore otherAfter : List Rule}
    (h : rule.DecidedBy text before leaf after)
    (hleaves : other.leaves = otherBefore ++ leaf :: otherAfter)
    (hbefore : List.Forall₂ SameButTemplate before otherBefore) :
    other.DecidedBy text otherBefore leaf otherAfter := by
  refine ⟨hleaves, ?_, h.meets_text⟩
  have hskipped := h.skipped
  clear h hleaves
  induction hbefore with
  | nil => simp
  | @cons first otherFirst rest otherRest hfirst _ ih =>
      obtain ⟨hskips, hrest⟩ := List.forall_mem_cons.mp hskipped
      exact List.forall_mem_cons.mpr ⟨(hfirst.meets_eq text).trans hskips, ih hrest⟩

/-- What a leaf makes of a text that it meets: a changed text, or the fault of its template. -/
inductive Makes (text : String) : Rule → Except Pattern.TemplateError String → Prop
  | capitalized : Makes text .capitalize (.ok (capitalized text))
  | unreadable {pattern : Pattern} {template : String} {count : Int}
      {error : Pattern.TemplateError}
      (htemplate : Pattern.Template.parse pattern template = .error error) :
      Makes text (.replace pattern template count) (.error error)
  | leftmost {pattern : Pattern} {template : String} {parts : List Pattern.TemplatePart}
      {m : Pattern.Match} (htemplate : Pattern.Template.parse pattern template = .ok parts)
      (hmatch : pattern.IsLeftmost text.toList.toArray m) :
      Makes text (.replace pattern template 1) (.ok (Pattern.rewritten text m parts))
  | several {pattern : Pattern} {template : String} {count : Int} {changed : String}
      (hcount : count ≠ 1) (hchanged : pattern.replace template count text = .ok changed) :
      Makes text (.replace pattern template count) (.ok changed)

theorem exists_makes {leaf : Rule} {text : String} (h : leaf.meets text = true) :
    ∃ outcome, leaf.Makes text outcome ∧
      leaf.apply text = outcome.map fun changed => (changed, .applied) := by
  cases leaf with
  | first rules => simp [meets] at h
  | capitalize => exact ⟨_, .capitalized, by rw [apply]; rfl⟩
  | replace pattern template count =>
      refine ⟨_, ?_, apply_replace h template count⟩
      cases htemplate : Pattern.Template.parse pattern template with
      | error error =>
          rw [(pattern.replace_eq_error_iff template count text error).mpr htemplate]
          exact .unreadable htemplate
      | ok parts =>
          by_cases hcount : count = 1
          · obtain ⟨m, hmatch⟩ := Pattern.isFound_iff.mp h
            rw [hcount, hmatch.replace_one, htemplate]
            exact .leftmost htemplate hmatch
          · obtain ⟨changed, hchanged⟩ :=
              Pattern.exists_replace_eq_ok ⟨parts, htemplate⟩ count text
            rw [hchanged]
            exact .several hcount hchanged

theorem apply_of_no_leaf {rule : Rule} {text : String}
    (h : ∀ leaf ∈ rule.leaves, leaf.meets text = false) :
    rule.apply text = .ok (text, .doesNotMatch) := by
  have hnone : rule.leaves.find? (meets text) = none := by
    rw [List.find?_eq_none]
    intro leaf hleaf
    simp [h leaf hleaf]
  rw [apply_eq_applyLeaf, applyLeaf, hnone]

/-! ## Grouping -/

/-- A run of consecutive rules is given a row of its own, at any place in a rule. -/
inductive Wraps : Rule → Rule → Prop
  | whole {rule : Rule} : Wraps rule (.first [rule])
  | run {before rules after : List Rule} :
      Wraps (.first (before ++ rules ++ after)) (.first (before ++ .first rules :: after))
  | inRow {rule wrapped : Rule} {before after : List Rule} (hrule : Wraps rule wrapped) :
      Wraps (.first (before ++ rule :: after)) (.first (before ++ wrapped :: after))

/-- Any number of runs are given rows of their own, and any number of such rows are dissolved. -/
def Regroups : Rule → Rule → Prop :=
  Relation.EqvGen Wraps

theorem leavesOfAll_append (rules others : List Rule) :
    leavesOfAll (rules ++ others) = leavesOfAll rules ++ leavesOfAll others := by
  induction rules with
  | nil => rfl
  | cons rule rules ih => rw [List.cons_append, leavesOfAll, leavesOfAll, ih, List.append_assoc]

theorem Wraps.leaves_eq {rule wrapped : Rule} (h : rule.Wraps wrapped) :
    wrapped.leaves = rule.leaves := by
  induction h with
  | whole => rw [leaves, leavesOfAll, leavesOfAll, List.append_nil]
  | run =>
      simp only [leaves, leavesOfAll_append, leavesOfAll, List.append_assoc]
  | inRow _ ih =>
      simp only [leaves, leavesOfAll_append, leavesOfAll, ih]

theorem Regroups.leaves_eq {rule other : Rule} (h : rule.Regroups other) :
    other.leaves = rule.leaves := by
  induction h with
  | rel _ _ hwraps => exact hwraps.leaves_eq
  | refl => rfl
  | symm _ _ _ ih => exact ih.symm
  | trans _ _ _ _ _ ih ihOther => exact ihOther.trans ih

theorem Regroups.apply_eq {rule other : Rule} (h : rule.Regroups other) (text : String) :
    other.apply text = rule.apply text := by
  rw [apply_eq_applyLeaf, apply_eq_applyLeaf, h.leaves_eq]

/-- A rule leaves a text that no leaf meets as it is.  Otherwise the first leaf that meets the text
makes the outcome, whatever the templates of the leaves before it and whatever comes after it; and
grouping the rules otherwise changes no outcome. -/
theorem apply_decided_by_leaf (rule : Rule) (text : String) :
    ((∀ leaf ∈ rule.leaves, leaf.meets text = false) →
      rule.apply text = .ok (text, .doesNotMatch)) ∧
    ((∃ leaf ∈ rule.leaves, leaf.meets text = true) →
      ∃ before leaf after outcome, rule.DecidedBy text before leaf after ∧
        leaf.Makes text outcome ∧
        leaf.apply text = outcome.map (fun changed => (changed, .applied)) ∧
        rule.apply text = leaf.apply text ∧
        ∀ (other : Rule) (otherBefore otherAfter : List Rule),
          other.leaves = otherBefore ++ leaf :: otherAfter →
          List.Forall₂ SameButTemplate before otherBefore →
          other.apply text = leaf.apply text) ∧
    ∀ other : Rule, rule.Regroups other → other.apply text = rule.apply text := by
  refine ⟨apply_of_no_leaf, ?met, fun other h => h.apply_eq text⟩
  case met =>
    intro hmet
    obtain ⟨before, leaf, after, hdecided⟩ := exists_decidedBy hmet
    obtain ⟨outcome, hmakes, hleaf⟩ := exists_makes hdecided.meets_text
    refine ⟨before, leaf, after, outcome, hdecided, hmakes, hleaf, hdecided.apply_eq, ?_⟩
    intro other otherBefore otherAfter hleaves hbefore
    exact (hdecided.of_sameButTemplate hleaves hbefore).apply_eq

/-- A template that cannot be read is no fault where its pattern is not found. -/
example :
    let absent : Pattern := ⟨"q", .char (.code 113 false .exact), 0, []⟩
    (first [first [], first [replace absent "\\1" 1, capitalize]]).apply "arth" =
      .ok ("Arth", .applied) := by
  rfl

end Interlinear.Rule
