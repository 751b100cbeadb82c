import Interlinear.Morphology.Config
import Interlinear.Proofs.Dictionary
import Interlinear.Proofs.Morphology.Leaves

/-!
# The rules of a configuration

What a configuration binds to a name is a row of replacements, and the built-in capitalization is
the only rule of another kind.  Its templates are taken as they are written.  So the templates that
come to be read are those of the first replacement of a row that meets a text, and those of the
first boundary that applies to two texts.
-/

namespace Interlinear

open Outcome

inductive Rule.IsConfigured : Rule → Prop
  | capitalize : IsConfigured .capitalize
  | row {rules : List Rule}
      (hrules : ∀ rule ∈ rules, ∃ pattern template count, rule = .replace pattern template count) :
      IsConfigured (.first rules)

namespace Morphology

theorem get?_capital (name : String) :
    (Dictionary.ofList [(capitalName, Rule.capitalize)]).get? name =
      if name = capitalName then some .capitalize else none := by
  change [(capitalName, Rule.capitalize)].lookup name = _
  rw [List.lookup_cons, List.lookup_nil]
  by_cases h : name = capitalName
  · simp [h]
  · simp [h, beq_eq_false_iff_ne.mpr h]

section Reading

variable [Unicode.Names]

theorem compileReplacements_eq_ok {texts : List ReplacementText} {rules : List Rule}
    (h : compileReplacements texts = .ok rules) :
    ∀ rule ∈ rules, ∃ pattern template count, rule = .replace pattern template count := by
  induction texts generalizing rules with
  | nil =>
      rw [compileReplacements] at h
      obtain rfl := Except.ok.inj h
      simp
  | cons text texts ih =>
      rw [compileReplacements, bind_eq_ok_iff] at h
      obtain ⟨pattern, _, h⟩ := h
      obtain ⟨others, hothers, h⟩ := bind_eq_ok_iff.mp h
      obtain rfl := Except.ok.inj h
      intro rule hrule
      rcases List.mem_cons.mp hrule with rfl | hrule
      · exact ⟨pattern, text.template, 1, rfl⟩
      · exact ih hothers rule hrule

theorem compileInflections_eq_ok {texts : List (String × List ReplacementText)}
    {inflections : List (String × Rule)} (h : compileInflections texts = .ok inflections) :
    ∀ inflection ∈ inflections, inflection.2.IsConfigured := by
  induction texts generalizing inflections with
  | nil =>
      rw [compileInflections] at h
      obtain rfl := Except.ok.inj h
      simp
  | cons text texts ih =>
      obtain ⟨name, replacements⟩ := text
      rw [compileInflections, bind_eq_ok_iff] at h
      obtain ⟨rules, hrules, h⟩ := h
      obtain ⟨others, hothers, h⟩ := bind_eq_ok_iff.mp h
      obtain rfl := Except.ok.inj h
      intro inflection hinflection
      rcases List.mem_cons.mp hinflection with rfl | hinflection
      · exact .row (compileReplacements_eq_ok hrules)
      · exact ih hothers inflection hinflection

theorem isConfigured_of_build {texts : RuleTexts} {morphology : Morphology}
    (hbuild : build texts = .ok morphology) {name : String} {rule : Rule}
    (hrule : morphology.inflector? name = some rule) : rule.IsConfigured := by
  rw [build, bind_eq_ok_iff] at hbuild
  obtain ⟨inflections, hinflections, hbuild⟩ := hbuild
  obtain ⟨boundaries, _, hbuild⟩ := bind_eq_ok_iff.mp hbuild
  obtain rfl := Except.ok.inj hbuild
  rw [inflector?, withCapital, Dictionary.get?_insertAll, Option.or_eq_some_iff] at hrule
  rcases hrule with hrule | ⟨-, hrule⟩
  · have hmem : (name, rule) ∈ inflections := List.mem_reverse.mp (mem_of_lookup hrule)
    exact compileInflections_eq_ok hinflections _ hmem
  · rw [get?_capital] at hrule
    split at hrule
    · obtain rfl := Option.some.inj hrule
      exact .capitalize
    · cases hrule

theorem isConfigured_of_parse {raw : String} {morphology : Morphology}
    (hparse : parse raw = .ok morphology) {name : String} {rule : Rule}
    (hrule : morphology.inflector? name = some rule) : rule.IsConfigured := by
  rw [parse, bind_eq_ok_iff] at hparse
  obtain ⟨value, _, hparse⟩ := hparse
  obtain ⟨texts, _, hparse⟩ := bind_eq_ok_iff.mp hparse
  cases hbuild : build texts with
  | error error => simp [hbuild] at hparse
  | ok built =>
      rw [hbuild, mapError_ok] at hparse
      obtain rfl := Except.ok.inj hparse
      exact isConfigured_of_build hbuild hrule

end Reading

/-- An error that an inflection or the joining of two texts ends in, whatever the texts. -/
inductive Raises (morphology : Morphology) (error : Pattern.TemplateError) : Prop
  | inflector {name text : String} {rule : Rule} (hrule : morphology.inflector? name = some rule)
      (happly : rule.apply text = .error error) : Raises morphology error
  | joining {left right : String}
      (hjoin : Boundary.joinFirst morphology.boundaries left right = .error error) :
      Raises morphology error

/-- Every template that comes to be used can be read for its pattern: that of the first replacement
of a row that meets a text, and those of the first boundary that applies to two texts. -/
structure TemplatesRead (morphology : Morphology) : Prop where
  replacements : ∀ {name : String} {rules : List Rule} {text : String} {pattern : Pattern}
    {template : String} {count : Int}, morphology.inflector? name = some (.first rules) →
      rules.find? (Rule.meets text) = some (.replace pattern template count) →
        pattern.Reads template
  boundaries : ∀ {left right : String} {boundary : Boundary},
    morphology.boundaries.find? (fun boundary => boundary.applies left right) = some boundary →
      boundary.leftPattern.Reads boundary.leftTemplate ∧
        boundary.rightPattern.Reads boundary.rightTemplate

variable {morphology : Morphology}

theorem TemplatesRead.not_raises (h : morphology.TemplatesRead)
    (hconfigured : ∀ {name rule}, morphology.inflector? name = some rule → rule.IsConfigured)
    (error : Pattern.TemplateError) : ¬ morphology.Raises error := by
  rintro (⟨hrule, happly⟩ | ⟨hjoin⟩)
  · obtain ⟨pattern, template, count, hfind, hparse⟩ :=
      (Rule.apply_eq_error_iff _ _ error).mp happly
    cases hconfigured hrule with
    | capitalize => simp [Rule.leaves, Rule.meets] at hfind
    | row hrules =>
        rw [Rule.leaves, Rule.leavesOfAll_eq_self hrules] at hfind
        exact (Pattern.reads_iff.mp (h.replacements hrule hfind)) error hparse
  · obtain ⟨boundary, hfind, hparse⟩ := (Boundary.joinFirst_eq_error_iff _ _ _ error).mp hjoin
    obtain ⟨hleft, hright⟩ := h.boundaries hfind
    rcases hparse with hparse | ⟨-, hparse⟩
    · exact (Pattern.reads_iff.mp hleft) error hparse
    · exact (Pattern.reads_iff.mp hright) error hparse

theorem templatesRead_of_not_raises
    (hconfigured : ∀ {name rule}, morphology.inflector? name = some rule → rule.IsConfigured)
    (h : ∀ error, ¬ morphology.Raises error) : morphology.TemplatesRead where
  replacements := by
    intro name rules text pattern template count hrule hfind
    rw [Pattern.reads_iff]
    intro error hparse
    refine h error (.inflector hrule ((Rule.apply_eq_error_iff _ text error).mpr ?_))
    cases hconfigured hrule with
    | row hrules =>
        rw [Rule.leaves, Rule.leavesOfAll_eq_self hrules]
        exact ⟨pattern, template, count, hfind, hparse⟩
  boundaries := by
    intro left right boundary hfind
    have hjoin : ∀ error, Boundary.joinFirst morphology.boundaries left right ≠ .error error :=
      fun error hjoin => h error (.joining hjoin)
    have hleft : boundary.leftPattern.Reads boundary.leftTemplate := by
      rw [Pattern.reads_iff]
      intro error hparse
      exact hjoin error
        ((Boundary.joinFirst_eq_error_iff _ _ _ error).mpr ⟨boundary, hfind, .inl hparse⟩)
    have hright : boundary.rightPattern.Reads boundary.rightTemplate := by
      rw [Pattern.reads_iff]
      intro error hparse
      exact hjoin error
        ((Boundary.joinFirst_eq_error_iff _ _ _ error).mpr ⟨boundary, hfind, .inr ⟨hleft, hparse⟩⟩)
    exact ⟨hleft, hright⟩

def isPlain (morphology : Morphology) : Bool :=
  (morphology.inflections.entries.all fun entry => entry.2.leaves.all Rule.isPlain) &&
    morphology.boundaries.all fun boundary =>
      !boundary.leftTemplate.toList.contains '\\' && !boundary.rightTemplate.toList.contains '\\'

theorem templatesRead_of_isPlain (h : morphology.isPlain = true) : morphology.TemplatesRead := by
  simp only [isPlain, Bool.and_eq_true, List.all_eq_true, Bool.not_eq_true'] at h
  obtain ⟨hinflections, hboundaries⟩ := h
  constructor
  · intro name rules text pattern template count hrule hfind
    have hentry : (name, Rule.first rules) ∈ morphology.inflections.entries := mem_of_lookup hrule
    have hleaf : Rule.replace pattern template count ∈ (Rule.first rules).leaves :=
      Rule.mem_leavesOfAll (List.mem_of_find?_eq_some hfind) (List.mem_singleton.mpr rfl)
    have hplain := hinflections _ hentry _ hleaf
    exact pattern.reads_of_no_backslash (by simpa [Rule.isPlain] using hplain)
  · intro left right boundary hfind
    obtain ⟨hleft, hright⟩ := hboundaries boundary (List.mem_of_find?_eq_some hfind)
    exact ⟨Pattern.reads_of_no_backslash _ hleft, Pattern.reads_of_no_backslash _ hright⟩

end Morphology

end Interlinear
