import Interlinear.Proofs.Dictionary
import Interlinear.Proofs.Morphology.Configured
import Interlinear.Proofs.Morphology.Offences

/-!
# What reading a configuration can end in

A configuration is accepted, or reported as what it is, no document or one with an offence; or the
reading breaks off with an error that is not about configurations.  The three are told apart by the
loaded value alone.  The rules that pass the check have been compiled once, so building the
morphology adds no error of its own.

A value whose parts all have a text breaks nothing off, as long as the patterns that do not compile
have a fault with a place.
-/

namespace Interlinear.Morphology

open Outcome

/-! ## What passes the check compiles -/

namespace Config

section Rows

variable {α : Type} {check : String → Yaml.Value → Except Error α} {P : α → Prop}

theorem checkItems_all (hcheck : ∀ {path value rule}, check path value = .ok rule → P rule)
    {path : String} {i : Nat} {values : List Yaml.Value} {rules : List α}
    (h : checkItems check path i values = .ok rules) : ∀ rule ∈ rules, P rule := by
  induction values generalizing i rules with
  | nil =>
      obtain rfl := Except.ok.inj h
      simp
  | cons value values ih =>
      rw [checkItems, bind_eq_ok_iff] at h
      obtain ⟨rule, hrule, h⟩ := h
      obtain ⟨others, hothers, h⟩ := bind_eq_ok_iff.mp h
      obtain rfl := Except.ok.inj h
      exact List.forall_mem_cons.mpr ⟨hcheck hrule, ih hothers⟩

theorem checkRules_all (hcheck : ∀ {path value rule}, check path value = .ok rule → P rule)
    {path : String} {value : Yaml.Value} {rules : List α}
    (h : checkRules check path value = .ok rules) : ∀ rule ∈ rules, P rule := by
  rw [checkRules] at h
  split at h
  · exact checkItems_all hcheck h
  · cases h

end Rows

end Config

section Compiling

variable [Unicode.Names]

def Compiles (source : String) : Prop :=
  ∃ pattern, Pattern.compile source = .ok pattern

namespace Config

theorem compiles_of_checkPattern {path source : String} (h : checkPattern path source = .ok ()) :
    Compiles source := by
  rw [checkPattern] at h
  cases hcompile : Pattern.compile source with
  | ok pattern => exact ⟨pattern, hcompile⟩
  | error error => cases error <;> simp [hcompile] at h

theorem compiles_of_checkReplacement {path : String} {value : Yaml.Value}
    {text : ReplacementText} (h : checkReplacement path value = .ok text) :
    Compiles text.pattern := by
  rw [checkReplacement, bind_eq_ok_iff] at h
  obtain ⟨texts, -, h⟩ := h
  split at h
  · obtain ⟨_, hpattern, h⟩ := bind_eq_ok_iff.mp h
    obtain rfl := Except.ok.inj h
    exact compiles_of_checkPattern hpattern
  · cases h

theorem compiles_of_checkBoundary {path : String} {value : Yaml.Value} {text : BoundaryText}
    (h : checkBoundary path value = .ok text) :
    Compiles text.leftPattern ∧ Compiles text.rightPattern := by
  rw [checkBoundary, bind_eq_ok_iff] at h
  obtain ⟨texts, -, h⟩ := h
  split at h
  · obtain ⟨_, hleft, h⟩ := bind_eq_ok_iff.mp h
    obtain ⟨_, hright, h⟩ := bind_eq_ok_iff.mp h
    obtain rfl := Except.ok.inj h
    exact ⟨compiles_of_checkPattern hleft, compiles_of_checkPattern hright⟩
  · cases h

theorem compiles_of_checkInflections {entries : List (Yaml.Value × Yaml.Value)}
    {inflections : List (String × List ReplacementText)}
    (h : checkInflections entries = .ok inflections) :
    ∀ inflection ∈ inflections, ∀ text ∈ inflection.2, Compiles text.pattern := by
  induction entries generalizing inflections with
  | nil =>
      obtain rfl := Except.ok.inj h
      simp
  | cons entry entries ih =>
      obtain ⟨key, value⟩ := entry
      rw [checkInflections, bind_eq_ok_iff] at h
      obtain ⟨name, -, h⟩ := h
      obtain ⟨rules, hrules, h⟩ := bind_eq_ok_iff.mp h
      obtain ⟨others, hothers, h⟩ := bind_eq_ok_iff.mp h
      obtain rfl := Except.ok.inj h
      have hcompiles : ∀ text ∈ rules, Compiles text.pattern :=
        checkRules_all compiles_of_checkReplacement hrules
      exact List.forall_mem_cons.mpr ⟨hcompiles, ih hothers⟩

theorem compiles_of_checkCompound {value : Yaml.Value} {boundaries : List BoundaryText}
    (h : checkCompound value = .ok boundaries) :
    ∀ text ∈ boundaries, Compiles text.leftPattern ∧ Compiles text.rightPattern := by
  rw [checkCompound] at h
  split at h
  · obtain rfl := Except.ok.inj h
    simp
  · exact checkRules_all compiles_of_checkBoundary h

end Config

theorem exists_compileReplacements {texts : List ReplacementText}
    (h : ∀ text ∈ texts, Compiles text.pattern) :
    ∃ rules, compileReplacements texts = .ok rules := by
  induction texts with
  | nil => exact ⟨[], rfl⟩
  | cons text texts ih =>
      obtain ⟨⟨pattern, hpattern⟩, hothers⟩ := List.forall_mem_cons.mp h
      obtain ⟨rules, hrules⟩ := ih hothers
      exact ⟨_, by rw [compileReplacements, hpattern, ok_bind, hrules, ok_bind]⟩

theorem exists_compileInflections {inflections : List (String × List ReplacementText)}
    (h : ∀ inflection ∈ inflections, ∀ text ∈ inflection.2, Compiles text.pattern) :
    ∃ rules, compileInflections inflections = .ok rules := by
  induction inflections with
  | nil => exact ⟨[], rfl⟩
  | cons inflection inflections ih =>
      obtain ⟨hinflection, hothers⟩ := List.forall_mem_cons.mp h
      obtain ⟨rules, hrules⟩ := exists_compileReplacements hinflection
      obtain ⟨others, hothers⟩ := ih hothers
      exact ⟨_, by rw [compileInflections, hrules, ok_bind, hothers, ok_bind]⟩

theorem exists_compileBoundaries {texts : List BoundaryText}
    (h : ∀ text ∈ texts, Compiles text.leftPattern ∧ Compiles text.rightPattern) :
    ∃ boundaries, compileBoundaries texts = .ok boundaries := by
  induction texts with
  | nil => exact ⟨[], rfl⟩
  | cons text texts ih =>
      obtain ⟨⟨⟨left, hleft⟩, ⟨right, hright⟩⟩, hothers⟩ := List.forall_mem_cons.mp h
      obtain ⟨boundaries, hboundaries⟩ := ih hothers
      exact ⟨_, by
        rw [compileBoundaries, hleft, ok_bind, hright, ok_bind, hboundaries, ok_bind]⟩

theorem exists_build {texts : RuleTexts}
    (hinflections : ∀ inflection ∈ texts.inflections.entries,
      ∀ text ∈ inflection.2, Compiles text.pattern)
    (hboundaries : ∀ text ∈ texts.boundaries,
      Compiles text.leftPattern ∧ Compiles text.rightPattern) :
    ∃ morphology, build texts = .ok morphology := by
  obtain ⟨rules, hrules⟩ := exists_compileInflections hinflections
  obtain ⟨boundaries, hcompiled⟩ := exists_compileBoundaries hboundaries
  exact ⟨withCapital ⟨rules⟩ boundaries, by rw [build, hrules, ok_bind, hcompiled, ok_bind]⟩

theorem exists_build_of_check {value : Yaml.Value} {texts : RuleTexts}
    (h : Config.check value = .ok texts) : ∃ morphology, build texts = .ok morphology := by
  rw [Config.check, bind_eq_ok_iff] at h
  obtain ⟨entries, -, h⟩ := h
  obtain ⟨inflectionEntries, -, h⟩ := bind_eq_ok_iff.mp h
  obtain ⟨inflections, hinflections, h⟩ := bind_eq_ok_iff.mp h
  obtain ⟨boundaries, hboundaries, h⟩ := bind_eq_ok_iff.mp h
  have htexts := Except.ok.inj h
  refine exists_build ?_ ?_
  · rw [← htexts]
    exact Dictionary.all_ofList (P := fun texts : List ReplacementText =>
      ∀ text ∈ texts, Compiles text.pattern) (Config.compiles_of_checkInflections hinflections)
  · rw [← htexts]
    exact Config.compiles_of_checkCompound hboundaries

end Compiling

/-! ## Values with a text -/

namespace Config

open Yaml.Value

/-- Only a pattern among the offences may break the reading off. -/
def OnlyPatternsBreakOff (offences : List Offence) : Prop :=
  ∀ offence ∈ offences, offence.BreaksOff →
    ∃ path source error, offence = .pattern path source error

theorem OnlyPatternsBreakOff.nil : OnlyPatternsBreakOff [] := by
  simp [OnlyPatternsBreakOff]

theorem OnlyPatternsBreakOff.append {before after : List Offence}
    (hbefore : OnlyPatternsBreakOff before) (hafter : OnlyPatternsBreakOff after) :
    OnlyPatternsBreakOff (before ++ after) := by
  intro offence hmem
  rcases List.mem_append.mp hmem with hmem | hmem
  · exact hbefore offence hmem
  · exact hafter offence hmem

theorem OnlyPatternsBreakOff.shape {found : Yaml.Value} (h : found.HasText)
    (place path : String) (wanted : Shape) :
    OnlyPatternsBreakOff [.shape place wanted found path] := by
  rintro offence hmem hbreaks
  obtain rfl := List.mem_singleton.mp hmem
  obtain ⟨shown, hshown⟩ := exists_display h
  obtain ⟨fault, hfault⟩ := hbreaks
  rw [hshown] at hfault
  cases hfault

theorem hasText_member {entries : List (Yaml.Value × Yaml.Value)} (h : EntriesHaveText entries)
    (name : String) : (member name entries).HasText := by
  rw [member, lookup?]
  cases hfind : entries.find? fun entry => entry.1.isSameKey (.text name) with
  | none => simp [HasText]
  | some entry => exact (HasText.of_mem_entries h (List.mem_of_find?_eq_some hfind)).2

theorem onlyPatterns_text {values : List Yaml.Value} (h : AllHaveText values) (path : String)
    (i : Nat) : OnlyPatternsBreakOff (textOffences path i values) := by
  induction values generalizing i with
  | nil => exact .nil
  | cons value values ih =>
      rw [AllHaveText] at h
      rw [textOffences]
      refine .append ?_ (ih h.2 (i + 1))
      split
      · exact .nil
      · exact .shape h.1 _ _ _

theorem onlyPatterns_rule {value : Yaml.Value} (h : value.HasText) (path : String)
    (parts : Nat) (wanted : Shape) :
    OnlyPatternsBreakOff (ruleOffences path parts wanted value) := by
  rw [ruleOffences, h.untied]
  split
  · rw [HasText] at h
    split
    · exact onlyPatterns_text h path 0
    · exact .shape (by rwa [HasText]) _ _ _
  · exact .shape h _ _ _

section Rows

variable {offencesOf : String → Yaml.Value → List Offence}

theorem onlyPatterns_items
    (hof : ∀ {value}, HasText value → ∀ path, OnlyPatternsBreakOff (offencesOf path value))
    {values : List Yaml.Value} (h : AllHaveText values) (path : String) (i : Nat) :
    OnlyPatternsBreakOff (itemOffences offencesOf path i values) := by
  induction values generalizing i with
  | nil => exact .nil
  | cons value values ih =>
      rw [AllHaveText] at h
      exact .append (hof h.1 _) (ih h.2 (i + 1))

theorem onlyPatterns_rules
    (hof : ∀ {value}, HasText value → ∀ path, OnlyPatternsBreakOff (offencesOf path value))
    {value : Yaml.Value} (h : value.HasText) (path : String) :
    OnlyPatternsBreakOff (rulesOffences offencesOf path value) := by
  rw [rulesOffences, h.untied]
  split
  · rw [HasText] at h
    exact onlyPatterns_items hof h path 0
  · exact .shape h _ _ _

end Rows

section Patterns

variable [Unicode.Names]

theorem onlyPatterns_pattern (path : String) (value : Yaml.Value) :
    OnlyPatternsBreakOff (patternOffences path value) := by
  rw [patternOffences]
  split
  · split
    · exact .nil
    · intro offence hmem _
      exact ⟨_, _, _, List.mem_singleton.mp hmem⟩
  · exact .nil

theorem onlyPatterns_replacement {value : Yaml.Value} (h : value.HasText) (path : String) :
    OnlyPatternsBreakOff (replacementOffences path value) := by
  refine .append (onlyPatterns_rule h path 2 .replacement) ?_
  split
  · exact onlyPatterns_pattern _ _
  · exact .nil

theorem onlyPatterns_boundary {value : Yaml.Value} (h : value.HasText) (path : String) :
    OnlyPatternsBreakOff (boundaryOffences path value) := by
  refine .append (onlyPatterns_rule h path 4 .boundary) ?_
  split
  · exact .append (onlyPatterns_pattern _ _) (onlyPatterns_pattern _ _)
  · exact .nil

theorem onlyPatterns_inflection {entries : List (Yaml.Value × Yaml.Value)}
    (h : EntriesHaveText entries) : OnlyPatternsBreakOff (inflectionOffences entries) := by
  induction entries with
  | nil => exact .nil
  | cons entry entries ih =>
      obtain ⟨key, value⟩ := entry
      rw [EntriesHaveText] at h
      obtain ⟨name, hname⟩ := exists_name h.1.1
      rw [inflectionOffences, hname]
      exact .append (onlyPatterns_rules onlyPatterns_replacement h.1.2 _) (ih h.2)

theorem onlyPatterns_compound {value : Yaml.Value} (h : value.HasText) :
    OnlyPatternsBreakOff (compoundOffences value) := by
  rw [compoundOffences]
  split
  · exact .nil
  · exact onlyPatterns_rules onlyPatterns_boundary h _

theorem onlyPatterns_offences {value : Yaml.Value} (h : value.HasText) :
    OnlyPatternsBreakOff (offences value) := by
  rw [offences, h.untied]
  split
  · rename_i entries
    rw [HasText] at h
    have hinflections := hasText_member h "inflections"
    refine .append ?_ (onlyPatterns_compound (hasText_member h "compound"))
    rw [hinflections.untied]
    split
    · rename_i inflections hmember
      rw [hmember, HasText] at hinflections
      exact onlyPatterns_inflection hinflections
    · exact .shape hinflections _ _ _
  · exact .shape h _ _ _

end Patterns

end Config

/-! ## The three ends -/

/-- The error tells what is wrong with the configuration. -/
def Config.Error.IsReported : Config.Error → Prop
  | .shape .. | .pattern .. | .document | .halfSurrogate => True
  | .scalar _ | .display _ | .compile _ => False

theorem Config.Offence.isReported_error_iff (offence : Config.Offence) :
    offence.error.IsReported ↔ ¬ offence.BreaksOff := by
  cases offence with
  | shape place wanted found path =>
      rw [error, BreaksOff, wrongShape]
      cases found.display <;> simp [Error.IsReported]
  | nameless fault => simp [error, BreaksOff, Error.IsReported]
  | pattern path source error =>
      cases error <;> simp [Offence.error, BreaksOff, Error.IsReported]

section Ends

variable [Unicode.Names]

/-- Reading the configuration ends in an error that is not about configurations. -/
inductive BreaksOff (raw : String) : Prop
  | scalar {fault : Yaml.Fault} (hload : Yaml.load raw = .error fault)
      (hdocument : fault ≠ .malformed) (htext : fault ≠ .halfSurrogate) : BreaksOff raw
  | offence {value : Yaml.Value} {offence : Config.Offence} {others : List Config.Offence}
      (hload : Yaml.load raw = .ok value) (hfirst : Config.offences value = offence :: others)
      (hbreaks : offence.BreaksOff) : BreaksOff raw

theorem parse_of_load_eq_error {raw : String} {fault : Yaml.Fault}
    (hload : Yaml.load raw = .error fault) :
    parse raw = .error (Config.loadFault fault) := by
  rw [parse, hload, mapError_error, error_bind]

theorem exists_parse {raw : String} {value : Yaml.Value} (hload : Yaml.load raw = .ok value)
    (hnone : Config.offences value = []) : ∃ morphology, parse raw = .ok morphology := by
  have hcheck := Config.settles_check value
  rw [hnone] at hcheck
  obtain ⟨texts, htexts⟩ := hcheck
  obtain ⟨morphology, hbuild⟩ := exists_build_of_check htexts
  refine ⟨morphology, ?_⟩
  rw [parse, hload, mapError_ok, ok_bind, htexts, ok_bind, hbuild, mapError_ok]

theorem parse_of_offence {raw : String} {value : Yaml.Value} {offence : Config.Offence}
    {others : List Config.Offence} (hload : Yaml.load raw = .ok value)
    (hfirst : Config.offences value = offence :: others) :
    parse raw = .error offence.error := by
  have hcheck := Config.settles_check value
  rw [hfirst, Config.Settles] at hcheck
  rw [parse, hload, mapError_ok, ok_bind, hcheck, error_bind]

theorem BreaksOff.not_reported {raw : String} (h : BreaksOff raw) :
    ∃ error, parse raw = .error error ∧ ¬ error.IsReported := by
  cases h with
  | @scalar fault hload hdocument htext =>
      refine ⟨_, parse_of_load_eq_error hload, ?_⟩
      cases fault <;> simp [Config.loadFault, Config.Error.IsReported] at hdocument htext ⊢
  | @offence value offence others hload hfirst hbreaks =>
      refine ⟨_, parse_of_offence hload hfirst, ?_⟩
      rw [offence.isReported_error_iff]
      exact not_not_intro hbreaks

theorem breaksOff_of_parse {raw : String} {error : Config.Error} (hparse : parse raw = .error error)
    (hreported : ¬ error.IsReported) : BreaksOff raw := by
  cases hload : Yaml.load raw with
  | error fault =>
      rw [parse_of_load_eq_error hload] at hparse
      obtain rfl := Except.error.inj hparse
      cases fault with
      | malformed => exact absurd trivial hreported
      | halfSurrogate => exact absurd trivial hreported
      | _ => exact .scalar hload (by simp) (by simp)
  | ok value =>
      cases hfirst : Config.offences value with
      | nil =>
          obtain ⟨morphology, hok⟩ := exists_parse hload hfirst
          simp [hok] at hparse
      | cons offence others =>
          rw [parse_of_offence hload hfirst] at hparse
          obtain rfl := Except.error.inj hparse
          rw [offence.isReported_error_iff, Classical.not_not] at hreported
          exact .offence hload hfirst hreported

end Ends

section Plurals

attribute [local instance] Unicode.Names.none

end Plurals

end Interlinear.Morphology
