import Interlinear.Proofs.Morphology.Reports
import Interlinear.Translation.Translator

/-!
# What a configuration binds to a name

A name stands for the rules of the last inflection whose key has it as its text, and `CAP` for
capitalization where no key has it.  The rules are the pairs of a list as they are written, and the
first pair whose pattern is found in a text rewrites it.

The pairs are followed from the document to the translation.  The check keeps them in order; the
dictionary of names keeps the last of several with one name; building compiles each pair on its own;
and the translation of an inflection of a literal runs the compiled row on its text.
-/

namespace Interlinear.Morphology

open Outcome

namespace Config

/-- The entries under `inflections`; none where a document has no such mapping. -/
def inflectionsOf (value : Yaml.Value) : List (Yaml.Value × Yaml.Value) :=
  match value.untied with
  | .mapping entries =>
      match (member "inflections" entries).untied with
      | .mapping inflections => inflections
      | _ => []
  | _ => []

/-- The rules stand in the last inflection whose key has the name as its text. -/
def Binds (value : Yaml.Value) (name : String) (rules : Yaml.Value) : Prop :=
  ∃ before key after, inflectionsOf value = before ++ (key, rules) :: after ∧
    key.name = .ok name ∧ ∀ entry ∈ after, entry.1.name ≠ .ok name

def IsPair (value : Yaml.Value) (pair : ReplacementText) : Prop :=
  ∃ pattern template, value.untied = .list [pattern, template] ∧
    pattern.untied = .text pair.pattern ∧ template.untied = .text pair.template

def HoldsPairs (rules : Yaml.Value) (pairs : List ReplacementText) : Prop :=
  ∃ items, rules.untied = .list items ∧ List.Forall₂ IsPair items pairs

/-- An entry of the document and what the check makes of it. -/
def IsInflection (entry : Yaml.Value × Yaml.Value)
    (inflection : String × List ReplacementText) : Prop :=
  entry.1.name = .ok inflection.1 ∧ HoldsPairs entry.2 inflection.2

theorem HoldsPairs.eq {rules : Yaml.Value} {pairs others : List ReplacementText}
    (h : HoldsPairs rules pairs) (hothers : HoldsPairs rules others) : pairs = others := by
  obtain ⟨items, huntied, hitems⟩ := h
  obtain ⟨otherItems, hother, hotherItems⟩ := hothers
  rw [huntied] at hother
  obtain rfl := Yaml.Value.list.inj hother
  refine List.right_unique_forall₂' ?_ hitems hotherItems
  rintro value ⟨source, text⟩ ⟨otherSource, otherText⟩
    ⟨pattern, template, hvalue, hpattern, htemplate⟩
    ⟨otherPattern, otherTemplate, hotherValue, hotherPattern, hotherTemplate⟩
  rw [hvalue] at hotherValue
  simp only [Yaml.Value.list.injEq, List.cons.injEq, and_true] at hotherValue
  obtain ⟨rfl, rfl⟩ := hotherValue
  rw [hpattern] at hotherPattern
  rw [htemplate] at hotherTemplate
  obtain rfl := Yaml.Value.text.inj hotherPattern
  obtain rfl := Yaml.Value.text.inj hotherTemplate
  rfl

theorem forall₂_of_checkItems {α : Type} {check : String → Yaml.Value → Except Error α}
    {R : Yaml.Value → α → Prop}
    (hcheck : ∀ {path value rule}, check path value = .ok rule → R value rule)
    {path : String} {i : Nat} {values : List Yaml.Value} {rules : List α}
    (h : checkItems check path i values = .ok rules) : List.Forall₂ R values rules := by
  induction values generalizing i rules with
  | nil =>
      obtain rfl := Except.ok.inj h
      exact .nil
  | cons value values ih =>
      rw [checkItems, bind_eq_ok_iff] at h
      obtain ⟨rule, hrule, h⟩ := h
      obtain ⟨others, hothers, h⟩ := bind_eq_ok_iff.mp h
      obtain rfl := Except.ok.inj h
      exact .cons (hcheck hrule) (ih hothers)

theorem checkObject_eq_ok {path : String} {value : Yaml.Value}
    {entries : List (Yaml.Value × Yaml.Value)} (h : checkObject path value = .ok entries) :
    value.untied = .mapping entries := by
  rw [checkObject] at h
  split at h
  next other huntied =>
      obtain rfl := Except.ok.inj h
      exact huntied
  next => cases h

section Checks

variable [Unicode.Names]

theorem isPair_of_checkReplacement {path : String} {value : Yaml.Value} {pair : ReplacementText}
    (h : checkReplacement path value = .ok pair) : IsPair value pair := by
  rw [checkReplacement, bind_eq_ok_iff] at h
  obtain ⟨texts, htexts, h⟩ := h
  obtain ⟨items, huntied, -, hitems⟩ := checkRule_eq_ok htexts
  split at h
  next pattern template =>
      obtain ⟨_, -, h⟩ := bind_eq_ok_iff.mp h
      obtain rfl := Except.ok.inj h
      rcases items with _ | ⟨first, _ | ⟨second, _ | ⟨other, items⟩⟩⟩ <;> simp at hitems
      exact ⟨first, second, huntied, hitems.1, hitems.2⟩
  next => cases h

theorem holdsPairs_of_checkRules {path : String} {value : Yaml.Value}
    {pairs : List ReplacementText} (h : checkRules checkReplacement path value = .ok pairs) :
    HoldsPairs value pairs := by
  rw [checkRules] at h
  split at h
  next items huntied =>
      exact ⟨items, huntied, forall₂_of_checkItems (R := IsPair) isPair_of_checkReplacement h⟩
  next => cases h

theorem forall₂_of_checkInflections {entries : List (Yaml.Value × Yaml.Value)}
    {inflections : List (String × List ReplacementText)}
    (h : checkInflections entries = .ok inflections) :
    List.Forall₂ IsInflection entries inflections := by
  induction entries generalizing inflections with
  | nil =>
      obtain rfl := Except.ok.inj h
      exact .nil
  | cons entry entries ih =>
      obtain ⟨key, value⟩ := entry
      rw [checkInflections, bind_eq_ok_iff] at h
      obtain ⟨name, hname, h⟩ := h
      obtain ⟨pairs, hpairs, h⟩ := bind_eq_ok_iff.mp h
      obtain ⟨others, hothers, h⟩ := bind_eq_ok_iff.mp h
      obtain rfl := Except.ok.inj h
      exact .cons ⟨mapError_eq_ok_iff.mp hname, holdsPairs_of_checkRules hpairs⟩ (ih hothers)

/-- What passes the check holds the inflections in the order of the document. -/
theorem exists_inflections_of_check {value : Yaml.Value} {texts : RuleTexts}
    (h : check value = .ok texts) :
    ∃ inflections, texts.inflections = .ofList inflections ∧
      List.Forall₂ IsInflection (inflectionsOf value) inflections := by
  rw [check, bind_eq_ok_iff] at h
  obtain ⟨entries, hentries, h⟩ := h
  obtain ⟨inflectionEntries, hmapping, h⟩ := bind_eq_ok_iff.mp h
  obtain ⟨inflections, hinflections, h⟩ := bind_eq_ok_iff.mp h
  obtain ⟨boundaries, -, h⟩ := bind_eq_ok_iff.mp h
  obtain rfl := Except.ok.inj h
  have hentriesOf : inflectionsOf value = inflectionEntries := by
    simp only [inflectionsOf, checkObject_eq_ok hentries, checkObject_eq_ok hmapping]
  refine ⟨inflections, rfl, ?_⟩
  rw [hentriesOf]
  exact forall₂_of_checkInflections hinflections

end Checks

end Config

/-! ## Names in the morphology -/

section Rules

variable [Unicode.Names]

def CompilesTo (pairs : List ReplacementText) (rule : Rule) : Prop :=
  ∃ row, compileReplacements pairs = .ok row ∧ rule = .first row

theorem compileInflections_rel {inflections : List (String × List ReplacementText)}
    {rules : List (String × Rule)} (h : compileInflections inflections = .ok rules) :
    List.Forall₂ (fun inflection rule =>
      inflection.1 = rule.1 ∧ CompilesTo inflection.2 rule.2) inflections rules := by
  induction inflections generalizing rules with
  | nil =>
      obtain rfl := Except.ok.inj h
      exact .nil
  | cons inflection inflections ih =>
      obtain ⟨name, pairs⟩ := inflection
      rw [compileInflections, bind_eq_ok_iff] at h
      obtain ⟨row, hrow, h⟩ := h
      obtain ⟨others, hothers, h⟩ := bind_eq_ok_iff.mp h
      obtain rfl := Except.ok.inj h
      exact .cons ⟨rfl, row, hrow, rfl⟩ (ih hothers)

/-- A name is bound to the last rules that are written under it, or else to capitalization if it is
the name of that. -/
theorem inflector?_of_build {texts : RuleTexts} {morphology : Morphology}
    (hbuild : build texts = .ok morphology)
    {inflections : List (String × List ReplacementText)}
    (hinflections : texts.inflections = .ofList inflections) (name : String) :
    (∀ pairs, inflections.reverse.lookup name = some pairs →
      ∃ row, compileReplacements pairs = .ok row ∧
        morphology.inflector? name = some (.first row)) ∧
    (inflections.reverse.lookup name = none →
      morphology.inflector? name = if name = capitalName then some .capitalize else none) := by
  rw [build, bind_eq_ok_iff] at hbuild
  obtain ⟨rules, hrules, hbuild⟩ := hbuild
  obtain ⟨boundaries, -, hbuild⟩ := bind_eq_ok_iff.mp hbuild
  obtain rfl := Except.ok.inj hbuild
  rw [hinflections] at hrules
  have hrel := lookup_rel (R := CompilesTo) (List.rel_reverse (compileInflections_rel hrules)) name
  rw [Dictionary.lookup_reverse_ofList] at hrel
  have hbound : (withCapital ⟨rules⟩ boundaries).inflector? name =
      (rules.reverse.lookup name).or (if name = capitalName then some .capitalize else none) := by
    rw [inflector?, withCapital, Dictionary.get?_insertAll, get?_capital]
  rw [hbound]
  constructor
  · intro pairs hpairs
    rw [hpairs] at hrel
    cases hlookup : rules.reverse.lookup name with
    | none => simp [hlookup] at hrel
    | some rule =>
        rw [hlookup, Option.rel_some_some] at hrel
        obtain ⟨row, hrow, rfl⟩ := hrel
        exact ⟨row, hrow, rfl⟩
  · intro hnone
    rw [hnone] at hrel
    cases hlookup : rules.reverse.lookup name with
    | none => rfl
    | some rule => simp [hlookup] at hrel

/-! ## Texts in the translation -/

/-- What a row of pairs makes of a text: the first pair whose pattern is found rewrites it once. -/
inductive RewrittenBy (text : String) :
    List ReplacementText → Except TranslationError String → Prop
  | kept : RewrittenBy text [] (.ok text)
  | found {pair : ReplacementText} {pairs : List ReplacementText} {pattern : Pattern}
      (hpattern : Pattern.compile pair.pattern = .ok pattern)
      (hfound : pattern.isFound text = true) :
      RewrittenBy text (pair :: pairs) ((pattern.replace pair.template 1 text).mapError .template)
  | skipped {pair : ReplacementText} {pairs : List ReplacementText} {pattern : Pattern}
      {outcome : Except TranslationError String}
      (hpattern : Pattern.compile pair.pattern = .ok pattern)
      (hfound : pattern.isFound text = false) (hpairs : RewrittenBy text pairs outcome) :
      RewrittenBy text (pair :: pairs) outcome

theorem rewrittenBy_inflect {morphology : Morphology} {name : String}
    {pairs : List ReplacementText} {row : List Rule} (hrow : compileReplacements pairs = .ok row)
    (hname : morphology.inflector? name = some (.first row)) (text : String) :
    RewrittenBy text pairs (morphology.inflect text [name]) := by
  have hinflect : morphology.inflect text [name] =
      ((Rule.applyFirst row text).map Prod.fst).mapError .template := by
    rw [inflect, hname]
    simp only [Rule.apply]
    cases Rule.applyFirst row text <;> rfl
  rw [hinflect]
  clear hname hinflect
  induction pairs generalizing row with
  | nil =>
      obtain rfl := Except.ok.inj hrow
      exact .kept
  | cons pair pairs ih =>
      rw [compileReplacements, bind_eq_ok_iff] at hrow
      obtain ⟨pattern, hpattern, hrow⟩ := hrow
      obtain ⟨others, hothers, hrow⟩ := bind_eq_ok_iff.mp hrow
      obtain rfl := Except.ok.inj hrow
      rw [Rule.applyFirst]
      cases hfound : pattern.isFound text with
      | true =>
          rw [Rule.apply_replace hfound]
          have houtcome : RewrittenBy text (pair :: pairs) _ := .found hpattern hfound
          cases hchanged : pattern.replace pair.template 1 text with
          | error error =>
              rw [hchanged] at houtcome
              exact houtcome
          | ok changed =>
              rw [hchanged] at houtcome
              exact houtcome
      | false =>
          rw [Rule.apply, hfound]
          exact .skipped hpattern hfound (ih hothers)

end Rules

/-! ## From the document to the translation -/

theorem exists_split_of_forall₂ {α β : Type} {R : α → β → Prop} {before after : List α} {entry : α}
    {others : List β} (h : List.Forall₂ R (before ++ entry :: after) others) :
    ∃ otherBefore other otherAfter, others = otherBefore ++ other :: otherAfter ∧
      R entry other ∧ List.Forall₂ R after otherAfter := by
  induction before generalizing others with
  | nil =>
      rw [List.nil_append] at h
      cases h with
      | cons hentry hafter => exact ⟨[], _, _, rfl, hentry, hafter⟩
  | cons first before ih =>
      rw [List.cons_append] at h
      cases h with
      | @cons _ otherFirst _ others hfirst hrest =>
          obtain ⟨otherBefore, other, otherAfter, rfl, hentry, hafter⟩ := ih hrest
          exact ⟨otherFirst :: otherBefore, other, otherAfter, rfl, hentry, hafter⟩

section Inflections

variable {entries : List (Yaml.Value × Yaml.Value)}
variable {inflections : List (String × List ReplacementText)} {name : String}

theorem ne_of_forall₂_name (h : List.Forall₂ Config.IsInflection entries inflections)
    (hnone : ∀ entry ∈ entries, entry.1.name ≠ .ok name) :
    ∀ inflection ∈ inflections, inflection.1 ≠ name := by
  induction h with
  | nil => simp
  | @cons entry inflection entries inflections hentry _ ih =>
      obtain ⟨hfirst, hothers⟩ := List.forall_mem_cons.mp hnone
      refine List.forall_mem_cons.mpr ⟨?_, ih hothers⟩
      rintro rfl
      exact hfirst hentry.1

theorem exists_lookup_of_last (before after : List (Yaml.Value × Yaml.Value))
    {key rules : Yaml.Value}
    (h : List.Forall₂ Config.IsInflection (before ++ (key, rules) :: after) inflections)
    (hkey : key.name = .ok name)
    (hlast : ∀ entry ∈ after, entry.1.name ≠ .ok name) :
    ∃ pairs, Config.HoldsPairs rules pairs ∧ inflections.reverse.lookup name = some pairs := by
  obtain ⟨otherBefore, ⟨other, pairs⟩, otherAfter, rfl, ⟨hname, hpairs⟩, hafter⟩ :=
    exists_split_of_forall₂ h
  obtain rfl : name = other := Except.ok.inj (hkey.symm.trans hname)
  exact ⟨pairs, hpairs, lookup_reverse_of_last (ne_of_forall₂_name hafter hlast)⟩

end Inflections

/-- What a configuration that passes the check makes of a literal with one inflection. -/
theorem translate_inflected_literal [Unicode.Names] {value : Yaml.Value} {texts : RuleTexts}
    (hcheck : Config.check value = .ok texts) :
    ∃ morphology, build texts = .ok morphology ∧
      ∀ (index : Index) (limit : Nat) (hpos : 0 < limit) (text name : String),
        (∀ rules, Config.Binds value name rules →
          ∃ pairs, Config.HoldsPairs rules pairs ∧
            RewrittenBy text pairs (Translator.translate ⟨index, morphology, limit, hpos⟩
              (.inflection (.literal text) [name]))) ∧
        ((∀ entry ∈ Config.inflectionsOf value, entry.1.name ≠ .ok name) →
          Translator.translate ⟨index, morphology, limit, hpos⟩
              (.inflection (.literal text) [name]) =
            .ok (if name = "CAP" then
                String.ofList ((text.toList.take 1).flatMap Unicode.upper ++ text.toList.drop 1)
              else "(" ++ text ++ "#" ++ name ++ "??)")) := by
  obtain ⟨morphology, hbuild⟩ := exists_build_of_check hcheck
  obtain ⟨inflections, hinflections, hentries⟩ := Config.exists_inflections_of_check hcheck
  refine ⟨morphology, hbuild, fun index limit hpos text name => ?_⟩
  obtain ⟨hbound, hunbound⟩ := inflector?_of_build hbuild hinflections name
  have htranslate : Translator.translate ⟨index, morphology, limit, hpos⟩
      (.inflection (.literal text) [name]) = morphology.inflect text [name] := by
    rw [Translator.translate, Gloss.evaluate, Gloss.evaluate, ok_bind]
  rw [htranslate]
  constructor
  · rintro rules ⟨before, key, after, hsplit, hkey, hlast⟩
    rw [hsplit] at hentries
    obtain ⟨pairs, hpairs, hlookup⟩ := exists_lookup_of_last before after hentries hkey hlast
    obtain ⟨row, hrow, hname⟩ := hbound pairs hlookup
    exact ⟨pairs, hpairs, rewrittenBy_inflect hrow hname text⟩
  · intro hnone
    have hlookup : inflections.reverse.lookup name = none := by
      apply lookup_eq_none_of_forall_ne
      intro inflection hinflection
      exact ne_of_forall₂_name hentries hnone inflection (List.mem_reverse.mp hinflection)
    rw [inflect, hunbound hlookup]
    by_cases hcap : name = "CAP"
    · subst hcap
      simp only [capitalName, if_true, Rule.apply, inflect, capitalized]
      cases htext : text.toList with
      | nil => simp [String.toList_eq_nil_iff.mp htext]
      | cons c cs => simp
    · simp [capitalName, hcap, inflect, Diagnostic.unknownInflection]

section CrossedKeys

attribute [local instance] Unicode.Names.none

def pluralRow : Yaml.Value :=
  .list [.list [.text "a$", .text "ae"], .list [.text "$", .text "s"]]

/-- Two keys with one text, of which the second counts, and an empty row for capitalization. -/
def crossedInflections : List (Yaml.Value × Yaml.Value) :=
  [(.int 1, .list [.list [.text "^", .text "un"]]), (.text "CAP", .list []), (.text "1", pluralRow)]

def crossedKeys : Yaml.Value :=
  .mapping [(.text "inflections", .mapping crossedInflections)]

theorem translate_inflected_literal_crossedKeys :
    ∃ texts morphology, Config.check crossedKeys = .ok texts ∧ build texts = .ok morphology ∧
      ∀ (index : Index) (limit : Nat) (hpos : 0 < limit),
        RewrittenBy "arth" [⟨"a$", "ae"⟩, ⟨"$", "s"⟩]
          (Translator.translate ⟨index, morphology, limit, hpos⟩
            (.inflection (.literal "arth") ["1"])) ∧
        RewrittenBy "arth" [] (Translator.translate ⟨index, morphology, limit, hpos⟩
          (.inflection (.literal "arth") ["CAP"])) ∧
        Translator.translate ⟨index, morphology, limit, hpos⟩
          (.inflection (.literal "arth") ["PL"]) = .ok "(arth#PL??)" := by
  have haccepted : (Config.check crossedKeys).toBool = true := by decide +kernel
  cases hcheck : Config.check crossedKeys with
  | error error => simp [hcheck, Except.toBool] at haccepted
  | ok texts =>
      obtain ⟨morphology, hbuild, htranslate⟩ := translate_inflected_literal hcheck
      refine ⟨texts, morphology, rfl, hbuild, fun index limit hpos => ⟨?_, ?_, ?_⟩⟩
      · obtain ⟨hbound, -⟩ := htranslate index limit hpos "arth" "1"
        obtain ⟨pairs, hpairs, hrewritten⟩ :=
          hbound pluralRow ⟨crossedInflections.take 2, .text "1", [], rfl, rfl, by simp⟩
        have hwritten : Config.HoldsPairs pluralRow [⟨"a$", "ae"⟩, ⟨"$", "s"⟩] :=
          ⟨_, rfl, .cons ⟨_, _, rfl, rfl, rfl⟩ (.cons ⟨_, _, rfl, rfl, rfl⟩ .nil)⟩
        rwa [hpairs.eq hwritten] at hrewritten
      · obtain ⟨hbound, -⟩ := htranslate index limit hpos "arth" "CAP"
        obtain ⟨pairs, hpairs, hrewritten⟩ := hbound (.list []) ⟨crossedInflections.take 1,
          .text "CAP", crossedInflections.drop 2, rfl, rfl, by decide +kernel⟩
        have hwritten : Config.HoldsPairs (.list []) [] := ⟨[], rfl, .nil⟩
        rwa [hpairs.eq hwritten] at hrewritten
      · obtain ⟨-, hunbound⟩ := htranslate index limit hpos "arth" "PL"
        rw [hunbound]
        · rfl
        · decide +kernel

end CrossedKeys

end Interlinear.Morphology
