import Interlinear.Gloss.Parser
import Interlinear.Morphology.Config
import Interlinear.Proofs.Gloss.Reading
import Interlinear.Proofs.Morphology.Configured
import Interlinear.Proofs.Yaml.NamedNodes
import Interlinear.Translation.Translator
import Mathlib

/-!
# Inflections called by their names

A configuration binds its rules to the texts that its keys come back as, and a gloss calls an
inflection by its name as it is written.  So a name of ASCII letters and digits that is written as a
plain key is found by a gloss if and only if it is not too long for a key and comes back as it was.
A name that comes back as another one is unknown to glosses.
-/

namespace Interlinear

open Outcome

namespace Morphology

variable {pattern : Pattern} {name shown : String}

theorem inflector?_endRule :
    (withCapital ⟨[(shown, .first [.replace pattern "x" 1])]⟩ []).inflector? name =
      if name = shown then some (.first [.replace pattern "x" 1])
      else if name = capitalName then some .capitalize
      else none := by
  rw [inflector?, withCapital, Dictionary.get?_insertAll, List.reverse_singleton,
    List.lookup_cons, List.lookup_nil, get?_capital]
  by_cases h : name = shown
  · simp [h]
  · simp [h, beq_eq_false_iff_ne.mpr h]

/-- What a gloss makes of an inflection of *ka* whose rules are bound to a text. -/
theorem inflect_endRule (hrule : (Rule.replace pattern "x" 1).apply "ka" = .ok ("kax", .applied))
    (hcapital : name = shown ∨ name ≠ capitalName) :
    (withCapital ⟨[(shown, .first [.replace pattern "x" 1])]⟩ []).inflect "ka" [name] =
      .ok (if name = shown then "kax" else Diagnostic.unknownInflection "ka" name) := by
  have hfirst : (Rule.first [.replace pattern "x" 1]).apply "ka" = .ok ("kax", .applied) := by
    rw [Rule.apply, Rule.applyFirst, hrule]
    rfl
  rw [inflect, inflector?_endRule]
  by_cases h : name = shown
  · simp [h, hfirst, inflect]
  · simp [h, hcapital.resolve_left h, inflect]

section Reading

variable [Unicode.Names]

/-- A rule that puts an *x* at the end of a text. -/
theorem exists_endRule :
    ∃ pattern, Pattern.compile "$" = .ok pattern ∧
      (Rule.replace pattern "x" 1).apply "ka" = .ok ("kax", .applied) := by
  have happly : (Pattern.compile "$").toOption.map
      (fun pattern => ((Rule.replace pattern "x" 1).apply "ka").toOption) =
        some (some ("kax", .applied)) :=
    rfl
  cases hcompile : Pattern.compile "$" with
  | error error => simp [hcompile, Except.toOption] at happly
  | ok pattern =>
      refine ⟨pattern, rfl, ?_⟩
      cases hrule : (Rule.replace pattern "x" 1).apply "ka" with
      | error error => simp [hcompile, hrule, Except.toOption] at happly
      | ok changed => simpa [hcompile, hrule, Except.toOption] using happly

theorem check_namedValue {key : Yaml.Value} (hcompile : Pattern.compile "$" = .ok pattern)
    (hname : key.name = .ok shown) :
    Config.check (Yaml.namedValue key) = .ok ⟨.ofList [(shown, [⟨"$", "x"⟩])], []⟩ := by
  have hrules : ∀ path, Config.checkRules Config.checkReplacement path
      (.list [.list [.text "$", .text "x"]]) = .ok [⟨"$", "x"⟩] := by
    intro path
    simp [Config.checkRules, Config.checkItems, Config.checkReplacement, Config.checkRule,
      Config.checkTexts, Config.checkPattern, Yaml.Value.untied, hcompile]
  simp [Config.check, Config.checkObject, Config.checkCompound, Config.checkInflections,
    Config.member, Yaml.namedValue, Yaml.Value.lookup?, Yaml.Value.isSameKey, Yaml.Value.untied,
    hname, hrules]

theorem build_endRule (hcompile : Pattern.compile "$" = .ok pattern) :
    build ⟨.ofList [(shown, [⟨"$", "x"⟩])], []⟩ =
      .ok (withCapital ⟨[(shown, .first [.replace pattern "x" 1])]⟩ []) := by
  have hentries : (Dictionary.ofList [(shown, [ReplacementText.mk "$" "x"])]).entries =
      [(shown, [⟨"$", "x"⟩])] := rfl
  simp [build, hentries, compileInflections, compileReplacements, compileBoundaries, hcompile]

end Reading

end Morphology

namespace Gloss

theorem isWord_of_isAlphanum {name : String} (hne : name ≠ "")
    (hname : ∀ c ∈ name.toList, c.isAlphanum = true) : IsWord name := by
  refine ⟨hne, fun c hc => ⟨?_, ?_⟩⟩
  · have hrange := (Numeral.isAlphanum_iff c).mp (hname c hc)
    rw [Unicode.isBlank, Unicode.isBlankCode]
    simp [Unicode.blankRanges, Unicode.Ranges.contains]
    omega
  · intro hmem
    fin_cases hmem <;> exact absurd (hname _ hc) (by decide)

theorem parse_inflected {name : String} (hne : name ≠ "")
    (hname : ∀ c ∈ name.toList, c.isAlphanum = true) :
    parse .implicitLiterals ("ka#" ++ name) = .ok (.inflection (.literal "ka") [name]) := by
  have hstem : IsWord "ka" := isWord_of_isAlphanum (by decide) (List.all_eq_true.mp (by decide))
  let derivation : Derivation :=
    .gloss false (.bare ⟨"ka", hstem⟩) [⟨name, isWord_of_isAlphanum hne hname⟩]
  have htext : derivation.text = ("ka#" ++ name).toList := by
    rw [String.toList_append]
    simp [derivation, Derivation.text, TermDerivation.text, markText, namesText, Word.chars]
  have hmeaning : derivation.meaning .implicitLiterals = .inflection (.literal "ka") [name] :=
    rfl
  exact parse_of_derives ⟨derivation, htext, hmeaning⟩

end Gloss

namespace Morphology

section Names

variable [Unicode.Names]

theorem parse_namedText_long {name : String} (hne : name ≠ "")
    (hname : ∀ c ∈ name.toList, c.isAlphanum = true) (hlength : Yaml.longestKey < name.length) :
    parse (Yaml.namedText name) = .error .document := by
  have hlist : name.toList ≠ [] := by simpa using hne
  have hload := Yaml.load_namedText_long hlist hname hlength
  rw [String.ofList_toList] at hload
  rw [parse, hload]
  rfl

theorem exists_parse_namedText {name : String} (hne : name ≠ "")
    (hname : ∀ c ∈ name.toList, c.isAlphanum = true) (hlength : name.length ≤ Yaml.longestKey) :
    ∃ morphology, parse (Yaml.namedText name) = .ok morphology ∧
      morphology.inflect "ka" [name] =
        .ok (if Yaml.isRespelled name.toList then Diagnostic.unknownInflection "ka" name
          else "kax") := by
  have hlist : name.toList ≠ [] := by simpa using hne
  obtain ⟨key, shown, hkey, hshown⟩ := Yaml.exists_readsAs hlist hname hlength
  have hload := Yaml.load_namedText hlist hname hlength hkey
  rw [String.ofList_toList] at hkey hshown hload
  obtain ⟨pattern, hcompile, hrule⟩ := exists_endRule
  refine ⟨withCapital ⟨[(shown, .first [.replace pattern "x" 1])]⟩ [], ?_, ?_⟩
  · rw [parse, hload, mapError_ok, ok_bind, check_namedValue hcompile hkey.name, ok_bind,
      build_endRule hcompile]
    rfl
  · cases hrespelled : Yaml.isRespelled name.toList with
    | false =>
        obtain rfl := hshown.mpr hrespelled
        rw [inflect_endRule hrule (.inl rfl)]
        simp
    | true =>
        have hne : name ≠ shown := by
          rintro rfl
          rw [hshown.mp rfl] at hrespelled
          cases hrespelled
        -- So the built-in rule does not stand in for the one that got another name.
        have hcapital : name ≠ capitalName := by
          rintro rfl
          revert hrespelled
          decide
        rw [inflect_endRule hrule (.inr hcapital), if_neg hne]
        rfl

/-- What a gloss makes of the only inflection of a configuration, by the name of the inflection. -/
theorem translate_namedText {name : String} (hne : name ≠ "")
    (hname : ∀ c ∈ name.toList, c.isAlphanum = true) :
    Gloss.parse .implicitLiterals ("ka#" ++ name) = .ok (.inflection (.literal "ka") [name]) ∧
    (Yaml.longestKey < name.length → parse (Yaml.namedText name) = .error .document) ∧
    (name.length ≤ Yaml.longestKey →
      ∃ morphology, parse (Yaml.namedText name) = .ok morphology ∧
        ∀ (index : Index) (limit : Nat) (hpos : 0 < limit),
          Translator.translate ⟨index, morphology, limit, hpos⟩
              (.inflection (.literal "ka") [name]) =
            .ok (if Yaml.isRespelled name.toList then Diagnostic.unknownInflection "ka" name
              else "kax")) := by
  refine ⟨Gloss.parse_inflected hne hname, parse_namedText_long hne hname, fun hlength => ?_⟩
  obtain ⟨morphology, hparse, hinflect⟩ := exists_parse_namedText hne hname hlength
  exact ⟨morphology, hparse, fun index limit hpos => hinflect⟩

end Names

section Fixed

attribute [local instance] Unicode.Names.none

theorem translate_namedText_plural :
    ∃ morphology, parse (Yaml.namedText "PL") = .ok morphology ∧
      ∀ (index : Index) (limit : Nat) (hpos : 0 < limit),
        Translator.translate ⟨index, morphology, limit, hpos⟩
          (.inflection (.literal "ka") ["PL"]) = .ok "kax" := by
  have hname : ∀ c ∈ "PL".toList, c.isAlphanum = true := List.all_eq_true.mp (by decide)
  obtain ⟨-, -, hshort⟩ := translate_namedText (by decide) hname
  have hspelling : Yaml.isRespelled "PL".toList = false := by decide +kernel
  rw [hspelling] at hshort
  exact hshort (by decide)

/-- The word for nothing is an inflection name that no gloss can call. -/
theorem not_translate_namedText_null :
    ¬ ∀ name : String, name ≠ "" → (∀ c ∈ name.toList, c.isAlphanum = true) →
      ∃ morphology gloss, parse (Yaml.namedText name) = .ok morphology ∧
        Gloss.parse .implicitLiterals ("ka#" ++ name) = .ok gloss ∧
        ∀ (index : Index) (limit : Nat) (hpos : 0 < limit),
          Translator.translate ⟨index, morphology, limit, hpos⟩ gloss = .ok "kax" := by
  intro hnames
  obtain ⟨morphology, gloss, hparse, hgloss, htranslate⟩ :=
    hnames "null" (by decide) (List.all_eq_true.mp (by decide))
  have hread : (Gloss.parse .implicitLiterals ("ka#" ++ "null")).toOption =
      some (.inflection (.literal "ka") ["null"]) := by decide +kernel
  have hwritten : (parse (Yaml.namedText "null")).toOption.map (fun morphology =>
      (Translator.translate ⟨⟨⟨[]⟩⟩, morphology, 1, by decide⟩
        (.inflection (.literal "ka") ["null"])).toOption) = some (some "(ka#null??)") := by
    decide +kernel
  rw [hgloss] at hread
  obtain rfl := Option.some.inj hread
  have hkax := htranslate ⟨⟨[]⟩⟩ 1 (by decide)
  rw [hparse] at hwritten
  simp [Except.toOption, hkax] at hwritten

end Fixed

end Morphology

end Interlinear
