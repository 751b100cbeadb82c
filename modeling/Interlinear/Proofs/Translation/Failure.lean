import Interlinear.Proofs.Morphology.Configured
import Interlinear.Proofs.Translation.Sources

/-!
# Where translations fail

A translation of a well-typed gloss has no errors of its own.  A pointer always has a translation,
if only a diagnostic, and an inflection or a compound fails only with the error of a rule, at the
text that the calls before it have made.  Conversely a rule that fails on some text fails in the
translation of a gloss that spells this text out.  So the translations by a morphology never fail if
and only if its rules never do.

A configuration is accepted once its patterns compile, but its templates are not looked at.  An
accepted configuration translates every gloss if and only if the templates that come to be used can
be read, and there are accepted ones that fail.
-/

namespace Interlinear

open Outcome

namespace Translator

variable {translator : Translator}

theorem RaisesAt.raises {call : Call} {error : Pattern.TemplateError}
    (h : translator.RaisesAt call error) : translator.morphology.Raises error := by
  cases h with
  | inflected _ hrule hfails =>
      exact .inflector hrule (Rule.apply_eq_error_iff_failsOn.mpr hfails)
  | joined _ _ hfails => exact .joining (Boundary.joinFirst_eq_error_iff_failsOn.mpr hfails)

variable (translator)

/-- A well-typed gloss fails with the error of a rule only. -/
theorem raises_of_fails (hindex : translator.index.WellTyped) (call : Call)
    (hgloss : call.gloss.WellTyped) {e : TranslationError} (h : translator.Fails call e) :
    ∃ error, e = .template error ∧ translator.morphology.Raises error := by
  obtain ⟨error, callee, he, -, hraises⟩ := (fails_iff hindex hgloss).mp h
  exact ⟨error, he, hraises.raises⟩

/-- Every error of a rule is that of a translation which spells out the texts it arises on. -/
theorem exists_translate_eq_error {error : Pattern.TemplateError}
    (h : translator.morphology.Raises error) :
    ∃ gloss : Gloss, gloss.WellTyped ∧ translator.translate gloss = .error (.template error) := by
  rcases h with @⟨name, text, rule, hrule, happly⟩ | @⟨left, right, hjoin⟩
  · refine ⟨.inflection (.literal text) [name], trivial, ?_⟩
    rw [translate_eq_translateAt, translateAt_inflection, translateAt_literal, ok_bind,
      Morphology.inflect]
    simp only [hrule, happly]
  · refine ⟨.compound [.literal left, .literal right], ⟨trivial, trivial, trivial⟩, ?_⟩
    have hconcat := translateAt_compound_concat translator [] 0 (.literal left) (.literal right) []
    rw [List.nil_append] at hconcat
    rw [translate_eq_translateAt, hconcat, translateAt_compound_singleton, translateAt_literal,
      translateAt_literal, ok_bind, ok_bind, Morphology.join, hjoin, mapError_error]

/-- With an accepted configuration no translation fails if and only if no rule fails on any text,
and that is so if and only if every template that comes to be used can be read. -/
theorem translates_iff_templatesRead [Unicode.Names] {raw : String} {morphology : Morphology}
    (hparse : Morphology.parse raw = .ok morphology) :
    ((∀ (index : Index) (limit : Nat) (hpos : 0 < limit) (gloss : Gloss), index.WellTyped →
        gloss.WellTyped → ∃ text, translate ⟨index, morphology, limit, hpos⟩ gloss = .ok text) ↔
      ∀ error, ¬ morphology.Raises error) ∧
    ((∀ error, ¬ morphology.Raises error) ↔ morphology.TemplatesRead) := by
  have hconfigured : ∀ {name : String} {rule : Rule},
      morphology.inflector? name = some rule → rule.IsConfigured :=
    fun hrule => Morphology.isConfigured_of_parse hparse hrule
  constructor
  · constructor
    · intro htranslates error hraises
      have hindex : Index.WellTyped ⟨⟨[]⟩⟩ := fun id gloss hfound => by cases hfound
      obtain ⟨gloss, hgloss, herror⟩ :=
        exists_translate_eq_error ⟨⟨⟨[]⟩⟩, morphology, 1, by decide⟩ hraises
      obtain ⟨text, htext⟩ := htranslates ⟨⟨[]⟩⟩ 1 (by decide) gloss hindex hgloss
      rw [herror] at htext
      cases htext
    · intro hnever index limit hpos gloss hindex hgloss
      cases htranslate : translate ⟨index, morphology, limit, hpos⟩ gloss with
      | ok text => exact ⟨text, rfl⟩
      | error e =>
          obtain ⟨error, -, hraises⟩ := raises_of_fails
            ⟨index, morphology, limit, hpos⟩ hindex ⟨gloss, [], 0⟩ hgloss htranslate
          exact absurd hraises (hnever error)
  · exact ⟨Morphology.templatesRead_of_not_raises hconfigured,
      fun hread => hread.not_raises hconfigured⟩

section Plurals

attribute [local instance] Unicode.Names.none

def plainPlural : String :=
  "inflections:\n  PL:\n    - [\"$\", \"ec\"]\n"

theorem translates_iff_templatesRead_plainPlural :
    ∃ morphology, Morphology.parse plainPlural = .ok morphology ∧ morphology.TemplatesRead ∧
      ∀ (index : Index) (limit : Nat) (hpos : 0 < limit) (gloss : Gloss), index.WellTyped →
        gloss.WellTyped → ∃ text, translate ⟨index, morphology, limit, hpos⟩ gloss = .ok text := by
  have hplain : (Morphology.parse plainPlural).toOption.map Morphology.isPlain = some true := by
    decide +kernel
  cases hparse : Morphology.parse plainPlural with
  | error error => simp [hparse, Except.toOption] at hplain
  | ok morphology =>
      have hread : morphology.TemplatesRead :=
        Morphology.templatesRead_of_isPlain (by simpa [hparse, Except.toOption] using hplain)
      obtain ⟨htranslates, hnever⟩ := translates_iff_templatesRead hparse
      exact ⟨morphology, rfl, hread, htranslates.mpr (hnever.mpr hread)⟩

/-- A plural whose template names a group that its pattern does not have. -/
def brokenPlural : String :=
  "inflections:\n  PL:\n    - [\"$\", \"\\\\1\"]\n"

theorem not_translates_brokenPlural :
    ¬ ∀ (raw : String) (morphology : Morphology), Morphology.parse raw = .ok morphology →
      ∀ (index : Index) (limit : Nat) (hpos : 0 < limit) (gloss : Gloss), index.WellTyped →
        gloss.WellTyped → ∃ text, translate ⟨index, morphology, limit, hpos⟩ gloss = .ok text := by
  intro htranslates
  have hfails : (Morphology.parse brokenPlural).toOption.map (fun morphology =>
      (translate ⟨⟨⟨[]⟩⟩, morphology, 1, by decide⟩
        (.inflection (.literal "arth") ["PL"])).toBool) = some false := by decide +kernel
  cases hparse : Morphology.parse brokenPlural with
  | error error => simp [hparse, Except.toOption] at hfails
  | ok morphology =>
      have hindex : Index.WellTyped ⟨⟨[]⟩⟩ := fun id gloss hfound => by cases hfound
      obtain ⟨text, htext⟩ := htranslates brokenPlural morphology hparse ⟨⟨[]⟩⟩ 1 (by decide)
        (.inflection (.literal "arth") ["PL"]) hindex trivial
      simp [hparse, htext, Except.toOption, Except.toBool] at hfails

end Plurals

end Translator

end Interlinear
