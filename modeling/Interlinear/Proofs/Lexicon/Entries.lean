import Interlinear.Lexicon.Index
import Interlinear.Proofs.Gloss.RoundTrip
import Interlinear.Proofs.Translation.Failure

/-!
# The glosses of a lexicon

A text never stands where a gloss is due in what was read: every gloss that was read is well typed,
and so are the glosses that an index of a lexicon that was read answers with.  A translation by such
an index fails only with a template that cannot be read.
-/

namespace Interlinear

open Outcome

namespace Gloss

mutual
theorem Canonical.wellTyped : (gloss : Gloss) → gloss.Canonical → gloss.WellTyped
  | literal _, _ => trivial
  | pointer _, _ => trivial
  | inflection stem _, h => by
      rw [Canonical] at h
      exact Canonical.wellTyped stem h.1
  | compound elements, h => by
      rw [Canonical] at h
      exact AllCanonical.wellTyped elements h.2
  | stray _, h => by simp [Canonical] at h
theorem AllCanonical.wellTyped :
    (glosses : List Gloss) → AllCanonical glosses → AllWellTyped glosses
  | [], _ => trivial
  | gloss :: glosses, h => by
      rw [AllCanonical] at h
      exact ⟨Canonical.wellTyped gloss h.1, AllCanonical.wellTyped glosses h.2⟩
end

theorem wellTyped_of_parse {mode : Mode} {raw : String} {gloss : Gloss}
    (h : parse mode raw = .ok gloss) : gloss.WellTyped := by
  by_cases hraw : raw = "" ∨ raw = "?"
  · rw [parse_bare hraw, Except.ok.injEq] at h
    subst h
    cases mode <;> exact trivial
  · exact Canonical.wellTyped gloss (derives_of_parse hraw h).canonical

end Gloss

namespace Lexicon

theorem wellTyped_of_readLexeme {layout : Layout} {record : Csv.Record} {lexeme : Lexeme}
    (h : readLexeme layout record = .ok lexeme) : lexeme.translation.WellTyped := by
  unfold readLexeme at h
  dsimp only at h
  split at h
  · cases h
  · rename_i translation hparse
    obtain rfl := Except.ok.inj h
    exact Gloss.wellTyped_of_parse hparse

theorem wellTyped_of_readLexemes {layout : Layout} {records : List Csv.Record}
    {lexemes : List Lexeme} (h : readLexemes layout records = .ok lexemes) :
    ∀ lexeme ∈ lexemes, lexeme.translation.WellTyped := by
  induction records generalizing lexemes with
  | nil =>
      obtain rfl := Except.ok.inj h
      simp
  | cons record records ih =>
      rw [readLexemes, bind_eq_ok_iff] at h
      obtain ⟨lexeme, hlexeme, h⟩ := h
      obtain ⟨others, hothers, h⟩ := bind_eq_ok_iff.mp h
      obtain rfl := Except.ok.inj h
      exact List.forall_mem_cons.mpr ⟨wellTyped_of_readLexeme hlexeme, ih hothers⟩

theorem wellTyped_of_parse {raw : String} {lexicon : Lexicon} (h : parse raw = .ok lexicon) :
    ∀ lexeme ∈ lexicon.lexemes, lexeme.translation.WellTyped := by
  rw [parse, bind_eq_ok_iff] at h
  obtain ⟨records, -, h⟩ := h
  split at h
  · cases h
  · split at h
    · obtain ⟨lexemes, hlexemes, h⟩ := bind_eq_ok_iff.mp h
      obtain rfl := Except.ok.inj h
      exact wellTyped_of_readLexemes hlexemes
    · cases h

end Lexicon

theorem Index.wellTyped_build {lexemes : List Lexeme}
    (h : ∀ lexeme ∈ lexemes, lexeme.translation.WellTyped) : (Index.build lexemes).WellTyped := by
  intro id gloss hfound
  rw [Index.get?, Index.build, Dictionary.ofList, Dictionary.get?_insertAll, Dictionary.get?_empty,
    Option.or_none] at hfound
  have hmem : (id, gloss) ∈ lexemes.map fun lexeme => (lexeme.id, lexeme.translation) :=
    List.mem_reverse.mp (mem_of_lookup hfound)
  obtain ⟨lexeme, hlexeme, hpair⟩ := List.mem_map.mp hmem
  obtain ⟨-, rfl⟩ := Prod.mk.inj hpair
  exact h lexeme hlexeme

/-- A gloss that was read fails to translate only with a template of the morphology. -/
theorem Translator.translate_eq_error {translator : Translator} {lexemes : List Lexeme}
    (hindex : translator.index = .build lexemes)
    (hlexemes : ∀ lexeme ∈ lexemes, lexeme.translation.WellTyped) {mode : Mode}
    {text : String} {gloss : Gloss} (hparse : Gloss.parse mode text = .ok gloss)
    {e : TranslationError} (h : translator.translate gloss = .error e) :
    ∃ error, e = .template error ∧ translator.morphology.Raises error := by
  have hwellTyped : translator.index.WellTyped := by
    rw [hindex]
    exact Index.wellTyped_build hlexemes
  rw [translate_eq_translateAt] at h
  exact translator.raises_of_fails hwellTyped ⟨gloss, [], 0⟩ (Gloss.wellTyped_of_parse hparse) h

end Interlinear
