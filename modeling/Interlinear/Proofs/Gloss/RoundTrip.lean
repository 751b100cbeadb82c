import Interlinear.Gloss.Printer
import Interlinear.Proofs.Gloss.Reading
import Mathlib

/-!
# Reading what was written and writing what was read

Writing the gloss of a text gives the text back without its question marks and without the signs
that the mode makes redundant.  The other way round, a written gloss is read back unchanged exactly
when it is canonical, apart from the empty bare word of the mode.  A canonical gloss is one that has
a derivation: its words are words, no row and no list of names is empty, and no inflection is the
direct stem of another one.

Both follow from one fact about derivations: the gloss that a derivation stands for is written as
the text of the derivation without marks.
-/

namespace Interlinear

/-- The sign before a word that stands for what a bare word stands for as well. -/
def Mode.redundantSign : Mode → Char
  | implicitPointers => '*'
  | implicitLiterals => '^'

theorem Mode.redundantSign_mem (mode : Mode) : mode.redundantSign ∈ Gloss.punctuation := by
  cases mode <;> simp [Mode.redundantSign, Gloss.punctuation]

namespace Gloss

open Outcome

/-- Whether writing keeps a character of a text that was read. -/
def isKept (mode : Mode) (c : Char) : Bool :=
  c ≠ '?' && c ≠ mode.redundantSign

/-- A text without question marks and redundant signs. -/
def withoutMarks (mode : Mode) (raw : String) : String :=
  String.ofList (raw.toList.filter (isKept mode))

theorem isKept_of_isWordChar (mode : Mode) {c : Char} (hc : isWordChar c = true) :
    isKept mode c = true := by
  have hmem := ((isWordChar_iff c).mp hc).2
  have hmark : c ≠ '?' := by
    rintro rfl
    exact hmem (by simp [punctuation])
  have hsign : c ≠ mode.redundantSign := by
    rintro rfl
    exact hmem mode.redundantSign_mem
  simp [isKept, hmark, hsign]

theorem isKept_of_shape (mode : Mode) {c : Char} (hc : c ∈ ['#', '[', ']', '+']) :
    isKept mode c = true := by
  simp only [List.mem_cons, List.not_mem_nil, or_false] at hc
  rcases hc with rfl | rfl | rfl | rfl <;> cases mode <;> decide

theorem Word.filter_chars (mode : Mode) (word : Word) :
    word.chars.filter (isKept mode) = word.chars := by
  rw [List.filter_eq_self]
  intro c hc
  exact isKept_of_isWordChar mode (word.isWordChar_of_mem hc)

theorem filter_namesText (mode : Mode) (names : List Word) :
    (namesText names).filter (isKept mode) = namesText names := by
  rw [List.filter_eq_self]
  intro c hc
  simp only [namesText, List.mem_flatMap, List.mem_cons] at hc
  obtain ⟨name, _, rfl | hname⟩ := hc
  · exact isKept_of_shape mode (by simp)
  · exact isKept_of_isWordChar mode (name.isWordChar_of_mem hname)

theorem filter_markText (mode : Mode) (marked : Bool) :
    (markText marked).filter (isKept mode) = [] := by
  cases marked with
  | false => rfl
  | true => simp [markText, isKept]

/-! ### Writing what a derivation stands for -/

def Derivation.plainText (mode : Mode) (derivation : Derivation) : String :=
  String.ofList (derivation.text.filter (isKept mode))

def TermDerivation.plainText (mode : Mode) (term : TermDerivation) : String :=
  String.ofList (term.text.filter (isKept mode))

theorem Derivation.plainText_gloss
    (mode : Mode) (marked : Bool) (term : TermDerivation) (names : List Word) :
    (Derivation.gloss marked term names).plainText mode =
      term.plainText mode ++ String.ofList (namesText names) := by
  simp [Derivation.plainText, TermDerivation.plainText, Derivation.text, filter_markText,
    filter_namesText]

theorem intercalate_names (stem : String) (names : List Word) :
    "#".intercalate (stem :: names.map Word.text) = stem ++ String.ofList (namesText names) := by
  induction names generalizing stem with
  | nil => simp [namesText]
  | cons name names ih =>
      rw [List.map_cons, String.intercalate_cons_cons, ih]
      apply String.toList_inj.mp
      simp [namesText, Word.chars]

theorem intercalate_others (mode : Mode) (first : String) (others : List Derivation) :
    "+".intercalate (first :: others.map (Derivation.plainText mode)) =
      first ++ String.ofList ((othersText others).filter (isKept mode)) := by
  induction others generalizing first with
  | nil => simp [othersText]
  | cons other others ih =>
      have hplus : isKept mode '+' = true := isKept_of_shape mode (by simp)
      rw [List.map_cons, String.intercalate_cons_cons, ih]
      apply String.toList_inj.mp
      simp [othersText, Derivation.plainText, hplus]

theorem TermDerivation.plainText_row
    (mode : Mode) (first : Derivation) (others : List Derivation) :
    (TermDerivation.row first others).plainText mode =
      "[" ++ "+".intercalate
        (first.plainText mode :: others.map (Derivation.plainText mode)) ++ "]" := by
  have hopen : isKept mode '[' = true := isKept_of_shape mode (by simp)
  have hclose : isKept mode ']' = true := isKept_of_shape mode (by simp)
  rw [intercalate_others]
  apply String.toList_inj.mp
  simp [TermDerivation.plainText, TermDerivation.text, Derivation.plainText, hopen, hclose]

theorem Word.plainText (mode : Mode) (word : Word) :
    String.ofList (word.chars.filter (isKept mode)) = word.text := by
  rw [word.filter_chars]
  exact String.ofList_toList

theorem Word.plainText_kept
    {mode : Mode} {sign : Char} (hsign : isKept mode sign = true) (word : Word) :
    String.ofList ((sign :: word.chars).filter (isKept mode)) =
      String.ofList [sign] ++ word.text := by
  rw [List.filter_cons_of_pos hsign, ← word.plainText mode, ← String.ofList_append]
  rfl

theorem Word.plainText_redundant
    {mode : Mode} {sign : Char} (hsign : isKept mode sign = false) (word : Word) :
    String.ofList ((sign :: word.chars).filter (isKept mode)) = word.text := by
  rw [List.filter_cons_of_neg (by simp [hsign]), word.plainText]

theorem print_literal (mode : Mode) (word : Word) :
    print mode (literal word.text) = .ok ((TermDerivation.literal word).plainText mode) := by
  cases mode with
  | implicitPointers =>
      rw [TermDerivation.plainText, TermDerivation.text, Word.plainText_kept (by decide)]
      rfl
  | implicitLiterals =>
      rw [TermDerivation.plainText, TermDerivation.text, Word.plainText_redundant (by decide)]
      rfl

theorem print_pointer (mode : Mode) (word : Word) :
    print mode (pointer word.text) = .ok ((TermDerivation.pointer word).plainText mode) := by
  cases mode with
  | implicitPointers =>
      rw [TermDerivation.plainText, TermDerivation.text, Word.plainText_redundant (by decide)]
      rfl
  | implicitLiterals =>
      rw [TermDerivation.plainText, TermDerivation.text, Word.plainText_kept (by decide)]
      rfl

theorem print_bare (mode : Mode) (word : Word) :
    print mode (mode.bare word.text) = .ok ((TermDerivation.bare word).plainText mode) := by
  rw [TermDerivation.plainText, TermDerivation.text, word.plainText]
  cases mode with
  | implicitPointers => rfl
  | implicitLiterals => rfl

mutual
/-- What a derivation stands for is written as the text of the derivation without marks. -/
theorem print_meaning (mode : Mode) :
    (derivation : Derivation) →
    print mode (derivation.meaning mode) = .ok (derivation.plainText mode)
  | .gloss marked term [] => by
      rw [Derivation.meaning, print_termMeaning mode term, Derivation.plainText_gloss]
      simp [namesText]
  | .gloss marked term (name :: names) => by
      rw [Derivation.meaning, print, print_termMeaning mode term, ok_bind, intercalate_names,
        Derivation.plainText_gloss]
      rfl
theorem print_termMeaning (mode : Mode) :
    (term : TermDerivation) → print mode (term.meaning mode) = .ok (term.plainText mode)
  | .row first others => by
      rw [TermDerivation.meaning, print, printAll, print_meaning mode first, ok_bind,
        printAll_meanings mode others, ok_bind, TermDerivation.plainText_row]
      rfl
  | .literal word => print_literal mode word
  | .pointer word => print_pointer mode word
  | .bare word => print_bare mode word
theorem printAll_meanings (mode : Mode) :
    (others : List Derivation) →
    printAll mode (meanings mode others) = .ok (others.map (Derivation.plainText mode))
  | [] => rfl
  | first :: others => by
      rw [meanings, printAll, print_meaning mode first, ok_bind, printAll_meanings mode others,
        ok_bind]
      rfl
end

theorem print_bare_empty (mode : Mode) : print mode (mode.bare "") = .ok "" := by
  cases mode with
  | implicitPointers => rfl
  | implicitLiterals => rfl

theorem print_of_derives {mode : Mode} {raw : String} {gloss : Gloss}
    (h : Derives mode raw gloss) : print mode gloss = .ok (withoutMarks mode raw) := by
  obtain ⟨derivation, htext, rfl⟩ := h
  rw [print_meaning, Derivation.plainText, htext, withoutMarks]

/-- Writing what was read loses the question marks and the redundant signs and nothing else. -/
theorem print_of_parse {mode : Mode} {raw : String} {gloss : Gloss}
    (h : parse mode raw = .ok gloss) : print mode gloss = .ok (withoutMarks mode raw) := by
  by_cases hraw : raw = "" ∨ raw = "?"
  · rw [parse_bare hraw, Except.ok.injEq] at h
    subst h
    rw [print_bare_empty]
    rcases hraw with rfl | rfl <;> cases mode <;> rfl
  · exact print_of_derives (derives_of_parse hraw h)

theorem print_of_parse_marked_row :
    parse .implicitLiterals "?[^pre+?*see]#PL" =
        .ok (inflection (compound [literal "pre", pointer "see"]) ["PL"]) ∧
      print .implicitLiterals (inflection (compound [literal "pre", pointer "see"]) ["PL"]) =
        .ok "[pre+*see]#PL" := by
  have hparse :
      parse .implicitLiterals "?[^pre+?*see]#PL" =
        .ok (inflection (compound [literal "pre", pointer "see"]) ["PL"]) := by
    cbv
  have htext : withoutMarks .implicitLiterals "?[^pre+?*see]#PL" = "[pre+*see]#PL" := by
    cbv
  refine ⟨hparse, ?_⟩
  rw [← htext]
  exact print_of_parse hparse

/-! ### Canonical glosses -/

def isInflection : Gloss → Bool
  | inflection _ _ => true
  | _ => false

mutual
/-- Words are words, nothing is empty, and no inflection is the direct stem of another one. -/
def Canonical : Gloss → Prop
  | literal text => IsWord text
  | pointer id => IsWord id
  | inflection stem names =>
      stem.Canonical ∧ stem.isInflection = false ∧ names ≠ [] ∧ ∀ name ∈ names, IsWord name
  | compound elements => elements ≠ [] ∧ AllCanonical elements
  | stray _ => False
def AllCanonical : List Gloss → Prop
  | [] => True
  | g :: gs => g.Canonical ∧ AllCanonical gs
end

theorem canonical_bare (mode : Mode) (word : Word) : (mode.bare word.text).Canonical := by
  cases mode with
  | implicitPointers => exact word.isWord
  | implicitLiterals => exact word.isWord

theorem isInflection_termMeaning (mode : Mode) (term : TermDerivation) :
    (term.meaning mode).isInflection = false := by
  cases term with
  | row first others => rfl
  | literal word => rfl
  | pointer word => rfl
  | bare word => cases mode <;> rfl

mutual
theorem canonical_meaning (mode : Mode) :
    (derivation : Derivation) → (derivation.meaning mode).Canonical
  | .gloss _ term [] => canonical_termMeaning mode term
  | .gloss _ term (name :: names) => by
      refine ⟨canonical_termMeaning mode term, isInflection_termMeaning mode term, by simp, ?_⟩
      intro text htext
      obtain ⟨word, _, rfl⟩ := List.mem_map.mp htext
      exact word.isWord
theorem canonical_termMeaning (mode : Mode) :
    (term : TermDerivation) → (term.meaning mode).Canonical
  | .row first others =>
      ⟨by simp, canonical_meaning mode first, allCanonical_meanings mode others⟩
  | .literal word => word.isWord
  | .pointer word => word.isWord
  | .bare word => canonical_bare mode word
theorem allCanonical_meanings (mode : Mode) :
    (others : List Derivation) → AllCanonical (meanings mode others)
  | [] => trivial
  | first :: others => ⟨canonical_meaning mode first, allCanonical_meanings mode others⟩
end

/-- A derivation that writing leaves as it is. -/
def Derivation.IsPlain (mode : Mode) (derivation : Derivation) : Prop :=
  ∀ c ∈ derivation.text, isKept mode c = true

def TermDerivation.IsPlain (mode : Mode) (term : TermDerivation) : Prop :=
  ∀ c ∈ term.text, isKept mode c = true

theorem Derivation.IsPlain.gloss
    {mode : Mode} {term : TermDerivation} (hterm : term.IsPlain mode) (names : List Word) :
    (Derivation.gloss false term names).IsPlain mode := by
  intro c hc
  simp only [Derivation.text, markText, Bool.false_eq_true, if_false, List.nil_append,
    List.mem_append] at hc
  rcases hc with hc | hc
  · exact hterm c hc
  · rw [← filter_namesText mode names] at hc
    exact (List.mem_filter.mp hc).2

theorem Word.isKept_of_mem (mode : Mode) (word : Word) {c : Char} (hc : c ∈ word.chars) :
    isKept mode c = true :=
  isKept_of_isWordChar mode (word.isWordChar_of_mem hc)

theorem Word.isKept_of_mem_signed
    {mode : Mode} {sign : Char} (hsign : isKept mode sign = true) (word : Word) {c : Char}
    (hc : c ∈ sign :: word.chars) : isKept mode c = true := by
  rcases List.mem_cons.mp hc with rfl | hc
  · exact hsign
  · exact word.isKept_of_mem mode hc

theorem exists_plain_literal (mode : Mode) (word : Word) :
    ∃ term : TermDerivation, term.meaning mode = literal word.text ∧ term.IsPlain mode := by
  cases mode with
  | implicitLiterals =>
      exact ⟨.bare word, rfl, fun c hc => word.isKept_of_mem _ hc⟩
  | implicitPointers =>
      have hsign : isKept .implicitPointers '^' = true := by decide
      exact ⟨.literal word, rfl, fun c hc => word.isKept_of_mem_signed hsign hc⟩

theorem exists_plain_pointer (mode : Mode) (word : Word) :
    ∃ term : TermDerivation, term.meaning mode = pointer word.text ∧ term.IsPlain mode := by
  cases mode with
  | implicitPointers =>
      exact ⟨.bare word, rfl, fun c hc => word.isKept_of_mem _ hc⟩
  | implicitLiterals =>
      have hsign : isKept .implicitLiterals '*' = true := by decide
      exact ⟨.pointer word, rfl, fun c hc => word.isKept_of_mem_signed hsign hc⟩

theorem exists_words {texts : List String} (h : ∀ text ∈ texts, IsWord text) :
    ∃ words : List Word, words.map Word.text = texts :=
  ⟨texts.pmap Word.mk h, by simp [List.map_pmap]⟩

mutual
/-- A canonical gloss has a plain derivation, without names where the gloss is no inflection. -/
theorem Canonical.exists_plain (mode : Mode) :
    (gloss : Gloss) → gloss.Canonical →
    ∃ (term : TermDerivation) (names : List Word),
      (Derivation.gloss false term names).meaning mode = gloss ∧ term.IsPlain mode ∧
        (gloss.isInflection = false → names = [])
  | literal text, h => by
      obtain ⟨term, hmeaning, hplain⟩ := exists_plain_literal mode ⟨text, h⟩
      exact ⟨term, [], hmeaning, hplain, fun _ => rfl⟩
  | pointer id, h => by
      obtain ⟨term, hmeaning, hplain⟩ := exists_plain_pointer mode ⟨id, h⟩
      exact ⟨term, [], hmeaning, hplain, fun _ => rfl⟩
  | inflection stem names, h => by
      obtain ⟨hstem, hflat, hne, hnames⟩ := h
      -- The stem is no inflection, so that the names of its derivation are free for this one.
      obtain ⟨term, stemNames, hmeaning, hplain, hnone⟩ := Canonical.exists_plain mode stem hstem
      obtain rfl := hnone hflat
      obtain ⟨words, rfl⟩ := exists_words hnames
      cases words with
      | nil => exact absurd rfl hne
      | cons word words =>
          have hterm : term.meaning mode = stem := hmeaning
          refine ⟨term, word :: words, ?_, hplain, by simp [isInflection]⟩
          rw [Derivation.meaning, hterm]
  | compound [], h => absurd rfl h.1
  | compound (first :: others), h => by
      obtain ⟨_, hfirst, hothers⟩ := h
      obtain ⟨term, names, rfl, hterm, _⟩ := Canonical.exists_plain mode first hfirst
      obtain ⟨derivations, rfl, hplain⟩ := AllCanonical.exists_plain mode others hothers
      refine ⟨.row (.gloss false term names) derivations, [], rfl, ?_, fun _ => rfl⟩
      intro c hc
      simp only [TermDerivation.text, List.mem_cons, List.mem_append, List.not_mem_nil,
        or_false] at hc
      rcases hc with rfl | (hc | hc) | rfl
      · exact isKept_of_shape mode (by simp)
      · exact Derivation.IsPlain.gloss hterm names c hc
      · exact hplain c hc
      · exact isKept_of_shape mode (by simp)
theorem AllCanonical.exists_plain (mode : Mode) :
    (glosses : List Gloss) → AllCanonical glosses →
    ∃ others : List Derivation,
      meanings mode others = glosses ∧ ∀ c ∈ othersText others, isKept mode c = true
  | [], _ => ⟨[], rfl, by simp [othersText]⟩
  | first :: glosses, h => by
      obtain ⟨hfirst, hothers⟩ := h
      obtain ⟨term, names, rfl, hterm, _⟩ := Canonical.exists_plain mode first hfirst
      obtain ⟨derivations, rfl, hplain⟩ := AllCanonical.exists_plain mode glosses hothers
      refine ⟨.gloss false term names :: derivations, rfl, ?_⟩
      intro c hc
      simp only [othersText, List.mem_cons, List.mem_append] at hc
      rcases hc with rfl | hc | hc
      · exact isKept_of_shape mode (by simp)
      · exact Derivation.IsPlain.gloss hterm names c hc
      · exact hplain c hc
end

theorem Canonical.exists_derives (mode : Mode) {gloss : Gloss} (h : gloss.Canonical) :
    ∃ text, print mode gloss = .ok text ∧ Derives mode text gloss := by
  obtain ⟨term, names, rfl, hterm, _⟩ := Canonical.exists_plain mode gloss h
  have hplain := Derivation.IsPlain.gloss hterm names
  refine ⟨_, print_meaning mode _, .gloss false term names, ?_, rfl⟩
  rw [Derivation.plainText, String.toList_ofList, List.filter_eq_self.mpr hplain]

theorem Derives.canonical {mode : Mode} {raw : String} {gloss : Gloss}
    (h : Derives mode raw gloss) : gloss.Canonical := by
  obtain ⟨derivation, _, rfl⟩ := h
  exact canonical_meaning mode derivation

/-! ### Glosses without a written form -/

/-- A gloss has no written form, whatever stands where a gloss is due. -/
def PrintError.IsGap : PrintError → Prop
  | noNames _ => True
  | emptyCompound => True
  | notGloss _ => False

mutual
/-- Somewhere a list of names or a row of elements is empty. -/
def HasGap : Gloss → Prop
  | inflection stem names => names = [] ∨ stem.HasGap
  | compound elements => elements = [] ∨ AnyGap elements
  | _ => False
def AnyGap : List Gloss → Prop
  | [] => False
  | g :: gs => g.HasGap ∨ AnyGap gs
end

/-- An outcome is an error for a gap where there is one, and a value otherwise. -/
inductive Written {α : Type} (gap : Prop) : Except PrintError α → Prop
  | none {e : PrintError} (hgap : gap) (he : e.IsGap) : Written gap (.error e)
  | some {a : α} (hgap : ¬ gap) : Written gap (.ok a)

theorem Written.exists_error_iff {α : Type} {gap : Prop} {outcome : Except PrintError α}
    (h : Written gap outcome) : (∃ e, outcome = .error e ∧ e.IsGap) ↔ gap := by
  cases h with
  | none hgap he => exact ⟨fun _ => hgap, fun _ => ⟨_, rfl, he⟩⟩
  | some hgap => exact ⟨fun ⟨_, he, _⟩ => by simp at he, fun h => absurd h hgap⟩

theorem Written.exists_ok_iff {α : Type} {gap : Prop} {outcome : Except PrintError α}
    (h : Written gap outcome) : (∃ a, outcome = .ok a) ↔ ¬ gap := by
  cases h with
  | none hgap he => exact ⟨fun ⟨_, ha⟩ => by simp at ha, fun h => absurd hgap h⟩
  | some hgap => exact ⟨fun _ => hgap, fun _ => ⟨_, rfl⟩⟩

mutual
theorem written_print (mode : Mode) :
    (gloss : Gloss) → gloss.WellTyped → Written gloss.HasGap (print mode gloss)
  | literal _, _ => .some id
  | pointer _, _ => .some id
  | inflection _ [], _ => .none (.inl rfl) trivial
  | inflection stem (name :: names), htyped => by
      have hstem := written_print mode stem htyped
      rw [print, if_neg (by simp)]
      generalize print mode stem = outcome at hstem ⊢
      cases hstem with
      | none hgap he => exact .none (.inr hgap) he
      | some hgap => exact .some (by simp [HasGap, hgap])
  | compound [], _ => .none (.inl rfl) trivial
  | compound (first :: others), htyped => by
      have helements := written_printAll mode (first :: others) htyped
      rw [print, if_neg (by simp)]
      generalize printAll mode (first :: others) = outcome at helements ⊢
      cases helements with
      | none hgap he => exact .none (.inr hgap) he
      | some hgap => exact .some (by simp [HasGap, hgap])
theorem written_printAll (mode : Mode) :
    (glosses : List Gloss) → AllWellTyped glosses →
    Written (AnyGap glosses) (printAll mode glosses)
  | [], _ => .some id
  | first :: others, htyped => by
      have hfirst := written_print mode first htyped.1
      have hothers := written_printAll mode others htyped.2
      rw [printAll]
      generalize print mode first = firstOutcome at hfirst ⊢
      generalize printAll mode others = othersOutcome at hothers ⊢
      cases hfirst with
      | none hgap he => exact .none (.inl hgap) he
      | some hgapFirst =>
          cases hothers with
          | none hgap he => exact .none (.inr hgap) he
          | some hgap => exact .some (by simp [AnyGap, hgapFirst, hgap])
end

/-! ### The round trip -/

/-- A gloss with an empty list of names or elements has no written form, every other gloss has one.
What is written is read back unchanged exactly for canonical glosses and the empty bare word, so
every text but the two of the empty bare word can be converted between the modes. -/
theorem print_roundTrip_iff_canonical (mode : Mode) (gloss : Gloss) (hgloss : gloss.WellTyped) :
    ((∃ e, print mode gloss = .error e ∧ e.IsGap) ↔ gloss.HasGap) ∧
    ((∃ text, print mode gloss = .ok text) ↔ ¬ gloss.HasGap) ∧
    ((∃ text, print mode gloss = .ok text ∧ parse mode text = .ok gloss) ↔
      gloss.Canonical ∨ gloss = mode.bare "") ∧
    (∀ (source target : Mode) (raw : String) (parsed : Gloss),
      raw ≠ "" → raw ≠ "?" → parse source raw = .ok parsed →
        ∃ text, print target parsed = .ok text ∧ parse target text = .ok parsed) := by
  have hwritten := written_print mode gloss hgloss
  refine ⟨hwritten.exists_error_iff, hwritten.exists_ok_iff, ?_, ?_⟩
  · constructor
    · rintro ⟨text, _, hparse⟩
      by_cases htext : text = "" ∨ text = "?"
      · rw [parse_bare htext, Except.ok.injEq] at hparse
        exact .inr hparse.symm
      · exact .inl (derives_of_parse htext hparse).canonical
    · rintro (hcanonical | rfl)
      · obtain ⟨text, hprint, hderives⟩ := hcanonical.exists_derives mode
        exact ⟨text, hprint, parse_of_derives hderives⟩
      · exact ⟨"", print_bare_empty mode, parse_bare (.inl rfl)⟩
  · intro source target raw parsed hempty hmark hparse
    have hderives := derives_of_parse (not_or.mpr ⟨hempty, hmark⟩) hparse
    obtain ⟨text, hprint, hback⟩ := hderives.canonical.exists_derives target
    exact ⟨text, hprint, parse_of_derives hback⟩

theorem print_roundTrip_inflected_row :
    (inflection (compound [literal "pre", pointer "see"]) ["PL"]).WellTyped ∧
      ∃ text,
        print .implicitPointers (inflection (compound [literal "pre", pointer "see"]) ["PL"]) =
            .ok text ∧
          parse .implicitPointers text =
            .ok (inflection (compound [literal "pre", pointer "see"]) ["PL"]) := by
  have htyped : (inflection (compound [literal "pre", pointer "see"]) ["PL"]).WellTyped :=
    ⟨trivial, trivial, trivial⟩
  have hcanonical :
      (inflection (compound [literal "pre", pointer "see"]) ["PL"]).Canonical := by
    have hpre : IsWord "pre" := by decide
    have hsee : IsWord "see" := by decide
    have hname : IsWord "PL" := by decide
    exact ⟨⟨by simp, hpre, hsee, trivial⟩, rfl, by simp, by simpa using hname⟩
  exact ⟨htyped, (print_roundTrip_iff_canonical .implicitPointers _ htyped).2.2.1.mpr
    (.inl hcanonical)⟩

end Gloss

end Interlinear
