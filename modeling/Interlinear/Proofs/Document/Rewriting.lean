import Interlinear.Document.Render
import Interlinear.Proofs.Document.Layout
import Interlinear.Proofs.Gloss.RoundTrip

/-!
# Translating documents rewrites their words

Reading a document fails exactly when one of its words is no gloss, with the fault of the first such
word.  A document that reads is translated into its own text with every word replaced by the
translation of its gloss, and nothing else is lost, repeated or moved.  A source that goes with a
translation is the word without its asterisks, which is read back as the same gloss.

The segments of a document spell out its layout, with an empty passage wherever a region does not
begin or end with a word.  This is shown for a region, and then along the layout.
-/

namespace Interlinear.Document

open Outcome

/-- What a word stands for. -/
def Glosses (word : String) (gloss : Gloss) : Prop :=
  Gloss.parse .implicitPointers word = .ok gloss

/-- The fault of the first word that is no gloss. -/
def FirstFault (words : List String) (fault : Gloss.ParseError) : Prop :=
  ∃ before word after, words = before ++ word :: after ∧
    (∀ other ∈ before, ∃ gloss, Glosses other gloss) ∧
    Gloss.parse .implicitPointers word = .error fault

/-- The segments spell out the parts, apart from empty passages. -/
inductive Spells : List Part → List Segment → Prop
  | nil : Spells [] []
  | blank {parts : List Part} {segments : List Segment} (h : Spells parts segments) :
      Spells parts (.passthrough "" :: segments)
  | kept (text : String) {parts : List Part} {segments : List Segment}
      (h : Spells parts segments) : Spells (.kept text :: parts) (.passthrough text :: segments)
  | word {text : String} {gloss : Gloss} {parts : List Part} {segments : List Segment}
      (hgloss : Glosses text gloss) (h : Spells parts segments) :
      Spells (.word text :: parts) (.glossed gloss :: segments)

/-- What reading the parts comes to. -/
inductive ReadsAs (parts : List Part) : Except Gloss.ParseError (List Segment) → Prop
  | segments {segments : List Segment} (h : Spells parts segments) : ReadsAs parts (.ok segments)
  | fault {fault : Gloss.ParseError} (h : FirstFault (words parts) fault) :
      ReadsAs parts (.error fault)

theorem Spells.append {parts others : List Part} {segments more : List Segment}
    (h : Spells parts segments) (hmore : Spells others more) :
    Spells (parts ++ others) (segments ++ more) := by
  induction h with
  | nil => exact hmore
  | blank _ ih => exact .blank ih
  | kept text _ ih => exact .kept text ih
  | word hgloss _ ih => exact .word hgloss ih

theorem Spells.exists_glosses {parts : List Part} {segments : List Segment}
    (h : Spells parts segments) : ∀ word ∈ words parts, ∃ gloss, Glosses word gloss := by
  induction h with
  | nil => simp [words]
  | blank _ ih => exact ih
  | kept text _ ih => exact ih
  | @word text gloss parts segments hgloss _ ih =>
      intro word hword
      rcases List.mem_cons.mp hword with rfl | hword
      · exact ⟨gloss, hgloss⟩
      · exact ih word hword

theorem FirstFault.append_right {texts : List String} {fault : Gloss.ParseError}
    (h : FirstFault texts fault) (others : List String) : FirstFault (texts ++ others) fault := by
  obtain ⟨before, word, after, rfl, hbefore, hword⟩ := h
  exact ⟨before, word, after ++ others, by simp, hbefore, hword⟩

theorem FirstFault.append_left {texts others : List String} {fault : Gloss.ParseError}
    (h : FirstFault others fault) (htexts : ∀ word ∈ texts, ∃ gloss, Glosses word gloss) :
    FirstFault (texts ++ others) fault := by
  obtain ⟨before, word, after, rfl, hbefore, hword⟩ := h
  refine ⟨texts ++ before, word, after, by simp, ?_, hword⟩
  intro other hother
  rcases List.mem_append.mp hother with hother | hother
  · exact htexts other hother
  · exact hbefore other hother

/-- Parts in a row are read one after the other, up to the first fault. -/
theorem ReadsAs.append {parts others : List Part}
    {first second : Except Gloss.ParseError (List Segment)} (hfirst : ReadsAs parts first)
    (hsecond : ReadsAs others second) :
    ReadsAs (parts ++ others) (do
      let segments ← first
      let more ← second
      .ok (segments ++ more)) := by
  cases hfirst with
  | fault hfault =>
      rw [error_bind]
      refine .fault ?_
      rw [words_append]
      exact hfault.append_right _
  | segments hsegments =>
      rw [ok_bind]
      cases hsecond with
      | segments hmore => exact .segments (hsegments.append hmore)
      | fault hfault =>
          rw [error_bind]
          refine .fault ?_
          rw [words_append]
          exact hfault.append_left hsegments.exists_glosses

theorem readsAs_kept (text : String) : ReadsAs [.kept text] (.ok [.passthrough text]) :=
  .segments (.kept text .nil)

/-! ### Reading the parts of a layout -/

theorem readRun_readsAs {part : Part}
    (hkind : isSeparatorRun part.text.toList = !part.isWord) :
    ReadsAs [part] ((readRun part.text.toList).map fun segment => [segment]) := by
  rw [readRun, hkind, String.ofList_toList]
  cases part with
  | kept text => exact readsAs_kept text
  | word text =>
      simp only [Part.isWord, Part.text, Bool.not_true, Bool.false_eq_true, if_false]
      cases hparse : Gloss.parse .implicitPointers text with
      | ok gloss => exact .segments (.word hparse .nil)
      | error fault => exact .fault ⟨[], text, [], rfl, by simp, hparse⟩

theorem readRuns_readsAs {parts : List Part}
    (hkind : ∀ part ∈ parts, isSeparatorRun part.text.toList = !part.isWord) :
    ReadsAs parts (readRuns (parts.map fun part => part.text.toList)) := by
  induction parts with
  | nil => exact .segments .nil
  | cons part parts ih =>
      have hfirst := readRun_readsAs (hkind part (by simp))
      have hothers := ih fun other hother => hkind other (List.mem_cons_of_mem _ hother)
      have happend := hfirst.append hothers
      rw [List.map_cons, readRuns]
      cases hrun : readRun part.text.toList with
      | error fault =>
          rw [hrun] at happend
          exact happend
      | ok segment =>
          rw [hrun] at happend
          exact happend

theorem spells_edgePassage (run? : Option (List Char)) : Spells [] (edgePassage run?) := by
  cases run? with
  | none => exact .blank .nil
  | some run =>
      rw [edgePassage]
      by_cases hrun : isSeparatorRun run = true
      · rw [if_pos hrun]
        exact .blank .nil
      · rw [if_neg hrun]
        exact .nil

theorem readRegion_readsAs {region : List Char} {parts : List Part}
    (h : RegionParts region parts) : ReadsAs parts (readRegion region) := by
  have hruns := readRuns_readsAs fun part hpart => h.isSeparatorRun_eq hpart
  rw [← h.runs_eq] at hruns
  rw [readRegion]
  generalize readRuns (runs region) = outcome at hruns ⊢
  cases hruns with
  | fault hfault => exact .fault hfault
  | segments hsegments =>
      have hfirst := spells_edgePassage (runs region).head?
      have hlast : Spells [] (((runs region).getLast?.map fun run =>
          edgePassage (some run)).getD []) := by
        cases (runs region).getLast? with
        | none => exact .nil
        | some run => exact spells_edgePassage (some run)
      have hspells := (hfirst.append hsegments).append hlast
      rw [List.nil_append, List.append_nil] at hspells
      exact .segments hspells

/-- The segments from the start of a stretch on. -/
def readFrom (isGlossed : Bool) (stretches : List (List Char)) :
    Except Gloss.ParseError (List Segment) :=
  if isGlossed then readRegions stretches else readProse stretches

def readStretch (isGlossed : Bool) (stretch : List Char) :
    Except Gloss.ParseError (List Segment) :=
  if isGlossed then readRegion stretch else .ok [.passthrough (String.ofList stretch)]

theorem readFrom_singleton (isGlossed : Bool) (stretch : List Char) :
    readFrom isGlossed [stretch] = readStretch isGlossed stretch := by
  cases isGlossed with
  | false => simp [readFrom, readStretch, readProse]
  | true => simp [readFrom, readStretch, readRegions]

theorem readFrom_cons (isGlossed : Bool) (stretch : List Char) {others : List (List Char)}
    (hothers : others ≠ []) :
    readFrom isGlossed (stretch :: others) = (do
      let segments ← readStretch isGlossed stretch
      let more ← (do
        let mark ← (.ok [.passthrough marker] : Except Gloss.ParseError (List Segment))
        let more ← readFrom (!isGlossed) others
        .ok (mark ++ more))
      .ok (segments ++ more)) := by
  cases isGlossed with
  | false =>
      simp only [readFrom, readStretch, Bool.false_eq_true, if_false, Bool.not_false, if_true,
        ok_bind]
      rw [readProse]
      · cases readRegions others <;> rfl
      · exact hothers
  | true =>
      simp only [readFrom, readStretch, if_true, Bool.not_true, Bool.false_eq_true, if_false,
        ok_bind]
      rw [readRegions]
      · cases readRegion stretch with
        | error fault => rfl
        | ok segments => cases readProse others <;> rfl
      · exact hothers

theorem StretchParts.readsAs {isGlossed : Bool} {stretch : List Char} {parts : List Part}
    (h : StretchParts isGlossed stretch parts) : ReadsAs parts (readStretch isGlossed stretch) := by
  cases isGlossed with
  | false =>
      have hparts : parts = [.kept (String.ofList stretch)] := h
      rw [hparts]
      exact readsAs_kept _
  | true => exact readRegion_readsAs h

theorem LaidOut.readsAs {isGlossed : Bool} {cs : List Char} {parts : List Part}
    (h : LaidOut isGlossed cs parts) : ReadsAs parts (readFrom isGlossed (stretches cs)) := by
  induction h with
  | last hfree hparts =>
      rw [stretches_eq_of_free hfree, readFrom_singleton]
      exact hparts.readsAs
  | @marked isGlossed stretch rest parts others hfirst hparts _ ih =>
      rw [stretches_marked hfirst, readFrom_cons isGlossed stretch (stretches_ne_nil rest)]
      exact hparts.readsAs.append ((readsAs_kept marker).append ih)

theorem LaidOut.parse_readsAs {raw : String} {parts : List Part}
    (h : LaidOut false raw.toList parts) : ReadsAs parts (parse raw) :=
  h.readsAs

theorem FirstFault.not_glosses {texts : List String} {fault : Gloss.ParseError}
    (h : FirstFault texts fault) : ∃ word ∈ texts, ∀ gloss, ¬ Glosses word gloss := by
  obtain ⟨before, word, after, rfl, -, hword⟩ := h
  refine ⟨word, by simp, ?_⟩
  intro gloss hgloss
  rw [Glosses, hword] at hgloss
  cases hgloss

theorem FirstFault.unique {texts : List String} {fault other : Gloss.ParseError}
    (h : FirstFault texts fault) (hother : FirstFault texts other) : other = fault := by
  obtain ⟨before, word, after, rfl, hbefore, hword⟩ := h
  obtain ⟨otherBefore, otherWord, otherAfter, htexts, hotherBefore, hotherWord⟩ := hother
  have hfirst : ∀ {text : String} {texts : List String} {e : Gloss.ParseError},
      (∀ other ∈ texts, ∃ gloss, Glosses other gloss) →
        Gloss.parse .implicitPointers text = .error e → text ∉ texts := by
    intro text texts e htexts herror hmem
    obtain ⟨gloss, hgloss⟩ := htexts text hmem
    rw [Glosses, herror] at hgloss
    cases hgloss
  -- Neither word stands before the other, since all words before either of them are glosses.
  rcases List.append_eq_append_iff.mp htexts with ⟨more, rfl, hmore⟩ | ⟨more, rfl, hmore⟩
  · cases more with
    | nil =>
        obtain ⟨rfl, -⟩ := List.cons.inj hmore
        rw [hword] at hotherWord
        exact (Except.error.inj hotherWord).symm
    | cons next more =>
        obtain ⟨rfl, -⟩ := List.cons.inj hmore
        exact absurd (by simp) (hfirst hotherBefore hword)
  · cases more with
    | nil =>
        obtain ⟨rfl, -⟩ := List.cons.inj hmore
        rw [hword] at hotherWord
        exact (Except.error.inj hotherWord).symm
    | cons next more =>
        obtain ⟨rfl, -⟩ := List.cons.inj hmore
        exact absurd (by simp) (hfirst hbefore hotherWord)

theorem LaidOut.parse_eq_error_iff {raw : String} {parts : List Part}
    (h : LaidOut false raw.toList parts) (fault : Gloss.ParseError) :
    parse raw = .error fault ↔ FirstFault (words parts) fault := by
  have hreads := h.parse_readsAs
  constructor
  · intro herror
    rw [herror] at hreads
    cases hreads with
    | fault hfault => exact hfault
  · intro hfault
    generalize parse raw = outcome at hreads ⊢
    cases hreads with
    | fault hother => rw [hfault.unique hother]
    | segments hsegments =>
        obtain ⟨word, hword, hnone⟩ := hfault.not_glosses
        obtain ⟨gloss, hgloss⟩ := hsegments.exists_glosses word hword
        exact absurd hgloss (hnone gloss)

theorem LaidOut.parse_fails_iff {raw : String} {parts : List Part}
    (h : LaidOut false raw.toList parts) :
    (∃ fault, parse raw = .error fault) ↔ ∃ word ∈ words parts, ∀ gloss, ¬ Glosses word gloss := by
  constructor
  · rintro ⟨fault, herror⟩
    exact ((h.parse_eq_error_iff fault).mp herror).not_glosses
  · rintro ⟨word, hword, hnone⟩
    have hreads := h.parse_readsAs
    generalize parse raw = outcome at hreads ⊢
    cases hreads with
    | fault hfault => exact ⟨_, rfl⟩
    | segments hsegments =>
        obtain ⟨gloss, hgloss⟩ := hsegments.exists_glosses word hword
        exact absurd hgloss (hnone gloss)

/-! ### Rendering the segments of a layout -/

/-- A word without its asterisks, which are redundant in documents. -/
def withoutStars (word : String) : String :=
  String.ofList (word.toList.filter (· != '*'))

/-- What stands for a word whose translation is given. -/
def shown (sources : Bool) (word translation : String) : String :=
  if sources then
    "<x-out>" ++ translation ++ "<x-src>" ++ withoutStars word ++ "</x-src></x-out>"
  else translation

theorem withoutMarks_eq_withoutStars {word : String}
    (hword : ∀ c ∈ word.toList, isSeparator c = false) :
    Gloss.withoutMarks .implicitPointers word = withoutStars word := by
  rw [Gloss.withoutMarks, withoutStars]
  congr 1
  apply List.filter_congr
  intro c hc
  have hmark : c ≠ '?' := by
    rintro rfl
    have hseparator : isSeparator '?' = true := by decide
    rw [hword _ hc] at hseparator
    cases hseparator
  have hkept : Gloss.isKept .implicitPointers c = true ↔ c ≠ '*' := by
    rw [Gloss.isKept, Bool.and_eq_true, decide_eq_true_iff, decide_eq_true_iff]
    exact and_iff_right hmark
  rw [Bool.eq_iff_iff, hkept, bne_iff_ne]

/-- The source of a word is written from its gloss, and is read as that gloss again. -/
theorem source_of_glosses {word : String} {gloss : Gloss} (hne : word ≠ "")
    (hword : ∀ c ∈ word.toList, isSeparator c = false) (hgloss : Glosses word gloss) :
    gloss.print .implicitPointers = .ok (withoutStars word) ∧
      Glosses (withoutStars word) gloss := by
  have hmark : word ≠ "?" := by
    rintro rfl
    have hseparator : isSeparator '?' = false := hword '?' (by simp)
    exact absurd hseparator (by decide)
  have hderives := Gloss.derives_of_parse (not_or.mpr ⟨hne, hmark⟩) hgloss
  have hprint := Gloss.print_of_derives hderives
  obtain ⟨text, htext, hback⟩ := hderives.canonical.exists_derives .implicitPointers
  rw [hprint, Except.ok.injEq, withoutMarks_eq_withoutStars hword] at htext
  subst htext
  rw [withoutMarks_eq_withoutStars hword] at hprint
  exact ⟨hprint, Gloss.parse_of_derives hback⟩

variable {ε : Type} {translate : Gloss → Except ε String} {sources : Bool}

theorem renderSegment_glossed {word : String} {gloss : Gloss} (hne : word ≠ "")
    (hword : ∀ c ∈ word.toList, isSeparator c = false) (hgloss : Glosses word gloss)
    {translation : String} (htranslate : translate gloss = .ok translation) :
    renderSegment translate sources (.glossed gloss) = .ok (shown sources word translation) := by
  obtain ⟨hprint, -⟩ := source_of_glosses hne hword hgloss
  rw [renderSegment, htranslate, mapError_ok, ok_bind]
  cases sources with
  | false => rfl
  | true =>
      rw [if_pos rfl, hprint, mapError_ok, ok_bind]
      rfl

theorem renderSegment_fails {gloss : Gloss} {e : ε} (htranslate : translate gloss = .error e) :
    renderSegment translate sources (.glossed gloss) = .error (.translation e) := by
  rw [renderSegment, htranslate, mapError_error, error_bind]

/-- What rendering the words comes to: each gets its text, or one of them is the first to fail. -/
theorem Spells.render_eq_ok {parts : List Part} {segments : List Segment}
    (h : Spells parts segments) {surface : String → String}
    (hsurface : ∀ word ∈ words parts, ∀ gloss, Glosses word gloss →
      renderSegment translate sources (.glossed gloss) = .ok (surface word)) :
    render translate sources segments = .ok (rewrite surface parts) := by
  induction h with
  | nil => rfl
  | blank _ ih =>
      rw [render, renderSegment, ok_bind, ih hsurface, ok_bind, String.empty_append]
  | kept text _ ih =>
      rw [render, renderSegment, ok_bind, ih hsurface, ok_bind, rewrite_cons]
      rfl
  | word hgloss _ ih =>
      have hfirst := hsurface _ (List.mem_cons_self ..) _ hgloss
      have hothers := ih fun word hword => hsurface word (List.mem_cons_of_mem _ hword)
      rw [render, hfirst, ok_bind, hothers, ok_bind, rewrite_cons]
      rfl

theorem Spells.render_eq_error {parts : List Part} {segments : List Segment}
    (h : Spells parts segments) {before after : List String} {word : String}
    (hwords : words parts = before ++ word :: after)
    (hbefore : ∀ other ∈ before, ∀ gloss, Glosses other gloss →
      ∃ text, renderSegment translate sources (.glossed gloss) = .ok text)
    {e : RenderError ε} (hword : ∀ gloss, Glosses word gloss →
      renderSegment translate sources (.glossed gloss) = .error e) :
    render translate sources segments = .error e := by
  induction h generalizing before with
  | nil => simp [words] at hwords
  | blank _ ih =>
      rw [render, renderSegment, ok_bind, ih hwords hbefore, error_bind]
  | kept text _ ih =>
      rw [render, renderSegment, ok_bind, ih hwords hbefore, error_bind]
  | @word text gloss parts segments hgloss _ ih =>
      have hcons : words (.word text :: parts) = text :: words parts := rfl
      rw [hcons] at hwords
      cases before with
      | nil =>
          obtain ⟨rfl, -⟩ := List.cons.inj hwords
          rw [render, hword gloss hgloss, error_bind]
      | cons other before =>
          obtain ⟨rfl, htail⟩ := List.cons.inj hwords
          obtain ⟨rendered, hrendered⟩ := hbefore text (by simp) gloss hgloss
          have hothers := ih htail fun other hother =>
            hbefore other (List.mem_cons_of_mem _ hother)
          rw [render, hrendered, ok_bind, hothers, error_bind]

theorem LaidOut.exists_spells {raw : String} {parts : List Part}
    (h : LaidOut false raw.toList parts)
    (hwords : ∀ word ∈ words parts, ∃ gloss, Glosses word gloss) :
    ∃ segments, parse raw = .ok segments ∧ Spells parts segments := by
  have hreads := h.parse_readsAs
  generalize parse raw = outcome at hreads ⊢
  cases hreads with
  | segments hsegments => exact ⟨_, rfl, hsegments⟩
  | fault hfault =>
      obtain ⟨word, hword, hnone⟩ := hfault.not_glosses
      obtain ⟨gloss, hgloss⟩ := hwords word hword
      exact absurd hgloss (hnone gloss)

/-- A document has one layout.  It fails to be read exactly when one of its words is no gloss, with
the fault of the first.  Otherwise its translation is the document with every word replaced by what
is shown for it, or the first failure among the translations; and the source that is shown for a word
is read as the gloss of the word. -/
theorem translate_eq_rewrite (raw : String) :
    ∃ parts : List Part, LaidOut false raw.toList parts ∧
      (∀ others, LaidOut false raw.toList others → others = parts) ∧
      rewrite id parts = raw ∧
      ((∃ fault, parse raw = .error fault) ↔
        ∃ word ∈ words parts, ∀ gloss, ¬ Glosses word gloss) ∧
      (∀ fault, parse raw = .error fault ↔ FirstFault (words parts) fault) ∧
      ∀ glossOf : String → Gloss, (∀ word ∈ words parts, Glosses word (glossOf word)) →
        (∀ word ∈ words parts, Glosses (withoutStars word) (glossOf word)) ∧
        ∀ (ε : Type) (translate : Gloss → Except ε String) (sources : Bool),
          (∀ surface : String → String,
            (∀ word ∈ words parts, translate (glossOf word) = .ok (surface word)) →
              Document.translate translate sources raw =
                .ok (rewrite (fun word => shown sources word (surface word)) parts)) ∧
          ∀ (before after : List String) (word : String) (e : ε),
            words parts = before ++ word :: after →
            (∀ other ∈ before, ∃ text, translate (glossOf other) = .ok text) →
            translate (glossOf word) = .error e →
              Document.translate translate sources raw = .error (.render (.translation e)) := by
  obtain ⟨parts, hlaid⟩ := exists_laidOut false raw.toList
  refine ⟨parts, hlaid, fun others hothers => hlaid.eq hothers, ?_, hlaid.parse_fails_iff,
    hlaid.parse_eq_error_iff, ?_⟩
  · exact String.toList_inj.mp hlaid.chars_eq
  intro glossOf hglossOf
  have hunique : ∀ word ∈ words parts, ∀ gloss, Glosses word gloss → gloss = glossOf word := by
    intro word hword gloss hgloss
    have hparse := hglossOf word hword
    rw [Glosses, hgloss] at hparse
    exact Except.ok.inj hparse
  obtain ⟨segments, hparse, hspells⟩ :=
    hlaid.exists_spells fun word hword => ⟨glossOf word, hglossOf word hword⟩
  have hrender : ∀ {word : String} (ε : Type) (translate : Gloss → Except ε String)
      (sources : Bool) (text : String), word ∈ words parts → translate (glossOf word) = .ok text →
        ∀ gloss, Glosses word gloss →
          renderSegment translate sources (.glossed gloss) = .ok (shown sources word text) := by
    intro word ε translate sources text hword htext gloss hgloss
    obtain ⟨hne, hchars⟩ := hlaid.isWordText hword
    obtain rfl := hunique word hword gloss hgloss
    exact renderSegment_glossed hne hchars hgloss htext
  refine ⟨?_, ?_⟩
  · intro word hword
    obtain ⟨hne, hchars⟩ := hlaid.isWordText hword
    exact (source_of_glosses hne hchars (hglossOf word hword)).2
  intro ε translate sources
  refine ⟨?_, ?_⟩
  · intro surface hsurface
    have hsegments := hspells.render_eq_ok fun word hword =>
      hrender ε translate sources (surface word) hword (hsurface word hword)
    rw [Document.translate, hparse, mapError_ok, ok_bind, hsegments, mapError_ok]
  · intro before after word e hwords hbefore hword
    have hfails : ∀ gloss, Glosses word gloss →
        renderSegment translate sources (.glossed gloss) = .error (.translation e) := by
      intro gloss hgloss
      obtain rfl := hunique word (by simp [hwords]) gloss hgloss
      exact renderSegment_fails hword
    have hrendered : ∀ other ∈ before, ∀ gloss, Glosses other gloss →
        ∃ text, renderSegment translate sources (.glossed gloss) = .ok text := by
      intro other hother gloss hgloss
      obtain ⟨text, htext⟩ := hbefore other hother
      exact ⟨_, hrender ε translate sources text (by simp [hwords, hother]) htext gloss hgloss⟩
    have hsegments := hspells.render_eq_error hwords hrendered hfails
    rw [Document.translate, hparse, mapError_ok, ok_bind, hsegments, mapError_error]

/-- The second marker closes a region, and the third opens one that is not closed. -/
def bearsText : String := "one __*bear#PL, see__ two __you"

def bearsParts : List Part :=
  [.kept "one ", .kept marker, .word "*bear#PL", .kept ", ", .word "see", .kept marker,
    .kept " two ", .kept marker, .word "you"]

theorem laidOut_bears : LaidOut false bearsText.toList bearsParts := by
  have hclosed : StretchParts true "*bear#PL, see".toList
      [.word "*bear#PL", .kept ", ", .word "see"] := {
    chars_eq := by decide
    text_ne := by simp [Part.text]
    isSeparator_eq := by simp [Part.text, Part.isWord]; decide
    alternate := by simp [Part.isWord] }
  have hopen : StretchParts true "you".toList [.word "you"] := {
    chars_eq := by decide
    text_ne := by simp [Part.text]
    isSeparator_eq := by simp [Part.text, Part.isWord]; decide
    alternate := by simp }
  have hlast : LaidOut true "you".toList [.word "you"] := .last (by decide) hopen
  have hprose : LaidOut false " two __you".toList _ :=
    @LaidOut.marked false " two ".toList "you".toList [.kept " two "] _ (by decide) rfl hlast
  have hregion : LaidOut true "*bear#PL, see__ two __you".toList _ :=
    @LaidOut.marked true "*bear#PL, see".toList " two __you".toList _ _ (by decide) hclosed hprose
  exact @LaidOut.marked false "one ".toList "*bear#PL, see__ two __you".toList [.kept "one "] _
    (by decide) rfl hregion

theorem translate_eq_rewrite_bears :
    Glosses "*bear#PL" (.inflection (.pointer "bear") ["PL"]) ∧
      Glosses "see" (.pointer "see") ∧ Glosses "you" (.pointer "you") ∧
      Document.translate (fun _ => (.ok "arth" : Except Empty String)) true bearsText =
        .ok ("one __<x-out>arth<x-src>bear#PL</x-src></x-out>, " ++
          "<x-out>arth<x-src>see</x-src></x-out>__ two " ++
          "__<x-out>arth<x-src>you</x-src></x-out>") := by
  have hbear : Glosses "*bear#PL" (.inflection (.pointer "bear") ["PL"]) := by
    unfold Glosses
    cbv
  have hsee : Glosses "see" (.pointer "see") := by
    unfold Glosses
    cbv
  have hyou : Glosses "you" (.pointer "you") := by
    unfold Glosses
    cbv
  obtain ⟨parts, -, hunique, -, -, -, hrewrite⟩ := translate_eq_rewrite bearsText
  obtain rfl := hunique bearsParts laidOut_bears
  let glossOf : String → Gloss := fun word =>
    if word = "*bear#PL" then .inflection (.pointer "bear") ["PL"] else .pointer word
  have hglossOf : ∀ word ∈ words bearsParts, Glosses word (glossOf word) := by
    intro word hword
    rw [mem_words_iff] at hword
    have hcases : word = "*bear#PL" ∨ word = "see" ∨ word = "you" := by
      simpa [bearsParts] using hword
    rcases hcases with rfl | rfl | rfl
    · exact hbear
    · exact hsee
    · exact hyou
  obtain ⟨-, htranslate⟩ := hrewrite glossOf hglossOf
  refine ⟨hbear, hsee, hyou, ?_⟩
  exact (htranslate Empty _ true).1 (fun _ => "arth") fun word _ => rfl

end Interlinear.Document
