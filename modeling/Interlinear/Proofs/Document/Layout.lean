import Interlinear.Document.Basic
import Mathlib

/-!
# The layout of documents

A document is laid out in parts: text that is kept, and words.  Its markers are found from left to
right, each as early as possible after the one before, so that no stretch between markers, together
with the first sign of the marker after it, holds a marker.  The stretches are prose and glossed in
turn.  Prose and markers are kept.  In a glossed stretch the parts are the maximal runs of separators,
which are kept, and of other characters, which are words.

Every text has exactly one layout.  What is said here of a layout does not mention how documents are
read; the stretches and runs of the reader are shown to be those of the layout.
-/

namespace Interlinear.Document

inductive Part where
  | kept (text : String)
  | word (text : String)

namespace Part

def text : Part → String
  | kept text => text
  | word text => text

def isWord : Part → Bool
  | kept _ => false
  | word _ => true

def word? : Part → Option String
  | kept _ => none
  | word text => some text

def rewrite (f : String → String) : Part → String
  | kept text => text
  | word text => f text

end Part

/-- The words of a layout, from left to right. -/
def words (parts : List Part) : List String :=
  parts.filterMap Part.word?

/-- The text of a layout with other words. -/
def rewrite (f : String → String) (parts : List Part) : String :=
  String.join (parts.map (Part.rewrite f))

/-- The parts of a glossed stretch are its maximal runs of separators and of other characters. -/
structure RegionParts (region : List Char) (parts : List Part) : Prop where
  chars_eq : parts.flatMap (fun part => part.text.toList) = region
  text_ne : ∀ part ∈ parts, part.text ≠ ""
  isSeparator_eq : ∀ part ∈ parts, ∀ c ∈ part.text.toList, isSeparator c = !part.isWord
  alternate : parts.IsChain fun a b => a.isWord ≠ b.isWord

def StretchParts (isGlossed : Bool) (stretch : List Char) (parts : List Part) : Prop :=
  if isGlossed then RegionParts stretch parts else parts = [.kept (String.ofList stretch)]

/-- The layout of a text that begins in prose or in a glossed stretch. -/
inductive LaidOut : (isGlossed : Bool) → List Char → List Part → Prop
  | last {isGlossed : Bool} {stretch : List Char} {parts : List Part}
      (hfree : ¬ marker.toList <:+: stretch) (hparts : StretchParts isGlossed stretch parts) :
      LaidOut isGlossed stretch parts
  | marked {isGlossed : Bool} {stretch rest : List Char} {parts others : List Part}
      (hfirst : ¬ marker.toList <:+: stretch ++ ['_'])
      (hparts : StretchParts isGlossed stretch parts) (hrest : LaidOut (!isGlossed) rest others) :
      LaidOut isGlossed (stretch ++ marker.toList ++ rest) (parts ++ .kept marker :: others)

theorem toList_marker : marker.toList = ['_', '_'] := rfl

/-! ### Markers -/

theorem marker_infix_cons_iff (c : Char) (cs : List Char) :
    marker.toList <:+: c :: cs ↔ c = '_' ∧ cs.head? = some '_' ∨ marker.toList <:+: cs := by
  rw [toList_marker, List.infix_cons_iff]
  cases cs with
  | nil => simp
  | cons d ds => simp [eq_comm]

theorem stretchesAfter_eq_of_free {before cs : List Char} (h : ¬ marker.toList <:+: cs) :
    stretchesAfter before cs = [before.reverse ++ cs] := by
  induction cs generalizing before with
  | nil => simp [stretchesAfter]
  | cons c cs ih =>
      rw [marker_infix_cons_iff, not_or] at h
      obtain ⟨hhead, htail⟩ := h
      rw [stretchesAfter, ih htail]
      · simp
      · rintro rest rfl rfl
        exact hhead ⟨rfl, rfl⟩

theorem stretchesAfter_marked {before stretch rest : List Char}
    (h : ¬ marker.toList <:+: stretch ++ ['_']) :
    stretchesAfter before (stretch ++ marker.toList ++ rest) =
      (before.reverse ++ stretch) :: stretches rest := by
  induction stretch generalizing before with
  | nil => simp [toList_marker, stretchesAfter, stretches]
  | cons c cs ih =>
      rw [List.cons_append, marker_infix_cons_iff, not_or] at h
      obtain ⟨hhead, htail⟩ := h
      rw [List.cons_append, List.cons_append, stretchesAfter, ih htail]
      · simp
      · intro others hc hcs
        -- The next character is the first sign of the marker or stands before it in the stretch.
        apply hhead
        refine ⟨hc, ?_⟩
        cases cs with
        | nil => rfl
        | cons d ds => simpa using congrArg List.head? hcs

theorem stretches_eq_of_free {cs : List Char} (h : ¬ marker.toList <:+: cs) :
    stretches cs = [cs] :=
  stretchesAfter_eq_of_free h

theorem stretches_marked {stretch : List Char} (h : ¬ marker.toList <:+: stretch ++ ['_'])
    (rest : List Char) :
    stretches (stretch ++ marker.toList ++ rest) = stretch :: stretches rest :=
  stretchesAfter_marked h

theorem stretches_ne_nil (cs : List Char) : stretches cs ≠ [] := by
  suffices h : ∀ before, stretchesAfter before cs ≠ [] from h []
  intro before
  fun_induction stretchesAfter before cs with
  | case1 => simp
  | case2 _ _ _ _ ih => exact ih
  | case3 => simp

/-- A text without markers is one stretch; any other text has a first marker. -/
theorem free_or_marked (cs : List Char) :
    ¬ marker.toList <:+: cs ∨
      ∃ stretch rest, cs = stretch ++ marker.toList ++ rest ∧
        ¬ marker.toList <:+: stretch ++ ['_'] := by
  induction cs with
  | nil => exact .inl (by simp [toList_marker])
  | cons c cs ih =>
      by_cases hhead : c = '_' ∧ cs.head? = some '_'
      · obtain ⟨rfl, hcs⟩ := hhead
        obtain ⟨rest, rfl⟩ := List.head?_eq_some_iff.mp hcs
        have hlone : ¬ marker.toList <:+: [] ++ ['_'] := by decide
        exact .inr ⟨[], rest, rfl, hlone⟩
      · rcases ih with hfree | ⟨stretch, rest, rfl, hfirst⟩
        · exact .inl (by simp [marker_infix_cons_iff, hhead, hfree])
        · refine .inr ⟨c :: stretch, rest, rfl, ?_⟩
          have hnext : ¬ (c = '_' ∧ (stretch ++ ['_']).head? = some '_') := by
            cases stretch with
            | nil => simpa [toList_marker] using hhead
            | cons d ds => simpa using hhead
          rw [List.cons_append, marker_infix_cons_iff]
          exact not_or.mpr ⟨hnext, hfirst⟩

/-! ### Runs -/

theorem isSeparator_of_mem_run {region run : List Char} (hrun : run ∈ runs region) {c : Char}
    (hc : c ∈ run) : isSeparator c = isSeparatorRun run := by
  have hchain := List.isChain_of_mem_splitBy hrun
  cases run with
  | nil => simp at hc
  | cons d ds =>
      have hpairwise : (d :: ds).Pairwise fun a b => isSeparator a = isSeparator b :=
        (hchain.imp fun a b hab => by simpa using hab).pairwise
      rcases List.mem_cons.mp hc with rfl | hc
      · rfl
      · exact (List.rel_of_pairwise_cons hpairwise hc).symm

def Part.ofRun (run : List Char) : Part :=
  if isSeparatorRun run then .kept (String.ofList run) else .word (String.ofList run)

theorem Part.toList_text_ofRun (run : List Char) : (Part.ofRun run).text.toList = run := by
  unfold Part.ofRun
  split <;> simp [Part.text]

theorem Part.isWord_ofRun (run : List Char) : (Part.ofRun run).isWord = !isSeparatorRun run := by
  unfold Part.ofRun
  split <;> simp_all [Part.isWord]

theorem regionParts_runs (region : List Char) :
    RegionParts region ((runs region).map Part.ofRun) where
  chars_eq := by
    simp only [List.flatMap_map, Part.toList_text_ofRun, List.flatMap_id']
    exact List.flatten_splitBy _ region
  text_ne := by
    intro part hpart
    obtain ⟨run, hrun, rfl⟩ := List.mem_map.mp hpart
    have hne : run ≠ [] := List.ne_nil_of_mem_splitBy hrun
    rw [ne_eq, ← String.toList_eq_nil_iff, Part.toList_text_ofRun]
    exact hne
  isSeparator_eq := by
    intro part hpart c hc
    obtain ⟨run, hrun, rfl⟩ := List.mem_map.mp hpart
    rw [Part.toList_text_ofRun] at hc
    rw [Part.isWord_ofRun, Bool.not_not]
    exact isSeparator_of_mem_run hrun hc
  alternate := by
    rw [List.isChain_map]
    refine (List.isChain_getLast_head_splitBy _ region).imp_of_mem_imp ?_
    rintro a b ha hb ⟨hane, hbne, hdiffer⟩
    rw [isSeparator_of_mem_run ha (List.getLast_mem hane),
      isSeparator_of_mem_run hb (List.head_mem hbne)] at hdiffer
    simpa [Part.isWord_ofRun] using hdiffer

theorem RegionParts.runs_eq {region : List Char} {parts : List Part}
    (h : RegionParts region parts) : runs region = parts.map fun part => part.text.toList := by
  have hchars : ∀ part ∈ parts, part.text.toList ≠ [] := by
    intro part hpart
    rw [ne_eq, String.toList_eq_nil_iff]
    exact h.text_ne part hpart
  rw [runs, List.splitBy_eq_iff]
  refine ⟨?_, ?_, ?_, ?_⟩
  · rw [← h.chars_eq, List.flatMap_def]
  · intro hnil
    obtain ⟨part, hpart, hempty⟩ := List.mem_map.mp hnil
    exact hchars part hpart hempty
  · intro run hrun
    obtain ⟨part, hpart, rfl⟩ := List.mem_map.mp hrun
    have hpairwise : part.text.toList.Pairwise fun a b =>
        (isSeparator a == isSeparator b) = true := by
      rw [List.pairwise_iff_forall_sublist]
      intro a b hab
      have ha := h.isSeparator_eq part hpart a (hab.subset (by simp))
      have hb := h.isSeparator_eq part hpart b (hab.subset (by simp))
      simp [ha, hb]
    exact hpairwise.isChain
  · rw [List.isChain_map]
    refine h.alternate.imp_of_mem_imp ?_
    intro a b ha hb hdiffer
    refine ⟨hchars a ha, hchars b hb, ?_⟩
    rw [h.isSeparator_eq a ha _ (List.getLast_mem _), h.isSeparator_eq b hb _ (List.head_mem _)]
    simpa using hdiffer

theorem RegionParts.isSeparatorRun_eq {region : List Char} {parts : List Part}
    (h : RegionParts region parts) {part : Part} (hpart : part ∈ parts) :
    isSeparatorRun part.text.toList = !part.isWord := by
  have hne : part.text.toList ≠ [] := by
    rw [ne_eq, String.toList_eq_nil_iff]
    exact h.text_ne part hpart
  cases hchars : part.text.toList with
  | nil => exact absurd hchars hne
  | cons c cs => exact h.isSeparator_eq part hpart c (by simp [hchars])

theorem RegionParts.eq_ofRun {region : List Char} {parts : List Part}
    (h : RegionParts region parts) : parts = (runs region).map Part.ofRun := by
  have hofRun : ∀ part ∈ parts, Part.ofRun part.text.toList = part := by
    intro part hpart
    have hkind := h.isSeparatorRun_eq hpart
    cases part with
    | kept text => simpa [Part.ofRun, Part.text, Part.isWord] using hkind
    | word text => simpa [Part.ofRun, Part.text, Part.isWord] using hkind
  calc
    parts = parts.map id := (List.map_id parts).symm
    _ = parts.map (Part.ofRun ∘ fun part => part.text.toList) :=
      (List.map_congr_left hofRun).symm
    _ = (runs region).map Part.ofRun := by rw [h.runs_eq, List.map_map]

/-! ### The layout -/

theorem stretchParts_exists (isGlossed : Bool) (stretch : List Char) :
    ∃ parts, StretchParts isGlossed stretch parts := by
  cases isGlossed with
  | false => exact ⟨_, rfl⟩
  | true => exact ⟨_, regionParts_runs stretch⟩

theorem StretchParts.eq {isGlossed : Bool} {stretch : List Char} {parts others : List Part}
    (h : StretchParts isGlossed stretch parts) (hothers : StretchParts isGlossed stretch others) :
    others = parts := by
  cases isGlossed with
  | false =>
      have hparts : parts = [.kept (String.ofList stretch)] := h
      rw [hparts]
      exact hothers
  | true =>
      have hparts : RegionParts stretch parts := h
      have hregion : RegionParts stretch others := hothers
      rw [hparts.eq_ofRun, hregion.eq_ofRun]

theorem exists_laidOut (isGlossed : Bool) (cs : List Char) :
    ∃ parts, LaidOut isGlossed cs parts := by
  induction hlength : cs.length using Nat.strong_induction_on generalizing isGlossed cs with
  | h length ih =>
      rcases free_or_marked cs with hfree | ⟨stretch, rest, rfl, hfirst⟩
      · obtain ⟨parts, hparts⟩ := stretchParts_exists isGlossed cs
        exact ⟨parts, .last hfree hparts⟩
      · have hshorter : rest.length < length := by
          rw [← hlength]
          simp [toList_marker]
          omega
        obtain ⟨parts, hparts⟩ := stretchParts_exists isGlossed stretch
        obtain ⟨others, hothers⟩ := ih rest.length hshorter (!isGlossed) rest rfl
        exact ⟨_, .marked hfirst hparts hothers⟩

theorem LaidOut.eq {isGlossed : Bool} {cs : List Char} {parts others : List Part}
    (h : LaidOut isGlossed cs parts) (hothers : LaidOut isGlossed cs others) :
    others = parts := by
  induction h generalizing others with
  | last hfree hparts =>
      cases hothers with
      | last _ hothers => exact hparts.eq hothers
      | marked _ _ _ =>
          exact absurd (List.infix_append _ _ _) hfree
  | @marked isGlossed stretch rest parts after hfirst hparts hrest ih =>
      have hstretches := stretches_marked hfirst rest
      generalize hcs : stretch ++ marker.toList ++ rest = cs at hothers hstretches
      cases hothers with
      | last hfree _ =>
          rw [← hcs] at hfree
          exact absurd (List.infix_append _ _ _) hfree
      | @marked _ otherStretch otherRest otherParts otherAfter hotherFirst hotherParts hotherRest =>
          -- Both markers are the first one, so the stretches before them are one stretch.
          rw [stretches_marked hotherFirst, List.cons.injEq] at hstretches
          obtain rfl := hstretches.1
          obtain rfl := List.append_cancel_left hcs
          rw [hparts.eq hotherParts, ih hotherRest]

theorem words_append (parts others : List Part) :
    words (parts ++ others) = words parts ++ words others :=
  List.filterMap_append

theorem mem_words_iff (text : String) (parts : List Part) :
    text ∈ words parts ↔ Part.word text ∈ parts := by
  rw [words, List.mem_filterMap]
  constructor
  · rintro ⟨part, hpart, htext⟩
    cases part with
    | kept other => simp [Part.word?] at htext
    | word other =>
        obtain rfl : other = text := by simpa [Part.word?] using htext
        exact hpart
  · intro hpart
    exact ⟨_, hpart, rfl⟩

@[simp]
theorem rewrite_nil (f : String → String) : rewrite f [] = "" := rfl

@[simp]
theorem rewrite_cons (f : String → String) (part : Part) (parts : List Part) :
    rewrite f (part :: parts) = part.rewrite f ++ rewrite f parts := by
  simp [rewrite]

theorem rewrite_append (f : String → String) (parts others : List Part) :
    rewrite f (parts ++ others) = rewrite f parts ++ rewrite f others := by
  simp [rewrite]

theorem toList_rewrite_id (parts : List Part) :
    (rewrite id parts).toList = parts.flatMap fun part => part.text.toList := by
  induction parts with
  | nil => rfl
  | cons part parts ih =>
      have hpart : part.rewrite id = part.text := by cases part <;> rfl
      rw [rewrite_cons, String.toList_append, ih, hpart, List.flatMap_cons]

theorem StretchParts.chars_eq {isGlossed : Bool} {stretch : List Char} {parts : List Part}
    (h : StretchParts isGlossed stretch parts) : (rewrite id parts).toList = stretch := by
  rw [toList_rewrite_id]
  cases isGlossed with
  | false =>
      have hparts : parts = [.kept (String.ofList stretch)] := h
      simp [hparts, Part.text]
  | true => exact RegionParts.chars_eq h

/-- A layout spells out its text. -/
theorem LaidOut.chars_eq {isGlossed : Bool} {cs : List Char} {parts : List Part}
    (h : LaidOut isGlossed cs parts) : (rewrite id parts).toList = cs := by
  induction h with
  | last _ hparts => exact hparts.chars_eq
  | marked _ hparts _ ih =>
      rw [rewrite_append, rewrite_cons, String.toList_append, String.toList_append,
        hparts.chars_eq, ih, List.append_assoc]
      rfl

theorem StretchParts.isWordText {isGlossed : Bool} {stretch : List Char} {parts : List Part}
    (h : StretchParts isGlossed stretch parts) {word : String} (hword : word ∈ words parts) :
    word ≠ "" ∧ ∀ c ∈ word.toList, isSeparator c = false := by
  rw [mem_words_iff] at hword
  cases isGlossed with
  | false =>
      have hparts : parts = [.kept (String.ofList stretch)] := h
      simp [hparts] at hword
  | true =>
      have hregion : RegionParts stretch parts := h
      exact ⟨hregion.text_ne _ hword, hregion.isSeparator_eq _ hword⟩

/-- Words are not empty and hold no separators. -/
theorem LaidOut.isWordText {isGlossed : Bool} {cs : List Char} {parts : List Part}
    (h : LaidOut isGlossed cs parts) {word : String} (hword : word ∈ words parts) :
    word ≠ "" ∧ ∀ c ∈ word.toList, isSeparator c = false := by
  induction h with
  | last _ hparts => exact hparts.isWordText hword
  | marked _ hparts _ ih =>
      rw [words_append, List.mem_append] at hword
      rcases hword with hword | hword
      · exact hparts.isWordText hword
      · exact ih hword

end Interlinear.Document
