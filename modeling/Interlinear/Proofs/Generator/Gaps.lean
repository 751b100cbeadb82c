import Interlinear.Generator.Parser
import Interlinear.Numeral.Integer
import Mathlib

/-!
# Gaps between rules

A gap is a run of two or more line ends, with nothing but spaces, tabs and carriage returns before
each line feed.  A text is cut at its gaps, each taken as far as it goes on either side, and the
pieces that are not blank are the texts of rules.

The reader goes by lines.  Within a piece no line between two others is blank, since it would make a
gap with the line feed before it.  A gap ends one line, which may belong to a piece, and then has at
least one blank line.  So the runs of lines between blank lines are the pieces, apart from blank
ones, when the white space around them is taken off.
-/

namespace Interlinear.Generator

open Numeral (strip)

/-- Lines, each with a line feed. -/
def ended (lines : List (List Char)) : List Char :=
  lines.flatMap (· ++ ['\n'])

def IsGap (gap : List Char) : Prop :=
  ∃ lines, 2 ≤ lines.length ∧ (∀ line ∈ lines, isBlankLine line = true) ∧ ended lines = gap

def HasGap (cs : List Char) : Prop :=
  ∃ gap, IsGap gap ∧ gap <:+: cs

/-- The pieces of a text that is cut at its gaps, each as long as it can be on either side. -/
inductive IsCut : List Char → List (List Char) → Prop
  | whole {piece : List Char} (hpiece : ¬ HasGap piece) : IsCut piece [piece]
  | cut {piece gap rest : List Char} {pieces : List (List Char)} (hpiece : ¬ HasGap piece)
      (hgap : IsGap gap) (hleft : ∀ tail, tail <:+ piece → IsGap (tail ++ gap) → tail = [])
      (hright : ∀ head, head <+: rest → IsGap (gap ++ head) → head = [])
      (hrest : IsCut rest pieces) : IsCut (piece ++ gap ++ rest) (piece :: pieces)

theorem ended_cons (line : List Char) (lines : List (List Char)) :
    ended (line :: lines) = line ++ '\n' :: ended lines := by
  simp [ended]

theorem isGap_lineFeeds {line : List Char} (h : isBlankLine line = true) :
    IsGap ('\n' :: line ++ ['\n']) :=
  ⟨[[], line], le_rfl, by simpa using ⟨rfl, h⟩, by simp [ended]⟩

theorem IsGap.ne_nil {gap : List Char} (h : IsGap gap) : gap ≠ [] := by
  rintro rfl
  obtain ⟨lines, hlength, -, hended⟩ := h
  cases lines with
  | nil => simp at hlength
  | cons line lines => simp [ended_cons] at hended

theorem HasGap.of_infix {cs others : List Char} (h : HasGap cs) (hcs : cs <:+: others) :
    HasGap others := by
  obtain ⟨gap, hgap, hinfix⟩ := h
  exact ⟨gap, hgap, hinfix.trans hcs⟩

theorem count_lineFeed_le {gap : List Char} (h : IsGap gap) : 2 ≤ gap.count '\n' := by
  obtain ⟨lines, hlength, -, rfl⟩ := h
  have hcount : ∀ lines : List (List Char), lines.length ≤ (ended lines).count '\n' := by
    intro lines
    induction lines with
    | nil => exact Nat.zero_le _
    | cons line lines ih =>
        rw [ended_cons, List.count_append, List.count_cons_self, List.length_cons]
        omega
  exact hlength.trans (hcount lines)

theorem not_hasGap_of_count {cs : List Char} (h : cs.count '\n' < 2) : ¬ HasGap cs := by
  rintro ⟨gap, hgap, hinfix⟩
  have hcount := hinfix.sublist.count_le '\n'
  have hgapCount := count_lineFeed_le hgap
  omega

theorem isBlank_of_isBlankLine {line : List Char} (h : isBlankLine line = true) :
    ∀ c ∈ line, Unicode.isBlank c = true := by
  intro c hmem
  have hc := List.all_eq_true.mp h c hmem
  simp only [Bool.or_eq_true, beq_iff_eq] at hc
  rcases hc with (rfl | rfl) | rfl <;> rfl

theorem IsGap.isBlank_of_mem {gap : List Char} (h : IsGap gap) :
    ∀ c ∈ gap, Unicode.isBlank c = true := by
  obtain ⟨lines, -, hlines, rfl⟩ := h
  intro c hc
  obtain ⟨line, hline, hc⟩ := List.mem_flatMap.mp hc
  rcases List.mem_append.mp hc with hc | hc
  · exact isBlank_of_isBlankLine (hlines line hline) c hc
  · obtain rfl := List.mem_singleton.mp hc
    rfl

/-- A gap between characters that are not blank goes no farther. -/
theorem IsCut.cut_between {piece gap rest : List Char} {pieces : List (List Char)}
    (hpiece : ¬ HasGap piece) (hgap : IsGap gap)
    (hlast : ∀ c ∈ piece.getLast?, Unicode.isBlank c = false)
    (hfirst : ∀ c ∈ rest.head?, Unicode.isBlank c = false) (hrest : IsCut rest pieces) :
    IsCut (piece ++ gap ++ rest) (piece :: pieces) := by
  refine .cut hpiece hgap ?_ ?_ hrest
  · rintro tail ⟨before, rfl⟩ hlonger
    rcases List.eq_nil_or_concat tail with rfl | ⟨others, c, rfl⟩
    · rfl
    · have hblank := hlonger.isBlank_of_mem c (by simp)
      rw [hlast c (by simp)] at hblank
      cases hblank
  · rintro head ⟨after, rfl⟩ hlonger
    cases head with
    | nil => rfl
    | cons c head =>
        have hblank := hlonger.isBlank_of_mem c (by simp)
        rw [hfirst c (by simp)] at hblank
        cases hblank

/-! ### Every text can be cut -/

/-- The first gap of a text, taken as far as it goes to the right. -/
theorem exists_first_gap {cs : List Char} (h : HasGap cs) :
    ∃ before gap after, before ++ gap ++ after = cs ∧ IsGap gap ∧
      ∀ other otherGap otherAfter, other ++ otherGap ++ otherAfter = cs → IsGap otherGap →
        before.length ≤ other.length ∧
          (before.length = other.length → otherGap.length ≤ gap.length) := by
  classical
  have hstart : ∃ start before gap after, before ++ gap ++ after = cs ∧ IsGap gap ∧
      before.length = start := by
    obtain ⟨gap, hgap, before, after, hcs⟩ := h
    exact ⟨_, before, gap, after, hcs, hgap, rfl⟩
  have hstop : ∃ left before gap after, before ++ gap ++ after = cs ∧ IsGap gap ∧
      before.length = Nat.find hstart ∧ after.length = left := by
    obtain ⟨before, gap, after, hcs, hgap, hbefore⟩ := Nat.find_spec hstart
    exact ⟨_, before, gap, after, hcs, hgap, hbefore, rfl⟩
  obtain ⟨before, gap, after, hcs, hgap, hbefore, hafter⟩ := Nat.find_spec hstop
  refine ⟨before, gap, after, hcs, hgap, fun other otherGap otherAfter hother hotherGap => ⟨?_, ?_⟩⟩
  · rw [hbefore]
    exact Nat.find_min' hstart ⟨other, otherGap, otherAfter, hother, hotherGap, rfl⟩
  · intro hsame
    have hshortest : after.length ≤ otherAfter.length := by
      rw [hafter]
      exact Nat.find_min' hstop
        ⟨other, otherGap, otherAfter, hother, hotherGap, hsame.symm.trans hbefore, rfl⟩
    have hlength := congrArg List.length (hcs.trans hother.symm)
    simp only [List.length_append] at hlength
    omega

theorem exists_isCut (cs : List Char) : ∃ pieces, IsCut cs pieces := by
  induction hlength : cs.length using Nat.strongRecOn generalizing cs with
  | ind n ih =>
      by_cases h : HasGap cs
      · obtain ⟨before, gap, after, rfl, hgap, hfirst⟩ := exists_first_gap h
        have hgapLength := List.length_pos_of_ne_nil hgap.ne_nil
        have hshorter : after.length < n := by
          simp only [List.length_append] at hlength
          omega
        obtain ⟨pieces, hpieces⟩ := ih after.length hshorter after rfl
        refine ⟨before :: pieces, .cut ?_ hgap ?_ ?_ hpieces⟩
        · rintro ⟨inner, hinner, left, right, rfl⟩
          have hinnerLength := List.length_pos_of_ne_nil hinner.ne_nil
          have hearlier := (hfirst left inner (right ++ gap ++ after) (by simp) hinner).1
          simp only [List.length_append] at hearlier
          omega
        · rintro tail ⟨left, rfl⟩ htail
          have hearlier := (hfirst left (tail ++ gap) after (by simp) htail).1
          simpa using hearlier
        · rintro head ⟨right, rfl⟩ hhead
          have hlonger := (hfirst before (gap ++ head) right (by simp) hhead).2 rfl
          simpa using hlonger
      · exact ⟨[cs], .whole h⟩

/-! ### Lines -/

theorem linesAfter_append (line cs rest : List Char) :
    linesAfter line (cs ++ '\n' :: rest) = linesAfter line cs ++ lines rest := by
  induction cs generalizing line with
  | nil => simp [linesAfter, lines]
  | cons c cs ih =>
      rw [List.cons_append, linesAfter, linesAfter]
      split
      · rw [ih, List.cons_append]
      · exact ih _

theorem linesAfter_of_notMem (line : List Char) {cs : List Char} (h : '\n' ∉ cs) :
    linesAfter line cs = [line.reverse ++ cs] := by
  induction cs generalizing line with
  | nil => simp [linesAfter]
  | cons c cs ih =>
      have hc : c ≠ '\n' := fun heq => h (heq ▸ List.mem_cons_self)
      rw [linesAfter, if_neg hc, ih _ fun hmem => h (List.mem_cons_of_mem _ hmem)]
      simp

theorem linesAfter_ne_nil (line cs : List Char) : linesAfter line cs ≠ [] := by
  induction cs generalizing line with
  | nil => simp [linesAfter]
  | cons c cs ih =>
      rw [linesAfter]
      split
      · simp
      · exact ih _

theorem intercalate_cons {line : List Char} {lines : List (List Char)} (h : lines ≠ []) :
    ['\n'].intercalate (line :: lines) = line ++ '\n' :: ['\n'].intercalate lines := by
  obtain ⟨other, others, rfl⟩ := List.exists_cons_of_ne_nil h
  simp [List.intercalate]

/-- Joined by line feeds, the lines give the text. -/
theorem intercalate_linesAfter (line cs : List Char) :
    ['\n'].intercalate (linesAfter line cs) = line.reverse ++ cs := by
  induction cs generalizing line with
  | nil => simp [linesAfter, List.intercalate]
  | cons c cs ih =>
      rw [linesAfter]
      split
      next hc =>
          rw [intercalate_cons (linesAfter_ne_nil _ _), ih, hc]
          simp
      next => simp [ih]

theorem intercalate_append {before after : List (List Char)} (hbefore : before ≠ [])
    (hafter : after ≠ []) :
    ['\n'].intercalate (before ++ after) =
      ['\n'].intercalate before ++ '\n' :: ['\n'].intercalate after := by
  induction before with
  | nil => exact absurd rfl hbefore
  | cons line lines ih =>
      by_cases hlines : lines = []
      · subst hlines
        rw [List.singleton_append, intercalate_cons hafter]
        simp [List.intercalate]
      · rw [List.cons_append, intercalate_cons (by simp [hlines]), ih hlines,
          intercalate_cons hlines]
        simp

theorem lineFeed_notMem_of_isBlankLine {line : List Char} (h : isBlankLine line = true) :
    '\n' ∉ line := by
  intro hmem
  have hc := List.all_eq_true.mp h '\n' hmem
  simp at hc

theorem lines_ended_append {blanks : List (List Char)}
    (h : ∀ line ∈ blanks, isBlankLine line = true) (rest : List Char) :
    lines (ended blanks ++ rest) = blanks ++ lines rest := by
  induction blanks with
  | nil => rfl
  | cons line blanks ih =>
      obtain ⟨hline, hblanks⟩ := List.forall_mem_cons.mp h
      rw [ended_cons, List.append_assoc, List.cons_append, lines, linesAfter_append,
        linesAfter_of_notMem [] (lineFeed_notMem_of_isBlankLine hline), ih hblanks]
      rfl

/-- No line between two others is blank. -/
def IsUnbroken (lines : List (List Char)) : Prop :=
  ∀ before line after, lines = before ++ line :: after → before ≠ [] → after ≠ [] →
    isBlankLine line = false

theorem isUnbroken_lines {cs : List Char} (h : ¬ HasGap cs) : IsUnbroken (lines cs) := by
  intro before line after hlines hbefore hafter
  by_contra hblank
  have hgap : IsGap ('\n' :: line ++ ['\n']) := isGap_lineFeeds (by simpa using hblank)
  have hjoined : ['\n'].intercalate (lines cs) = cs := intercalate_linesAfter [] cs
  rw [hlines, intercalate_append hbefore (List.cons_ne_nil _ _), intercalate_cons hafter] at hjoined
  exact h ⟨_, hgap, ['\n'].intercalate before, ['\n'].intercalate after, by simp [← hjoined]⟩

/-! ### White space around a text -/

theorem strip_append_left {blanks : List Char} (h : ∀ c ∈ blanks, Unicode.isBlank c = true)
    (cs : List Char) : strip Unicode.isBlank (blanks ++ cs) = strip Unicode.isBlank cs := by
  rw [strip, strip, List.dropWhile_append_of_pos h]

theorem strip_append_right {blanks : List Char} (h : ∀ c ∈ blanks, Unicode.isBlank c = true)
    (cs : List Char) : strip Unicode.isBlank (cs ++ blanks) = strip Unicode.isBlank cs := by
  have hreverse : ∀ c ∈ blanks.reverse, Unicode.isBlank c = true := fun c hc =>
    h c (List.mem_reverse.mp hc)
  rw [strip, strip, List.dropWhile_append]
  split
  next hnil =>
      rw [List.isEmpty_iff] at hnil
      rw [hnil, List.dropWhile_eq_nil_iff.mpr h]
  next => rw [List.reverse_append, List.dropWhile_append_of_pos hreverse]

theorem exists_strip (cs : List Char) :
    ∃ before after, before ++ strip Unicode.isBlank cs ++ after = cs ∧
      (∀ c ∈ before, Unicode.isBlank c = true) ∧ ∀ c ∈ after, Unicode.isBlank c = true := by
  refine ⟨cs.takeWhile Unicode.isBlank,
    ((cs.dropWhile Unicode.isBlank).reverse.takeWhile Unicode.isBlank).reverse, ?_, ?_, ?_⟩
  · rw [strip, List.append_assoc, ← List.reverse_append, List.takeWhile_append_dropWhile,
      List.reverse_reverse, List.takeWhile_append_dropWhile]
  · exact fun c hc => List.mem_takeWhile_imp hc
  · exact fun c hc => List.mem_takeWhile_imp (List.mem_reverse.mp hc)

theorem strip_eq_nil_iff {cs : List Char} :
    strip Unicode.isBlank cs = [] ↔ ∀ c ∈ cs, Unicode.isBlank c = true := by
  constructor
  · intro h
    obtain ⟨before, after, hcs, hbefore, hafter⟩ := exists_strip cs
    rw [h, List.append_nil] at hcs
    rw [← hcs]
    exact List.forall_mem_append.mpr ⟨hbefore, hafter⟩
  · intro h
    rw [← List.append_nil cs, strip_append_left h]
    rfl

/-! ### Blocks of lines -/

/-- The texts of the runs of lines between blank lines, apart from blank texts. -/
def blockTexts (lines : List (List Char)) : List (List Char) :=
  ((blocksAfter [] lines).map blockText).filter (!·.isEmpty)

theorem blocksAfter_append {line : List Char} (h : isBlankLine line = true)
    (block before after : List (List Char)) :
    blocksAfter block (before ++ line :: after) =
      blocksAfter block before ++ blocksAfter [] after := by
  induction before generalizing block with
  | nil => simp [blocksAfter, h]
  | cons other before ih =>
      rw [List.cons_append, blocksAfter, blocksAfter]
      split
      · rw [ih, List.cons_append]
      · exact ih _

theorem blocksAfter_of_forall {lines : List (List Char)}
    (h : ∀ line ∈ lines, isBlankLine line = false) (block : List (List Char)) :
    blocksAfter block lines = [block ++ lines] := by
  induction lines generalizing block with
  | nil => simp [blocksAfter]
  | cons line lines ih =>
      obtain ⟨hline, hlines⟩ := List.forall_mem_cons.mp h
      rw [blocksAfter, if_neg (by simp [hline]), ih hlines]
      simp

theorem blockTexts_append {line : List Char} (h : isBlankLine line = true)
    (before after : List (List Char)) :
    blockTexts (before ++ line :: after) = blockTexts before ++ blockTexts after := by
  rw [blockTexts, blocksAfter_append h, List.map_append, List.filter_append]
  rfl

theorem blockTexts_nil : blockTexts [] = [] := rfl

theorem blockTexts_cons {line : List Char} (h : isBlankLine line = true)
    (others : List (List Char)) : blockTexts (line :: others) = blockTexts others :=
  blockTexts_append h [] others

/-- The texts of pieces without the white space around them, apart from blank ones. -/
def pieceTexts (pieces : List (List Char)) : List (List Char) :=
  (pieces.map (strip Unicode.isBlank)).filter (!·.isEmpty)

theorem pieceTexts_cons (piece : List Char) (pieces : List (List Char)) :
    pieceTexts (piece :: pieces) = pieceTexts [piece] ++ pieceTexts pieces := by
  rw [pieceTexts, pieceTexts, pieceTexts, ← List.filter_append, ← List.map_append]
  rfl

theorem pieceTexts_eq_nil {piece : List Char} (h : ∀ c ∈ piece, Unicode.isBlank c = true) :
    pieceTexts [piece] = [] := by
  simp [pieceTexts, strip_eq_nil_iff.mpr h]

theorem pieceTexts_append_left {blanks : List Char} (h : ∀ c ∈ blanks, Unicode.isBlank c = true)
    (piece : List Char) : pieceTexts [blanks ++ piece] = pieceTexts [piece] := by
  simp only [pieceTexts, List.map_cons, strip_append_left h]

theorem pieceTexts_append_right {blanks : List Char} (h : ∀ c ∈ blanks, Unicode.isBlank c = true)
    (piece : List Char) : pieceTexts [piece ++ blanks] = pieceTexts [piece] := by
  simp only [pieceTexts, List.map_cons, strip_append_right h]

theorem pieceTexts_intercalate_cons {line : List Char} (h : isBlankLine line = true)
    (others : List (List Char)) :
    pieceTexts [['\n'].intercalate (line :: others)] = pieceTexts [['\n'].intercalate others] := by
  have hchars := isBlank_of_isBlankLine h
  by_cases hothers : others = []
  · subst hothers
    rw [List.intercalate_singleton, pieceTexts_eq_nil hchars]
    rfl
  · have hleft : ∀ c ∈ line ++ ['\n'], Unicode.isBlank c = true :=
      List.forall_mem_append.mpr ⟨hchars, List.forall_mem_singleton.mpr rfl⟩
    rw [intercalate_cons hothers, List.append_cons, pieceTexts_append_left hleft]

theorem pieceTexts_intercalate_concat {line : List Char} (h : isBlankLine line = true)
    (others : List (List Char)) :
    pieceTexts [['\n'].intercalate (others ++ [line])] =
      pieceTexts [['\n'].intercalate others] := by
  have hchars := isBlank_of_isBlankLine h
  by_cases hothers : others = []
  · subst hothers
    rw [List.nil_append, List.intercalate_singleton, pieceTexts_eq_nil hchars]
    rfl
  · have hright : ∀ c ∈ '\n' :: line, Unicode.isBlank c = true :=
      List.forall_mem_cons.mpr ⟨rfl, hchars⟩
    rw [intercalate_append hothers (List.cons_ne_nil _ _), List.intercalate_singleton,
      pieceTexts_append_right hright]

theorem IsUnbroken.first_or_last {lines : List (List Char)} (h : IsUnbroken lines) :
    (∀ line ∈ lines, isBlankLine line = false) ∨
      (∃ line others, isBlankLine line = true ∧ lines = line :: others) ∨
        ∃ line others, isBlankLine line = true ∧ lines = others ++ [line] := by
  by_cases hall : ∀ line ∈ lines, isBlankLine line = false
  · exact .inl hall
  · obtain ⟨line, hmem, hblank⟩ : ∃ line ∈ lines, isBlankLine line = true := by simpa using hall
    obtain ⟨before, after, rfl⟩ := List.append_of_mem hmem
    by_cases hbefore : before = []
    · subst hbefore
      exact .inr (.inl ⟨line, after, hblank, rfl⟩)
    · by_cases hafter : after = []
      · subst hafter
        exact .inr (.inr ⟨line, before, hblank, rfl⟩)
      · have hline := h before line after rfl hbefore hafter
        rw [hblank] at hline
        cases hline

/-- A blank first or last line makes no difference on either side. -/
theorem IsUnbroken.blockTexts_eq {lines : List (List Char)} (h : IsUnbroken lines) :
    blockTexts lines = pieceTexts [['\n'].intercalate lines] := by
  induction hlength : lines.length using Nat.strongRecOn generalizing lines with
  | ind n ih =>
      rcases h.first_or_last with hall | ⟨line, others, hblank, rfl⟩ | ⟨line, others, hblank, rfl⟩
      · rw [blockTexts, blocksAfter_of_forall hall]
        rfl
      · have hothers : IsUnbroken others := fun before middle after heq hbefore =>
          h (line :: before) middle after (by simp [heq]) (List.cons_ne_nil _ _)
        rw [List.length_cons] at hlength
        rw [blockTexts_cons hblank, pieceTexts_intercalate_cons hblank,
          ih others.length (by omega) hothers rfl]
      · have hothers : IsUnbroken others := fun before middle after heq hbefore hafter =>
          h before middle (after ++ [line]) (by simp [heq]) hbefore (by simp)
        rw [List.length_append, List.length_singleton] at hlength
        rw [blockTexts_append hblank, blockTexts_nil, List.append_nil,
          pieceTexts_intercalate_concat hblank, ih others.length (by omega) hothers rfl]

theorem blockTexts_lines_of_not_hasGap {cs : List Char} (h : ¬ HasGap cs) :
    blockTexts (lines cs) = pieceTexts [cs] := by
  have hjoined : ['\n'].intercalate (lines cs) = cs := intercalate_linesAfter [] cs
  rw [(isUnbroken_lines h).blockTexts_eq, hjoined]

theorem IsGap.exists_concat {gap : List Char} (h : IsGap gap) :
    ∃ before, gap = before ++ ['\n'] := by
  obtain ⟨lines, hlength, -, rfl⟩ := h
  rcases List.eq_nil_or_concat lines with rfl | ⟨others, line, rfl⟩
  · simp at hlength
  · exact ⟨ended others ++ line, by simp [ended]⟩

theorem not_hasGap_append {cs line : List Char} (h : ¬ HasGap cs) (hline : '\n' ∉ line) :
    ¬ HasGap (cs ++ line) := by
  rintro ⟨gap, hgap, left, right, heq⟩
  rcases List.append_eq_append_iff.mp heq with ⟨tail, hcs, -⟩ | ⟨head, hhead, hright⟩
  · exact h ⟨gap, hgap, left, tail, hcs.symm⟩
  · obtain ⟨before, rfl⟩ := hgap.exists_concat
    rcases List.eq_nil_or_concat head with rfl | ⟨others, c, rfl⟩
    · exact h ⟨_, hgap, left, [], by simpa using hhead⟩
    · rw [List.concat_eq_append, ← List.append_assoc, ← List.append_assoc] at hhead
      obtain ⟨-, hlast⟩ := List.append_inj' hhead rfl
      obtain rfl : '\n' = c := List.singleton_inj.mp hlast
      exact hline (by simp [hright])

theorem blockTexts_blanks_append {blanks : List (List Char)}
    (h : ∀ line ∈ blanks, isBlankLine line = true) (others : List (List Char)) :
    blockTexts (blanks ++ others) = blockTexts others := by
  induction blanks with
  | nil => rfl
  | cons line blanks ih =>
      obtain ⟨hline, hblanks⟩ := List.forall_mem_cons.mp h
      rw [List.cons_append, blockTexts_cons hline, ih hblanks]

/-- The line that a gap ends first goes with the piece, and the others that it ends are blank. -/
theorem blockTexts_lines_append {piece gap : List Char} (hpiece : ¬ HasGap piece) (hgap : IsGap gap)
    (rest : List Char) :
    blockTexts (lines (piece ++ gap ++ rest)) = pieceTexts [piece] ++ blockTexts (lines rest) := by
  obtain ⟨blanks, hlength, hblanks, rfl⟩ := hgap
  match blanks, hlength with
  | first :: second :: others, _ =>
      obtain ⟨hfirst, hrest⟩ := List.forall_mem_cons.mp hblanks
      obtain ⟨hsecond, hothers⟩ := List.forall_mem_cons.mp hrest
      have hcs : piece ++ ended (first :: second :: others) ++ rest =
          (piece ++ first) ++ '\n' :: (ended (second :: others) ++ rest) := by
        rw [ended_cons]
        simp
      have hlines : lines (piece ++ ended (first :: second :: others) ++ rest) =
          lines (piece ++ first) ++ second :: (others ++ lines rest) := by
        rw [hcs, lines, linesAfter_append, lines_ended_append hrest]
        rfl
      rw [hlines, blockTexts_append hsecond, blockTexts_blanks_append hothers,
        blockTexts_lines_of_not_hasGap
          (not_hasGap_append hpiece (lineFeed_notMem_of_isBlankLine hfirst)),
        pieceTexts_append_right (isBlank_of_isBlankLine hfirst)]

/-- The blocks of a text are its pieces without the white space around them. -/
theorem blocks_eq_of_isCut {cs : List Char} {pieces : List (List Char)} (h : IsCut cs pieces) :
    blocks cs = pieceTexts pieces := by
  change blockTexts (lines cs) = pieceTexts pieces
  induction h with
  | whole hpiece => exact blockTexts_lines_of_not_hasGap hpiece
  | @cut piece gap rest pieces hpiece hgap _ _ _ ih =>
      rw [blockTexts_lines_append hpiece hgap, ih, ← pieceTexts_cons]

end Interlinear.Generator
