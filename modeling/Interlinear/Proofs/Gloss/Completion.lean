import Interlinear.Proofs.Gloss.Reading

/-!
# Texts that can go on to a gloss

A text can be completed if it is the beginning of a gloss.  Besides the empty text and a lone
question mark, which are glosses and begin others, that is to begin the text of a derivation.

A fault leaves such a beginning behind it.  Wherever a reader stops, the characters before the fault
begin the text of something that the reader could have read: the parts that were read stay as they
are, the part with the fault is completed, and what is open after it is closed.
-/

namespace Interlinear.Gloss

open Outcome

/-- Some characters put after the given ones make a gloss of them. -/
def CanBeCompleted (mode : Mode) (cs : List Char) : Prop :=
  ∃ (added : String) (gloss : Gloss), parse mode (String.ofList cs ++ added) = .ok gloss

def plainWord : Word :=
  ⟨"a", by decide⟩

def plainTerm : TermDerivation :=
  .bare plainWord

def plainDerivation : Derivation :=
  .gloss false plainTerm []

theorem canBeCompleted_iff (mode : Mode) (cs : List Char) :
    CanBeCompleted mode cs ↔ ∃ derivation : Derivation, cs <+: derivation.text := by
  constructor
  · rintro ⟨added, gloss, hparse⟩
    have hchars : (String.ofList cs ++ added).toList = cs ++ added.toList := by simp
    have hbegins : cs <+: (String.ofList cs ++ added).toList := by
      rw [hchars]
      exact List.prefix_append cs added.toList
    by_cases hraw : String.ofList cs ++ added = "" ∨ String.ofList cs ++ added = "?"
    · -- Both texts of the empty bare word begin a marked word.
      have hmarked : (String.ofList cs ++ added).toList <+:
          (Derivation.gloss true plainTerm []).text := by
        rcases hraw with hraw | hraw
        · rw [hraw]
          exact List.nil_prefix
        · rw [hraw]
          exact ⟨plainTerm.text ++ namesText [], rfl⟩
      exact ⟨_, hbegins.trans hmarked⟩
    · obtain ⟨derivation, htext, -⟩ := derives_of_parse hraw hparse
      rw [← htext] at hbegins
      exact ⟨derivation, hbegins⟩
  · rintro ⟨derivation, added, htext⟩
    refine ⟨String.ofList added, derivation.meaning mode, parse_of_derives ⟨derivation, ?_, rfl⟩⟩
    simp [htext]

/-- Before every fault of the reader stands the beginning of one of the texts. -/
def FaultsInside {α : Type} (texts : List Char → Prop)
    (read : List Char → Except Fault (α × List Char)) : Prop :=
  ∀ cs fault, read cs = .error fault →
    ∃ before text, before ++ fault.rest = cs ∧ texts text ∧ before <+: text

def GlossText (text : List Char) : Prop :=
  ∃ derivation : Derivation, derivation.text = text

def TermText (text : List Char) : Prop :=
  ∃ term : TermDerivation, term.text = text

def OthersText (text : List Char) : Prop :=
  ∃ others : List Derivation, othersText others = text

theorem readWord_eq_error {expected : Expected} {cs : List Char} {fault : Fault}
    (h : readWord expected cs = .error fault) : fault = ⟨expected, cs⟩ := by
  unfold readWord at h
  split at h
  next => exact (Except.error.inj h).symm
  next => cases h

theorem readNames_faults {fuel : Nat} {cs : List Char} {fault : Fault}
    (h : readNames fuel cs = .error fault) :
    ∃ before names, before ++ fault.rest = cs ∧ before <+: namesText names := by
  induction fuel generalizing cs with
  | zero => cases h
  | succ fuel ih =>
      unfold readNames at h
      split at h
      next smaller tail heq =>
          obtain rfl := Nat.succ.inj heq
          rcases bind_eq_error_iff.mp h with hword | ⟨⟨text, afterName⟩, hword, hothers⟩
          · obtain rfl := readWord_eq_error hword
            exact ⟨['#'], [plainWord], rfl, ⟨plainWord.chars, rfl⟩⟩
          · obtain ⟨name, -, rfl⟩ := readWord_sound hword
            rcases bind_eq_error_iff.mp hothers with hnames | ⟨_, _, hend⟩
            · obtain ⟨before, names, rfl, hbefore⟩ := ih hnames
              refine ⟨'#' :: (name.chars ++ before), name :: names, by simp, ?_⟩
              exact (List.prefix_append_right_inj ('#' :: name.chars)).mpr hbefore
            · cases hend
      next => cases h

theorem readGloss_faults {mode : Mode} {fuel : Nat}
    (hterm : FaultsInside TermText (readTerm mode fuel)) :
    FaultsInside GlossText (readGloss mode (fuel + 1)) := by
  intro cs fault h
  obtain ⟨marked, hmark⟩ := exists_markText_append_dropMark cs
  rw [readGloss] at h
  rcases bind_eq_error_iff.mp h with hread | ⟨⟨gloss, afterTerm⟩, hread, hafter⟩
  · obtain ⟨before, _, hcs, ⟨term, rfl⟩, hbefore⟩ := hterm _ _ hread
    refine ⟨markText marked ++ before, _, ?_, ⟨.gloss marked term [], rfl⟩, ?_⟩
    · rw [← hmark, ← hcs, List.append_assoc]
    · rw [Derivation.text, namesText, List.flatMap_nil, List.append_nil]
      exact (List.prefix_append_right_inj (markText marked)).mpr hbefore
  · obtain ⟨term, -, htext⟩ := (readers_sound mode fuel).2.1 _ _ _ hread
    rcases bind_eq_error_iff.mp hafter with hnames | ⟨_, _, hend⟩
    · obtain ⟨before, names, hcs, hbefore⟩ := readNames_faults hnames
      refine ⟨markText marked ++ term.text ++ before, _, ?_, ⟨.gloss marked term names, rfl⟩, ?_⟩
      · rw [← hmark, ← htext, ← hcs]
        simp
      · exact (List.prefix_append_right_inj _).mpr hbefore
    · cases hend

theorem readOthers_faults {mode : Mode} {fuel : Nat}
    (hgloss : FaultsInside GlossText (readGloss mode fuel))
    (hothers : FaultsInside OthersText (readOthers mode fuel)) :
    FaultsInside OthersText (readOthers mode (fuel + 1)) := by
  intro cs fault h
  unfold readOthers at h
  split at h
  next smaller tail heq =>
      obtain rfl := Nat.succ.inj heq
      rcases bind_eq_error_iff.mp h with hread | ⟨⟨gloss, afterFirst⟩, hread, hafter⟩
      · obtain ⟨before, _, rfl, ⟨first, rfl⟩, hbefore⟩ := hgloss _ _ hread
        refine ⟨'+' :: before, _, rfl, ⟨[first], rfl⟩, ?_⟩
        exact (List.prefix_append_right_inj ['+']).mpr
          (hbefore.trans (List.prefix_append first.text _))
      · obtain ⟨first, -, rfl⟩ := (readers_sound mode fuel).1 _ _ _ hread
        rcases bind_eq_error_iff.mp hafter with hrest | ⟨_, _, hend⟩
        · obtain ⟨before, _, rfl, ⟨others, rfl⟩, hbefore⟩ := hothers _ _ hrest
          refine ⟨'+' :: (first.text ++ before), _, by simp, ⟨first :: others, rfl⟩, ?_⟩
          exact (List.prefix_append_right_inj ('+' :: first.text)).mpr hbefore
        · cases hend
  next => cases h

theorem readSigned_faults {expected : Expected} {cs : List Char} {fault : Fault}
    {meaning : String → Gloss}
    (h : (readWord expected cs >>= fun (text, rest) => .ok (meaning text, rest)) = .error fault) :
    fault.rest = cs := by
  rcases bind_eq_error_iff.mp h with hword | ⟨_, _, hend⟩
  · rw [readWord_eq_error hword]
  · cases hend

theorem readTerm_faults {mode : Mode} {fuel : Nat}
    (hgloss : FaultsInside GlossText (readGloss mode fuel))
    (hothers : FaultsInside OthersText (readOthers mode fuel)) :
    FaultsInside TermText (readTerm mode (fuel + 1)) := by
  intro cs fault h
  unfold readTerm at h
  split at h
  next hzero => simp at hzero
  next smaller tail heq =>
      obtain rfl := Nat.succ.inj heq
      rcases bind_eq_error_iff.mp h with hread | ⟨⟨gloss, afterFirst⟩, hread, hafter⟩
      · obtain ⟨before, _, rfl, ⟨first, rfl⟩, hbefore⟩ := hgloss _ _ hread
        refine ⟨'[' :: before, _, rfl, ⟨.row first [], rfl⟩, ?_⟩
        exact (List.prefix_append_right_inj ['[']).mpr
          (hbefore.trans (List.prefix_append_of_prefix (List.prefix_append first.text _)))
      · obtain ⟨first, -, rfl⟩ := (readers_sound mode fuel).1 _ _ _ hread
        rcases bind_eq_error_iff.mp hafter with hrest | ⟨⟨glosses, afterOthers⟩, hrest, hclose⟩
        · obtain ⟨before, _, rfl, ⟨others, rfl⟩, hbefore⟩ := hothers _ _ hrest
          refine ⟨'[' :: (first.text ++ before), _, by simp, ⟨.row first others, rfl⟩, ?_⟩
          rw [TermDerivation.text, List.append_assoc]
          exact (List.prefix_append_right_inj ('[' :: first.text)).mpr
            (hbefore.trans (List.prefix_append (othersText others) [']']))
        · obtain ⟨others, -, rfl⟩ := (readers_sound mode fuel).2.2 _ _ _ hrest
          simp only at hclose
          split at hclose
          next => cases hclose
          next =>
              obtain rfl := Except.error.inj hclose
              refine ⟨'[' :: (first.text ++ othersText others), _, by simp,
                ⟨.row first others, rfl⟩, ?_⟩
              exact List.prefix_append ('[' :: (first.text ++ othersText others)) [']']
  next tail =>
      refine ⟨['^'], _, congrArg ('^' :: ·) (readSigned_faults h), ⟨.literal plainWord, rfl⟩, ?_⟩
      exact ⟨plainWord.chars, rfl⟩
  next tail =>
      refine ⟨['*'], _, congrArg ('*' :: ·) (readSigned_faults h), ⟨.pointer plainWord, rfl⟩, ?_⟩
      exact ⟨plainWord.chars, rfl⟩
  next =>
      exact ⟨[], _, readSigned_faults h, ⟨plainTerm, rfl⟩, List.nil_prefix⟩

theorem readers_faults (mode : Mode) (fuel : Nat) :
    FaultsInside GlossText (readGloss mode fuel) ∧
      FaultsInside TermText (readTerm mode fuel) ∧
      FaultsInside OthersText (readOthers mode fuel) := by
  induction fuel with
  | zero =>
      refine ⟨?_, ?_, ?_⟩
      · intro cs fault h
        obtain rfl := Except.error.inj h
        exact ⟨[], _, rfl, ⟨plainDerivation, rfl⟩, List.nil_prefix⟩
      · intro cs fault h
        rw [readTerm] at h
        obtain rfl := Except.error.inj h
        exact ⟨[], _, rfl, ⟨plainTerm, rfl⟩, List.nil_prefix⟩
      · intro cs fault h
        cases h
  | succ fuel ih =>
      obtain ⟨hgloss, hterm, hothers⟩ := ih
      exact ⟨readGloss_faults hterm, readTerm_faults hgloss hothers,
        readOthers_faults hgloss hothers⟩

/-- The characters before a fault can be completed. -/
theorem canBeCompleted_of_readAll {mode : Mode} {cs : List Char} {fault : Fault}
    (h : readAll mode cs = .error fault) :
    ∃ before, before ++ fault.rest = cs ∧ CanBeCompleted mode before := by
  rw [readAll] at h
  rcases bind_eq_error_iff.mp h with hread | ⟨⟨gloss, rest⟩, hread, hend⟩
  · obtain ⟨before, _, hcs, ⟨derivation, rfl⟩, hbefore⟩ := (readers_faults mode _).1 _ _ hread
    exact ⟨before, hcs, (canBeCompleted_iff mode before).mpr ⟨derivation, hbefore⟩⟩
  · obtain ⟨derivation, -, htext⟩ := (readers_sound mode _).1 _ _ _ hread
    simp only at hend
    split at hend
    next => cases hend
    next =>
        obtain rfl := Except.error.inj hend
        exact ⟨derivation.text, htext,
          (canBeCompleted_iff mode _).mpr ⟨derivation, List.prefix_refl _⟩⟩

end Interlinear.Gloss
