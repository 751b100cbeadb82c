import Interlinear.Command.Printing

/-!
# Texts without terminal sequences

Output that does not go to a terminal is the text without its terminal sequences.  The sequences are
found from left to right, and what is left over is not looked through again.  So the output is
described by cutting the text into sequences and characters at which no sequence begins.

No sequence has a line feed in it.  Hence the output of lines is that of one line after the other,
whether they are printed together or each by itself.
-/

namespace Interlinear.Command

/-- An escape, a bracket, parameters and a letter. -/
def IsSequence (cs : List Char) : Prop :=
  ∃ parameters letter, cs = '\x1b' :: '[' :: (parameters ++ [letter]) ∧
    (∀ c ∈ parameters, isParameter c = true) ∧ Pattern.isAsciiLetter letter = true

/-- The characters without the terminal sequences among them. -/
inductive Strips : List Char → List Char → Prop
  | nil : Strips [] []
  | kept {c : Char} {cs kept : List Char}
      (hnone : ∀ sequence, IsSequence sequence → ¬ sequence <+: c :: cs) (hkept : Strips cs kept) :
      Strips (c :: cs) (c :: kept)
  | dropped {sequence cs kept : List Char} (hsequence : IsSequence sequence)
      (hkept : Strips cs kept) : Strips (sequence ++ cs) kept

theorem not_isParameter_of_isAsciiLetter {c : Char} (h : Pattern.isAsciiLetter c = true) :
    isParameter c = false := by
  have hsemicolon : c ≠ ';' := by
    rintro rfl
    cases h
  have hquestion : c ≠ '?' := by
    rintro rfl
    cases h
  have hnine : '9'.toNat = 57 := rfl
  simp only [Pattern.isAsciiLetter, Bool.or_eq_true, Bool.and_eq_true, decide_eq_true_eq,
    Char.le_def, UInt32.le_iff_toNat_le] at h
  simp only [isParameter, Numeral.isAsciiDigit, Bool.or_eq_false_iff, beq_eq_false_iff_ne, ne_eq,
    hsemicolon, hquestion, not_false_eq_true, true_and, Bool.and_eq_false_iff,
    decide_eq_false_iff_not]
  right
  change ¬ c.val.toNat ≤ '9'.toNat
  rcases h with ⟨hlow, -⟩ | ⟨hlow, -⟩
  · have ha : ('a' : Char).val.toNat = 97 := rfl
    omega
  · have ha : ('A' : Char).val.toNat = 65 := rfl
    omega

theorem parametersLength?_eq_some_iff {cs : List Char} {length : Nat} :
    parametersLength? cs = some length ↔
      ∃ parameters letter rest, cs = parameters ++ letter :: rest ∧
        (∀ c ∈ parameters, isParameter c = true) ∧ Pattern.isAsciiLetter letter = true ∧
        length = parameters.length + 1 := by
  induction cs generalizing length with
  | nil => simp [parametersLength?]
  | cons c cs ih =>
      unfold parametersLength?
      by_cases hparameter : isParameter c
      · rw [if_pos hparameter, Option.map_eq_some_iff]
        simp only [ih]
        constructor
        · rintro ⟨_, ⟨parameters, letter, rest, rfl, hall, hletter, rfl⟩, rfl⟩
          exact ⟨c :: parameters, letter, rest, rfl, by simpa [hparameter] using hall, hletter,
            rfl⟩
        · rintro ⟨parameters, letter, rest, hsplit, hall, hletter, rfl⟩
          cases parameters with
          | nil =>
              obtain ⟨rfl, -⟩ := List.cons.inj hsplit
              simp [not_isParameter_of_isAsciiLetter hletter] at hparameter
          | cons d parameters =>
              obtain ⟨rfl, rfl⟩ := List.cons.inj hsplit
              exact ⟨_, ⟨parameters, letter, rest, rfl, (List.forall_mem_cons.mp hall).2, hletter,
                rfl⟩, rfl⟩
      · rw [if_neg hparameter]
        have hnone : ∀ parameters letter rest, c :: cs = parameters ++ letter :: rest →
            (∀ d ∈ parameters, isParameter d = true) → parameters = [] ∧ letter = c := by
          intro parameters letter rest hsplit hall
          cases parameters with
          | nil => exact ⟨rfl, (List.cons.inj hsplit).1.symm⟩
          | cons d parameters =>
              obtain ⟨rfl, -⟩ := List.cons.inj hsplit
              exact absurd (hall c List.mem_cons_self) hparameter
        constructor
        · intro h
          split at h
          next hletter =>
              obtain rfl := Option.some.inj h
              exact ⟨[], c, cs, rfl, by simp, hletter, rfl⟩
          next => cases h
        · rintro ⟨parameters, letter, rest, hsplit, hall, hletter, rfl⟩
          obtain ⟨rfl, rfl⟩ := hnone parameters letter rest hsplit hall
          rw [if_pos hletter]
          rfl

theorem sequenceLength?_eq_some_iff {cs : List Char} {length : Nat} :
    sequenceLength? cs = some length ↔
      ∃ sequence rest, IsSequence sequence ∧ cs = sequence ++ rest ∧ length = sequence.length := by
  unfold sequenceLength?
  constructor
  · intro h
    split at h
    next cs =>
        obtain ⟨_, hparameters, rfl⟩ := Option.map_eq_some_iff.mp h
        obtain ⟨parameters, letter, rest, rfl, hall, hletter, rfl⟩ :=
          parametersLength?_eq_some_iff.mp hparameters
        exact ⟨'\x1b' :: '[' :: (parameters ++ [letter]), rest,
          ⟨parameters, letter, rfl, hall, hletter⟩, by simp, by simp⟩
    next => cases h
  · rintro ⟨_, rest, ⟨parameters, letter, rfl, hall, hletter⟩, rfl, rfl⟩
    have hparameters : parametersLength? (parameters ++ [letter] ++ rest) =
        some (parameters.length + 1) :=
      parametersLength?_eq_some_iff.mpr
        ⟨parameters, letter, rest, by simp, hall, hletter, rfl⟩
    simp only [List.cons_append, hparameters, Option.map_some, List.length_cons,
      List.length_append, List.length_nil]

theorem sequenceLength?_eq_none_iff {cs : List Char} :
    sequenceLength? cs = none ↔ ∀ sequence, IsSequence sequence → ¬ sequence <+: cs := by
  constructor
  · rintro hnone sequence hsequence ⟨rest, rfl⟩
    have hsome := sequenceLength?_eq_some_iff.mpr ⟨sequence, rest, hsequence, rfl, rfl⟩
    rw [hnone] at hsome
    cases hsome
  · intro h
    cases hlength : sequenceLength? cs with
    | none => rfl
    | some length =>
        obtain ⟨sequence, rest, hsequence, rfl, -⟩ := sequenceLength?_eq_some_iff.mp hlength
        exact absurd (List.prefix_append sequence rest) (h sequence hsequence)

theorem dropSequences_length (taken rest : List Char) :
    dropSequences taken.length (taken ++ rest) = dropSequences 0 rest := by
  induction taken with
  | nil => rfl
  | cons c taken ih => exact ih

theorem dropSequences_sequence {sequence : List Char} (h : IsSequence sequence)
    (rest : List Char) : dropSequences 0 (sequence ++ rest) = dropSequences 0 rest := by
  have hlength : sequenceLength? (sequence ++ rest) = some sequence.length :=
    sequenceLength?_eq_some_iff.mpr ⟨sequence, rest, h, rfl, rfl⟩
  obtain ⟨parameters, letter, rfl, -, -⟩ := h
  rw [List.cons_append] at hlength ⊢
  rw [dropSequences, hlength]
  exact dropSequences_length ('[' :: (parameters ++ [letter])) rest

theorem dropSequences_kept {c : Char} {cs : List Char}
    (hnone : ∀ sequence, IsSequence sequence → ¬ sequence <+: c :: cs) :
    dropSequences 0 (c :: cs) = c :: dropSequences 0 cs := by
  rw [dropSequences, sequenceLength?_eq_none_iff.mpr hnone]

theorem strips_dropSequences (cs : List Char) : Strips cs (dropSequences 0 cs) := by
  induction hlength : cs.length using Nat.strongRecOn generalizing cs with
  | _ length ih =>
      subst hlength
      cases cs with
      | nil => exact .nil
      | cons c cs =>
          cases hfirst : sequenceLength? (c :: cs) with
          | none =>
              have hnone := sequenceLength?_eq_none_iff.mp hfirst
              rw [dropSequences_kept hnone]
              exact .kept hnone (ih cs.length (Nat.lt_succ_self _) cs rfl)
          | some length =>
              obtain ⟨sequence, rest, hsequence, hsplit, -⟩ :=
                sequenceLength?_eq_some_iff.mp hfirst
              rw [hsplit, dropSequences_sequence hsequence]
              refine .dropped hsequence (ih rest.length ?_ rest rfl)
              obtain ⟨parameters, letter, rfl, -, -⟩ := hsequence
              rw [hsplit]
              simp only [List.cons_append, List.length_cons, List.length_append, List.length_nil]
              omega

theorem strips_iff {cs kept : List Char} : Strips cs kept ↔ dropSequences 0 cs = kept := by
  constructor
  · intro h
    induction h with
    | nil => rfl
    | kept hnone _ ih => rw [dropSequences_kept hnone, ih]
    | dropped hsequence _ ih => rw [dropSequences_sequence hsequence, ih]
  · rintro rfl
    exact strips_dropSequences cs

theorem Strips.sublist {cs kept : List Char} (h : Strips cs kept) : kept.Sublist cs := by
  induction h with
  | nil => exact .refl []
  | kept _ _ ih => exact ih.cons_cons _
  | dropped _ _ ih => exact ih.trans (List.sublist_append_right _ _)

/-- Nothing is dropped if and only if there is no sequence anywhere. -/
theorem strips_self_iff {cs : List Char} :
    Strips cs cs ↔ ∀ sequence, IsSequence sequence → ¬ sequence <:+: cs := by
  constructor
  · have hlength : ∀ {kept : List Char}, Strips cs kept → kept.length = cs.length →
        ∀ sequence, IsSequence sequence → ¬ sequence <:+: cs := by
      intro kept h hlength sequence hsequence hinfix
      induction h with
      | nil =>
          obtain ⟨parameters, letter, rfl, -, -⟩ := hsequence
          simp at hinfix
      | kept hnone _ ih =>
          rcases List.infix_cons_iff.mp hinfix with hprefix | hinfix
          · exact hnone sequence hsequence hprefix
          · exact ih (Nat.succ.inj hlength) hinfix
      | dropped hdropped hkept _ =>
          -- A sequence that is dropped leaves fewer characters.
          have hle := hkept.sublist.length_le
          obtain ⟨parameters, letter, rfl, -, -⟩ := hdropped
          simp at hlength
          omega
    exact fun h => hlength h rfl
  · intro h
    induction cs with
    | nil => exact .nil
    | cons c cs ih =>
        refine .kept ?_ (ih ?_)
        · intro sequence hsequence hprefix
          exact h sequence hsequence hprefix.isInfix
        · intro sequence hsequence hinfix
          exact h sequence hsequence (List.infix_cons_iff.mpr (.inr hinfix))

theorem IsSequence.not_mem {sequence : List Char} (h : IsSequence sequence) : '\n' ∉ sequence := by
  obtain ⟨parameters, letter, rfl, hall, hletter⟩ := h
  intro hmem
  simp only [List.mem_cons, List.mem_append, List.not_mem_nil, or_false] at hmem
  rcases hmem with hescape | hbracket | hparameter | rfl
  · cases hescape
  · cases hbracket
  · exact absurd (hall _ hparameter) (by decide)
  · cases hletter

/-- What ends in a line feed is stripped apart from what follows. -/
theorem Strips.append {cs kept others keptOthers : List Char} (h : Strips cs kept)
    (hothers : Strips others keptOthers) (hend : ∀ c ∈ cs.getLast?, c = '\n') :
    Strips (cs ++ others) (kept ++ keptOthers) := by
  induction h with
  | nil => exact hothers
  | @kept c cs kept hnone _ ih =>
      have hrest : ∀ d ∈ cs.getLast?, d = '\n' := by
        intro d hd
        apply hend
        cases cs with
        | nil => cases hd
        | cons e cs => simpa using hd
      refine .kept ?_ (ih hrest)
      intro sequence hsequence hprefix
      rcases List.prefix_or_prefix_of_prefix hprefix (List.prefix_append (c :: cs) others) with
        hbefore | hover
      · exact hnone sequence hsequence hbefore
      · -- A sequence that went beyond the line feed would have it.
        obtain ⟨last, hlast⟩ : ∃ last, (c :: cs).getLast? = some last :=
          ⟨_, List.getLast?_eq_some_getLast (List.cons_ne_nil c cs)⟩
        obtain rfl := hend last hlast
        exact hsequence.not_mem (hover.subset (List.mem_of_getLast? hlast))
  | @dropped sequence cs kept hsequence _ ih =>
      rw [List.append_assoc]
      refine .dropped hsequence (ih ?_)
      intro d hd
      apply hend
      cases cs with
      | nil => cases hd
      | cons e cs => simpa using hd

theorem strips_shown (text : String) : Strips text.toList (shown false text).toList := by
  have hshown : (shown false text).toList = dropSequences 0 text.toList := String.toList_ofList
  rw [hshown]
  exact strips_dropSequences text.toList

/-- A text is shown as it is to a terminal, and elsewhere if there is no sequence in it. -/
theorem shown_eq_self_iff {terminal : Bool} {text : String} :
    shown terminal text = text ↔
      terminal = true ∨ ∀ sequence, IsSequence sequence → ¬ sequence <:+: text.toList := by
  cases terminal with
  | true => simp [shown]
  | false =>
      have hstrips := strips_shown text
      rw [← strips_self_iff, ← String.toList_inj]
      simp only [Bool.false_eq_true, false_or]
      constructor
      · intro h
        rwa [h] at hstrips
      · intro h
        rw [strips_iff] at h hstrips
        exact hstrips.symm.trans h

theorem shown_line_append (terminal : Bool) (line rest : String) :
    shown terminal (line ++ "\n" ++ rest) = shown terminal (line ++ "\n") ++ shown terminal rest := by
  cases terminal with
  | true => rfl
  | false =>
      have hend : ∀ c ∈ (line ++ "\n").toList.getLast?, c = '\n' := by
        intro c hc
        simpa [eq_comm] using hc
      have happend := (strips_dropSequences (line ++ "\n").toList).append
        (strips_dropSequences rest.toList) hend
      rw [strips_iff] at happend
      unfold shown
      simp only [Bool.false_eq_true, if_false]
      rw [← String.ofList_append, ← happend, ← String.toList_append]

theorem mem_of_mem_shown {terminal : Bool} {text : String} {c : Char}
    (h : c ∈ (shown terminal text).toList) : c ∈ text.toList := by
  cases terminal with
  | true => exact h
  | false => exact (strips_shown text).sublist.subset h

end Interlinear.Command
