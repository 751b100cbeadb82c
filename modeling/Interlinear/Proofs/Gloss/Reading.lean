import Interlinear.Proofs.Gloss.Grammar
import Interlinear.Proofs.Outcome

/-!
# The reader decides the grammar

Reading is sound: whatever the reader accepts is the text of a derivation, and the gloss that it
gives is the meaning of that derivation.  This holds for any fuel, by induction on it.  Reading is
complete: before a text in which a gloss cannot go on, the reader takes exactly the text of a
derivation.  This is an induction on the derivation, and twice the length of its text is fuel
enough, since every call but the one for the term of a gloss passes a character.
-/

namespace Interlinear.Gloss

open Outcome

/-- A text is spelled by a derivation that stands for the gloss. -/
def Derives (mode : Mode) (raw : String) (gloss : Gloss) : Prop :=
  ∃ derivation : Derivation, derivation.text = raw.toList ∧ derivation.meaning mode = gloss

theorem inflect_map_text (mode : Mode) (marked : Bool) (term : TermDerivation) (names : List Word) :
    inflect (term.meaning mode) (names.map Word.text) =
      (Derivation.gloss marked term names).meaning mode := by
  cases names with
  | nil => rfl
  | cons name names => rfl

/-! ### Words, names and marks -/

theorem readWord_append
    (expected : Expected) (word : Word) {rest : List Char} (hrest : EndsWord rest) :
    readWord expected (word.chars ++ rest) = .ok (word.text, rest) := by
  obtain ⟨c, cs, hchars, _⟩ := word.exists_chars_eq_cons
  have htext : String.ofList (c :: cs) = word.text := by
    rw [← hchars]
    exact String.ofList_toList
  unfold readWord
  rw [word.takeWhile_append hrest, word.dropWhile_append hrest, hchars]
  simp only [htext]

theorem readWord_sound
    {expected : Expected} {cs rest : List Char} {text : String}
    (h : readWord expected cs = .ok (text, rest)) :
    ∃ word : Word, word.text = text ∧ word.chars ++ rest = cs := by
  unfold readWord at h
  split at h
  next => simp at h
  next hne =>
      simp only [Except.ok.injEq, Prod.mk.injEq] at h
      obtain ⟨rfl, rfl⟩ := h
      have hword : IsWord (String.ofList (cs.takeWhile isWordChar)) := by
        constructor
        · rw [Ne, String.ofList_eq_empty_iff]
          exact hne
        · intro c hc
          rw [String.toList_ofList] at hc
          exact (isWordChar_iff c).mp (List.all_eq_true.mp List.all_takeWhile c hc)
      refine ⟨⟨_, hword⟩, rfl, ?_⟩
      simp only [Word.chars, String.toList_ofList]
      exact List.takeWhile_append_dropWhile

theorem readWord_bind_sound
    (meaning : String → Gloss) {expected : Expected} {cs rest : List Char} {gloss : Gloss}
    (h : (readWord expected cs >>= fun (text, rest) => .ok (meaning text, rest)) =
      .ok (gloss, rest)) :
    ∃ word : Word, meaning word.text = gloss ∧ word.chars ++ rest = cs := by
  obtain ⟨⟨text, afterWord⟩, hword, hend⟩ := bind_eq_ok_iff.mp h
  simp only [Except.ok.injEq, Prod.mk.injEq] at hend
  obtain ⟨rfl, rfl⟩ := hend
  obtain ⟨word, rfl, htext⟩ := readWord_sound hword
  exact ⟨word, rfl, htext⟩

theorem readNames_eq_nil
    (fuel : Nat) {rest : List Char} (hrest : rest.head? ≠ some '#') :
    readNames fuel rest = .ok ([], rest) := by
  unfold readNames
  split
  next => simp at hrest
  next => rfl

theorem readNames_append
    (names : List Word) {rest : List Char} (hrest : EndsGloss rest)
    {fuel : Nat} (hfuel : names.length ≤ fuel) :
    readNames fuel (namesText names ++ rest) = .ok (names.map Word.text, rest) := by
  induction names generalizing fuel with
  | nil => exact readNames_eq_nil fuel hrest.head_ne
  | cons name names ih =>
      obtain ⟨fuel, rfl⟩ : ∃ smaller, fuel = smaller + 1 :=
        ⟨fuel - 1, by simp only [List.length_cons] at hfuel; omega⟩
      have hnames : names.length ≤ fuel := by simpa using hfuel
      have htext :
          namesText (name :: names) ++ rest =
            '#' :: (name.chars ++ (namesText names ++ rest)) := by
        simp [namesText]
      rw [htext, readNames, readWord_append _ _ (endsWord_namesText names hrest)]
      simp only [ok_bind, ih hnames, List.map_cons]

theorem readNames_sound
    {fuel : Nat} {cs rest : List Char} {texts : List String}
    (h : readNames fuel cs = .ok (texts, rest)) :
    ∃ names : List Word, names.map Word.text = texts ∧ namesText names ++ rest = cs := by
  induction fuel generalizing cs texts with
  | zero =>
      simp only [readNames, Except.ok.injEq, Prod.mk.injEq] at h
      obtain ⟨rfl, rfl⟩ := h
      exact ⟨[], rfl, rfl⟩
  | succ fuel ih =>
      unfold readNames at h
      split at h
      next smaller tail heq =>
          simp only [Nat.succ_eq_add_one, Nat.add_right_cancel_iff] at heq
          subst heq
          obtain ⟨⟨text, afterName⟩, hword, h⟩ := bind_eq_ok_iff.mp h
          obtain ⟨⟨others, afterNames⟩, hothers, h⟩ := bind_eq_ok_iff.mp h
          simp only [Except.ok.injEq, Prod.mk.injEq] at h
          obtain ⟨rfl, rfl⟩ := h
          obtain ⟨name, rfl, rfl⟩ := readWord_sound hword
          obtain ⟨names, rfl, rfl⟩ := ih hothers
          exact ⟨name :: names, rfl, by simp [namesText]⟩
      next =>
          simp only [Except.ok.injEq, Prod.mk.injEq] at h
          obtain ⟨rfl, rfl⟩ := h
          exact ⟨[], rfl, rfl⟩

theorem dropMark_append (marked : Bool) (term : TermDerivation) (rest : List Char) :
    dropMark (markText marked ++ (term.text ++ rest)) = term.text ++ rest := by
  cases marked with
  | true => rfl
  | false =>
      simp only [markText, Bool.false_eq_true, if_false, List.nil_append]
      unfold dropMark
      split
      next cs h => exact absurd h (term.append_ne_mark rest cs)
      next => rfl

theorem exists_markText_append_dropMark (cs : List Char) :
    ∃ marked, markText marked ++ dropMark cs = cs := by
  unfold dropMark
  split
  next tail => exact ⟨true, rfl⟩
  next => exact ⟨false, rfl⟩

/-! ### Completeness -/

theorem readTerm_bare
    (mode : Mode) (fuel : Nat) (word : Word) {rest : List Char} (hrest : EndsWord rest) :
    readTerm mode (fuel + 1) (word.chars ++ rest) = .ok (mode.bare word.text, rest) := by
  have hword := readWord_append .word word hrest
  generalize hcs : word.chars ++ rest = cs at hword ⊢
  unfold readTerm
  split
  next h => simp at h
  next => exact absurd hcs (word.append_ne_cons (by simp [punctuation]) rest _)
  next => exact absurd hcs (word.append_ne_cons (by simp [punctuation]) rest _)
  next => exact absurd hcs (word.append_ne_cons (by simp [punctuation]) rest _)
  next => simp only [hword, ok_bind]

theorem length_le_length_namesText (names : List Word) :
    names.length ≤ (namesText names).length := by
  induction names with
  | nil => exact Nat.le_refl _
  | cons name names ih =>
      simp only [namesText, List.flatMap_cons, List.length_append, List.length_cons] at ih ⊢
      omega

theorem TermDerivation.length_text_pos (term : TermDerivation) : 0 < term.text.length := by
  cases term with
  | row first others => simp [TermDerivation.text]
  | literal word => simp [TermDerivation.text]
  | pointer word => simp [TermDerivation.text]
  | bare word =>
      obtain ⟨c, cs, hchars, _⟩ := word.exists_chars_eq_cons
      simp [TermDerivation.text, hchars]

mutual
theorem readGloss_append (mode : Mode) :
    (derivation : Derivation) → {rest : List Char} → EndsGloss rest →
    {fuel : Nat} → 2 * derivation.text.length ≤ fuel →
    readGloss mode fuel (derivation.text ++ rest) = .ok (derivation.meaning mode, rest)
  | .gloss marked term names, rest, hrest, fuel, hfuel => by
      have hterm := term.length_text_pos
      have hnames := length_le_length_namesText names
      simp only [Derivation.text, List.length_append, List.append_assoc] at hfuel ⊢
      obtain ⟨fuel, rfl⟩ : ∃ smaller, fuel = smaller + 1 := ⟨fuel - 1, by omega⟩
      rw [readGloss, dropMark_append,
        readTerm_append mode term (endsWord_namesText names hrest) (by omega), ok_bind]
      simp only [readNames_append names hrest (show names.length ≤ fuel by omega), ok_bind,
        inflect_map_text mode marked]
theorem readTerm_append (mode : Mode) :
    (term : TermDerivation) → {rest : List Char} → EndsWord rest →
    {fuel : Nat} → 2 * term.text.length ≤ fuel + 1 →
    readTerm mode fuel (term.text ++ rest) = .ok (term.meaning mode, rest)
  | .row first others, rest, _, fuel, hfuel => by
      simp only [TermDerivation.text, List.length_cons, List.length_append, List.length_nil]
        at hfuel
      obtain ⟨fuel, rfl⟩ : ∃ smaller, fuel = smaller + 1 := ⟨fuel - 1, by omega⟩
      have htext :
          (TermDerivation.row first others).text ++ rest =
            '[' :: (first.text ++ (othersText others ++ ']' :: rest)) := by
        simp [TermDerivation.text]
      rw [htext, readTerm,
        readGloss_append mode first (endsGloss_othersText others rest) (by omega), ok_bind]
      simp only [readOthers_append mode others rest (show _ ≤ fuel by omega), ok_bind,
        TermDerivation.meaning]
  | .literal word, rest, hrest, fuel, hfuel => by
      simp only [TermDerivation.text, List.length_cons] at hfuel
      obtain ⟨fuel, rfl⟩ : ∃ smaller, fuel = smaller + 1 := ⟨fuel - 1, by omega⟩
      simp only [TermDerivation.text, List.cons_append, readTerm, readWord_append _ word hrest,
        ok_bind, TermDerivation.meaning]
  | .pointer word, rest, hrest, fuel, hfuel => by
      simp only [TermDerivation.text, List.length_cons] at hfuel
      obtain ⟨fuel, rfl⟩ : ∃ smaller, fuel = smaller + 1 := ⟨fuel - 1, by omega⟩
      simp only [TermDerivation.text, List.cons_append, readTerm, readWord_append _ word hrest,
        ok_bind, TermDerivation.meaning]
  | .bare word, rest, hrest, fuel, hfuel => by
      -- A bare word has no sign of its own to pay for the call, but it is not empty.
      have hpos := (TermDerivation.bare word).length_text_pos
      obtain ⟨fuel, rfl⟩ : ∃ smaller, fuel = smaller + 1 := ⟨fuel - 1, by omega⟩
      exact readTerm_bare mode fuel word hrest
theorem readOthers_append (mode : Mode) :
    (others : List Derivation) → (rest : List Char) →
    {fuel : Nat} → 2 * (othersText others).length ≤ fuel →
    readOthers mode fuel (othersText others ++ ']' :: rest) =
      .ok (meanings mode others, ']' :: rest)
  | [], rest, fuel, _ => by
      unfold readOthers
      split
      next h _ => simp [othersText] at h
      next => rfl
  | first :: others, rest, fuel, hfuel => by
      simp only [othersText, List.length_cons, List.length_append] at hfuel
      obtain ⟨fuel, rfl⟩ : ∃ smaller, fuel = smaller + 1 := ⟨fuel - 1, by omega⟩
      have htext :
          othersText (first :: others) ++ ']' :: rest =
            '+' :: (first.text ++ (othersText others ++ ']' :: rest)) := by
        simp [othersText]
      rw [htext, readOthers,
        readGloss_append mode first (endsGloss_othersText others rest) (by omega), ok_bind]
      simp only [readOthers_append mode others rest (show _ ≤ fuel by omega), ok_bind, meanings]
end

/-! ### Soundness -/

/-- What a reader of glosses gives is spelled by a derivation. -/
def SoundReader (mode : Mode) (read : List Char → Except Fault (Gloss × List Char)) : Prop :=
  ∀ cs gloss rest, read cs = .ok (gloss, rest) →
    ∃ derivation : Derivation,
      derivation.meaning mode = gloss ∧ derivation.text ++ rest = cs

def SoundTermReader (mode : Mode) (read : List Char → Except Fault (Gloss × List Char)) : Prop :=
  ∀ cs gloss rest, read cs = .ok (gloss, rest) →
    ∃ term : TermDerivation, term.meaning mode = gloss ∧ term.text ++ rest = cs

def SoundOthersReader (mode : Mode)
    (read : List Char → Except Fault (List Gloss × List Char)) : Prop :=
  ∀ cs glosses rest, read cs = .ok (glosses, rest) →
    ∃ others : List Derivation, meanings mode others = glosses ∧ othersText others ++ rest = cs

theorem readGloss_sound_succ
    {mode : Mode} {fuel : Nat} (hterm : SoundTermReader mode (readTerm mode fuel)) :
    SoundReader mode (readGloss mode (fuel + 1)) := by
  intro cs gloss rest h
  rw [readGloss] at h
  obtain ⟨⟨termGloss, afterTerm⟩, hread, h⟩ := bind_eq_ok_iff.mp h
  obtain ⟨⟨texts, afterNames⟩, hnames, h⟩ := bind_eq_ok_iff.mp h
  simp only [Except.ok.injEq, Prod.mk.injEq] at h
  obtain ⟨rfl, rfl⟩ := h
  obtain ⟨term, rfl, htext⟩ := hterm _ _ _ hread
  obtain ⟨names, rfl, rfl⟩ := readNames_sound hnames
  obtain ⟨marked, hmark⟩ := exists_markText_append_dropMark cs
  refine ⟨.gloss marked term names, (inflect_map_text mode marked term names).symm, ?_⟩
  rw [← hmark, ← htext]
  simp [Derivation.text]

theorem readTerm_sound_succ
    {mode : Mode} {fuel : Nat} (hgloss : SoundReader mode (readGloss mode fuel))
    (hothers : SoundOthersReader mode (readOthers mode fuel)) :
    SoundTermReader mode (readTerm mode (fuel + 1)) := by
  intro cs gloss rest h
  unfold readTerm at h
  split at h
  next hzero => simp at hzero
  next smaller tail heq =>
      simp only [Nat.succ_eq_add_one, Nat.add_right_cancel_iff] at heq
      subst heq
      obtain ⟨⟨firstGloss, afterFirst⟩, hfirst, hrow⟩ := bind_eq_ok_iff.mp h
      obtain ⟨⟨otherGlosses, afterOthers⟩, hread, hend⟩ := bind_eq_ok_iff.mp hrow
      obtain ⟨first, rfl, hfirstText⟩ := hgloss _ _ _ hfirst
      obtain ⟨others, rfl, hothersText⟩ := hothers _ _ _ hread
      simp only at hend
      split at hend
      next afterBracket =>
          simp only [Except.ok.injEq, Prod.mk.injEq] at hend
          obtain ⟨rfl, rfl⟩ := hend
          refine ⟨.row first others, rfl, ?_⟩
          rw [← hfirstText, ← hothersText]
          simp [TermDerivation.text]
      next => simp at hend
  next =>
      obtain ⟨word, hmeaning, rfl⟩ := readWord_bind_sound literal h
      exact ⟨.literal word, hmeaning, rfl⟩
  next =>
      obtain ⟨word, hmeaning, rfl⟩ := readWord_bind_sound pointer h
      exact ⟨.pointer word, hmeaning, rfl⟩
  next =>
      obtain ⟨word, hmeaning, rfl⟩ := readWord_bind_sound mode.bare h
      exact ⟨.bare word, hmeaning, rfl⟩

theorem readOthers_sound_succ
    {mode : Mode} {fuel : Nat} (hgloss : SoundReader mode (readGloss mode fuel))
    (hothers : SoundOthersReader mode (readOthers mode fuel)) :
    SoundOthersReader mode (readOthers mode (fuel + 1)) := by
  intro cs glosses rest h
  unfold readOthers at h
  split at h
  next smaller tail heq =>
      simp only [Nat.succ_eq_add_one, Nat.add_right_cancel_iff] at heq
      subst heq
      obtain ⟨⟨firstGloss, afterFirst⟩, hfirst, h⟩ := bind_eq_ok_iff.mp h
      obtain ⟨⟨otherGlosses, afterOthers⟩, hread, h⟩ := bind_eq_ok_iff.mp h
      simp only [Except.ok.injEq, Prod.mk.injEq] at h
      obtain ⟨rfl, rfl⟩ := h
      obtain ⟨first, rfl, rfl⟩ := hgloss _ _ _ hfirst
      obtain ⟨others, rfl, rfl⟩ := hothers _ _ _ hread
      exact ⟨first :: others, rfl, by simp [othersText]⟩
  next =>
      simp only [Except.ok.injEq, Prod.mk.injEq] at h
      obtain ⟨rfl, rfl⟩ := h
      exact ⟨[], rfl, rfl⟩

theorem readers_sound (mode : Mode) (fuel : Nat) :
    SoundReader mode (readGloss mode fuel) ∧
      SoundTermReader mode (readTerm mode fuel) ∧
      SoundOthersReader mode (readOthers mode fuel) := by
  induction fuel with
  | zero =>
      refine ⟨?_, ?_, ?_⟩
      · intro cs gloss rest h
        simp [readGloss] at h
      · intro cs gloss rest h
        simp [readTerm] at h
      · intro cs glosses rest h
        simp only [readOthers, Except.ok.injEq, Prod.mk.injEq] at h
        obtain ⟨rfl, rfl⟩ := h
        exact ⟨[], rfl, rfl⟩
  | succ fuel ih =>
      obtain ⟨hgloss, hterm, hothers⟩ := ih
      exact ⟨readGloss_sound_succ hterm, readTerm_sound_succ hgloss hothers,
        readOthers_sound_succ hgloss hothers⟩

/-! ### Whole texts -/

theorem readAll_eq_ok_iff (mode : Mode) (cs : List Char) (gloss : Gloss) :
    readAll mode cs = .ok gloss ↔
      ∃ derivation : Derivation, derivation.text = cs ∧ derivation.meaning mode = gloss := by
  constructor
  · intro h
    obtain ⟨⟨read, rest⟩, hread, hend⟩ := bind_eq_ok_iff.mp h
    obtain ⟨derivation, rfl, htext⟩ := (readers_sound mode _).1 _ _ _ hread
    simp only at hend
    split at hend
    next =>
        simp only [Except.ok.injEq] at hend
        exact ⟨derivation, by simpa using htext, hend⟩
    next => simp at hend
  · rintro ⟨derivation, rfl, rfl⟩
    have hread :
        readGloss mode (2 * derivation.text.length + 2) (derivation.text ++ []) =
          .ok (derivation.meaning mode, []) :=
      readGloss_append mode derivation endsGloss_nil (by omega)
    rw [List.append_nil] at hread
    simp only [readAll, hread, ok_bind]

theorem Derivation.text_ne_nil (derivation : Derivation) : derivation.text ≠ [] := by
  obtain ⟨marked, term, names⟩ := derivation
  have hterm := term.length_text_pos
  intro h
  have hlength := congrArg List.length h
  simp only [Derivation.text, List.length_append, List.length_nil] at hlength
  omega

theorem Derivation.text_ne_mark (derivation : Derivation) : derivation.text ≠ ['?'] := by
  obtain ⟨marked, term, names⟩ := derivation
  intro h
  simp only [Derivation.text, List.append_assoc] at h
  cases marked with
  | false => exact term.append_ne_mark _ _ h
  | true =>
      have hterm := term.length_text_pos
      have hlength := congrArg List.length h
      simp only [markText, if_true, List.length_append, List.length_cons, List.length_nil]
        at hlength
      omega

theorem Derives.ne_bare {mode : Mode} {raw : String} {gloss : Gloss}
    (h : Derives mode raw gloss) : ¬ (raw = "" ∨ raw = "?") := by
  obtain ⟨derivation, htext, _⟩ := h
  rintro (rfl | rfl)
  · exact derivation.text_ne_nil htext
  · exact derivation.text_ne_mark htext

theorem parse_of_derives {mode : Mode} {raw : String} {gloss : Gloss}
    (h : Derives mode raw gloss) : parse mode raw = .ok gloss := by
  have hread : readAll mode raw.toList = .ok gloss := (readAll_eq_ok_iff mode _ gloss).mpr h
  rw [parse, if_neg h.ne_bare, hread]
  rfl

theorem derives_of_parse {mode : Mode} {raw : String} {gloss : Gloss}
    (hraw : ¬ (raw = "" ∨ raw = "?")) (h : parse mode raw = .ok gloss) :
    Derives mode raw gloss := by
  rw [parse, if_neg hraw] at h
  cases hread : readAll mode raw.toList with
  | error fault => simp [hread] at h
  | ok read =>
      simp only [hread, mapError_ok, Except.ok.injEq] at h
      subst h
      exact (readAll_eq_ok_iff mode _ read).mp hread

theorem parse_bare {mode : Mode} {raw : String} (hraw : raw = "" ∨ raw = "?") :
    parse mode raw = .ok (mode.bare "") := by
  rw [parse, if_pos hraw]

theorem exists_fault_of_parse {mode : Mode} {raw : String} {e : ParseError}
    (h : parse mode raw = .error e) :
    ∃ fault, readAll mode raw.toList = .error fault ∧ e = .ofFault raw fault := by
  unfold parse at h
  split at h
  next => simp at h
  next =>
      cases hread : readAll mode raw.toList with
      | ok read => simp [hread] at h
      | error fault =>
          rw [hread, mapError_error] at h
          exact ⟨fault, rfl, (Except.error.inj h).symm⟩

theorem raw_of_parse_eq_error {mode : Mode} {raw : String} {e : ParseError}
    (h : parse mode raw = .error e) : e.raw = raw := by
  obtain ⟨fault, -, rfl⟩ := exists_fault_of_parse h
  rfl

/-- The reader accepts exactly the texts of derivations and the two texts of the empty bare word,
each for one gloss, and refuses every other text with an error that carries it. -/
theorem parse_eq_ok_iff_derives (mode : Mode) (raw : String) :
    (∀ gloss, parse mode raw = .ok gloss ↔
      (raw = "" ∨ raw = "?") ∧ gloss = mode.bare "" ∨ Derives mode raw gloss) ∧
    (∀ derivation other : Derivation,
      derivation.text = raw.toList → other.text = raw.toList → derivation = other) ∧
    ((∃ e, parse mode raw = .error e ∧ e.raw = raw) ↔
      ¬ (raw = "" ∨ raw = "?") ∧ ∀ gloss, ¬ Derives mode raw gloss) := by
  refine ⟨?_, ?_, ?_⟩
  · intro gloss
    constructor
    · intro h
      by_cases hraw : raw = "" ∨ raw = "?"
      · rw [parse_bare hraw, Except.ok.injEq] at h
        exact .inl ⟨hraw, h.symm⟩
      · exact .inr (derives_of_parse hraw h)
    · rintro (⟨hraw, rfl⟩ | h)
      · exact parse_bare hraw
      · exact parse_of_derives h
  · intro derivation other hderivation hother
    exact Derivation.text_injective (hderivation.trans hother.symm)
  · constructor
    · rintro ⟨e, he, _⟩
      constructor
      · intro hraw
        simp [parse_bare hraw] at he
      · intro gloss h
        simp [parse_of_derives h] at he
    · rintro ⟨hraw, hnone⟩
      cases h : parse mode raw with
      | ok gloss => exact absurd (derives_of_parse hraw h) (hnone gloss)
      | error e => exact ⟨e, rfl, raw_of_parse_eq_error h⟩

end Interlinear.Gloss
