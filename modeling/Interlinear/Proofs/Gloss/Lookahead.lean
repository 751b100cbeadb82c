import Mathlib.Data.List.TakeWhile
import Interlinear.Proofs.Gloss.Completion

/-!
# How far the reader looks ahead

The reader decides by the next character and never looks past it.  So two texts with a common
beginning and the same character after it are read alike, as long as the reader stops before what
follows: it gives the same result or meets the same fault, at the same place.  Readers are put
together from readers that give a result, that fail, or that pass one character, and each of the
ways to put them together keeps this property.  Fuel plays no part in it, beyond being enough for the
common beginning.

A fault is therefore final.  If the text up to and including the character at which it arose could
be completed, then the reader would read the completed text to its end, and it stops at that
character.  With the beginnings before a fault, which can be completed, the position of a fault is
the length of the longest beginning that can.
-/

namespace Interlinear.Gloss

open Outcome

variable {α β : Type}

/-- What is left where a reader has stopped, with a result or a fault. -/
def stop : Except Fault (α × List Char) → List Char
  | .ok (_, rest) => rest
  | .error fault => fault.rest

/-- The same outcome where something else is left. -/
def withStop (rest : List Char) : Except Fault (α × List Char) → Except Fault (α × List Char)
  | .ok (a, _) => .ok (a, rest)
  | .error fault => .error ⟨fault.expected, rest⟩

theorem stop_withStop (rest : List Char) (outcome : Except Fault (α × List Char)) :
    stop (withStop rest outcome) = rest := by
  cases outcome <;> rfl

/-- A reader goes forward: it leaves an end of the text. -/
structure Reader (α : Type) where
  read : List Char → Except Fault (α × List Char)
  consumes : ∀ cs, stop (read cs) <:+ cs

/-- Texts that differ only after the next character are read alike up to there, if what comes before
it has at most `size` characters. -/
def AgreesAhead (size : Nat) (reader other : Reader α) : Prop :=
  ∀ ⦃before after otherAfter left : List Char⦄, before.length ≤ size →
    after.head? = otherAfter.head? → stop (reader.read (before ++ after)) = left ++ after →
      other.read (before ++ otherAfter) =
        withStop (left ++ otherAfter) (reader.read (before ++ after))

/-! ### Putting readers together -/

namespace Reader

def give (a : α) : Reader α where
  read cs := .ok (a, cs)
  consumes := List.suffix_refl

def fail (expected : Expected) : Reader α where
  read cs := .error ⟨expected, cs⟩
  consumes := List.suffix_refl

def chain (first : Reader α) (next : α → Reader β) : Reader β where
  read cs := first.read cs >>= fun result => (next result.1).read result.2
  consumes := by
    intro cs
    have hfirst := first.consumes cs
    cases houtcome : first.read cs with
    | error fault =>
        rw [houtcome] at hfirst
        rw [error_bind]
        exact hfirst
    | ok result =>
        rw [houtcome] at hfirst
        rw [ok_bind]
        exact ((next result.1).consumes result.2).trans hfirst

end Reader

theorem agreesAhead_give (size : Nat) (a : α) : AgreesAhead size (.give a) (.give a) := by
  intro before after otherAfter left _ _ hstop
  obtain rfl := List.append_cancel_right hstop
  rfl

theorem agreesAhead_fail (size : Nat) (expected : Expected) :
    AgreesAhead size (.fail expected : Reader α) (.fail expected) := by
  intro before after otherAfter left _ _ hstop
  obtain rfl := List.append_cancel_right hstop
  rfl

theorem AgreesAhead.chain {size : Nat} {reader other : Reader α} {next otherNext : α → Reader β}
    (hreader : AgreesAhead size reader other)
    (hnext : ∀ a, AgreesAhead size (next a) (otherNext a)) :
    AgreesAhead size (reader.chain next) (other.chain otherNext) := by
  intro before after otherAfter left hsize hhead hstop
  have hfirst := reader.consumes (before ++ after)
  simp only [Reader.chain] at hstop ⊢
  cases houtcome : reader.read (before ++ after) with
  | error fault =>
      rw [houtcome, error_bind] at hstop
      rw [hreader hsize hhead (by rw [houtcome]; exact hstop), houtcome]
      rfl
  | ok result =>
      obtain ⟨a, middle⟩ := result
      rw [houtcome, ok_bind] at hstop
      rw [houtcome] at hfirst
      -- What is left in the end is left in the middle too.
      have hsecond : left ++ after <:+ middle := by
        rw [← hstop]
        exact (next a).consumes middle
      obtain ⟨passed, rfl⟩ := (List.suffix_append left after).trans hsecond
      have hlength : passed.length ≤ size := by
        have hle : (passed ++ after).length ≤ (before ++ after).length := hfirst.length_le
        simp only [List.length_append] at hle
        omega
      rw [hreader hsize hhead (by rw [houtcome]; rfl), houtcome, ok_bind]
      exact hnext a hlength hhead hstop

/-- How a reader treats texts with one next character: it passes it, or is as good as another
reader. -/
inductive ReadsHead (size : Nat) (reader other : Reader α) : Option Char → Prop
  | passed {c : Char} {step otherStep : Reader α}
      (hread : ∀ cs, reader.read (c :: cs) = step.read cs)
      (hother : ∀ cs, other.read (c :: cs) = otherStep.read cs)
      (hstep : ∀ smaller, smaller + 1 = size → AgreesAhead smaller step otherStep) :
      ReadsHead size reader other (some c)
  | kept {head : Option Char} {plain otherPlain : Reader α}
      (hread : ∀ cs, cs.head? = head → reader.read cs = plain.read cs)
      (hother : ∀ cs, cs.head? = head → other.read cs = otherPlain.read cs)
      (hplain : AgreesAhead size plain otherPlain) : ReadsHead size reader other head

theorem agreesAhead_of_readsHead {size : Nat} {reader other : Reader α}
    (h : ∀ head, ReadsHead size reader other head) : AgreesAhead size reader other := by
  intro before after otherAfter left hsize hhead hstop
  have hheads : (before ++ otherAfter).head? = (before ++ after).head? := by
    simp [List.head?_append, hhead]
  have hreads := h (before ++ after).head?
  generalize hfirst : (before ++ after).head? = head at hreads hheads
  cases hreads with
  | kept hread hother hplain =>
      rw [hread _ hfirst] at hstop ⊢
      rw [hother _ hheads]
      exact hplain hsize hhead hstop
  | @passed c step otherStep hread hother hstep =>
      cases before with
      | nil =>
          -- The next character itself is passed, so it cannot be left.
          obtain ⟨tail, rfl⟩ := List.head?_eq_some_iff.mp hfirst
          have hlength := (step.consumes tail).length_le
          rw [List.nil_append, hread] at hstop
          rw [hstop] at hlength
          simp only [List.length_append, List.length_cons] at hlength
          omega
      | cons first before =>
          obtain rfl := Option.some.inj hfirst
          rw [List.cons_append, hread] at hstop
          rw [List.cons_append, List.cons_append, hread, hother]
          obtain ⟨smaller, rfl⟩ : ∃ smaller, smaller + 1 = size :=
            ⟨size - 1, Nat.succ_pred_eq_of_pos (Nat.lt_of_lt_of_le (Nat.succ_pos _) hsize)⟩
          exact hstep smaller rfl (Nat.le_of_succ_le_succ hsize) hhead hstop

theorem stop_suffix {read : List Char → Except Fault (α × List Char)}
    (hok : ∀ cs a rest, read cs = .ok (a, rest) → rest <:+ cs)
    (hfault : ∀ cs fault, read cs = .error fault → fault.rest <:+ cs) (cs : List Char) :
    stop (read cs) <:+ cs := by
  cases houtcome : read cs with
  | error fault => exact hfault cs fault houtcome
  | ok result => exact hok cs result.1 result.2 houtcome

/-! ### Words and names -/

theorem dropWhile_append_ahead {p : Char → Bool} {before after otherAfter left : List Char}
    (hhead : after.head? = otherAfter.head?)
    (hleft : (before ++ after).dropWhile p = left ++ after) :
    (before ++ otherAfter).takeWhile p = (before ++ after).takeWhile p ∧
      (before ++ otherAfter).dropWhile p = left ++ otherAfter := by
  induction before with
  | nil =>
      have hlength := (List.dropWhile_suffix (l := after) p).length_le
      rw [List.nil_append] at hleft
      rw [hleft, List.length_append] at hlength
      obtain rfl := List.eq_nil_of_length_eq_zero (show left.length = 0 by omega)
      cases after with
      | nil =>
          obtain rfl := List.head?_eq_none_iff.mp hhead.symm
          exact ⟨rfl, rfl⟩
      | cons c after =>
          obtain ⟨otherAfter, rfl⟩ := List.head?_eq_some_iff.mp hhead.symm
          have hc : ¬ p c := List.dropWhile_eq_self_iff.mp hleft (Nat.zero_lt_succ after.length)
          simp [hc]
  | cons c before ih =>
      cases hc : p c with
      | true =>
          rw [List.cons_append, List.dropWhile_cons_of_pos hc] at hleft
          obtain ⟨htake, hdrop⟩ := ih hleft
          simp [hc, htake, hdrop]
      | false =>
          rw [List.cons_append, List.dropWhile_cons_of_neg (by simp [hc])] at hleft
          rw [← List.cons_append] at hleft
          obtain rfl := List.append_cancel_right hleft
          simp [hc]

theorem readWord_eq_withStop (expected : Expected) {cs otherCs : List Char}
    (htake : otherCs.takeWhile isWordChar = cs.takeWhile isWordChar) :
    readWord expected otherCs =
      withStop (otherCs.dropWhile isWordChar) (readWord expected cs) := by
  unfold readWord
  rw [htake]
  split
  next hnil =>
      have hdrop := List.takeWhile_append_dropWhile (p := isWordChar) (l := otherCs)
      rw [htake, hnil, List.nil_append] at hdrop
      rw [withStop, hdrop]
  next => rfl

theorem stop_readWord (expected : Expected) (cs : List Char) :
    stop (readWord expected cs) = cs.dropWhile isWordChar := by
  rw [readWord_eq_withStop expected rfl, stop_withStop]

def wordReader (expected : Expected) : Reader String where
  read := readWord expected
  consumes cs := by
    rw [stop_readWord]
    exact List.dropWhile_suffix isWordChar

theorem agreesAhead_word (size : Nat) (expected : Expected) :
    AgreesAhead size (wordReader expected) (wordReader expected) := by
  intro before after otherAfter left _ hhead hstop
  simp only [wordReader, stop_readWord] at hstop ⊢
  obtain ⟨htake, hdrop⟩ := dropWhile_append_ahead hhead hstop
  rw [readWord_eq_withStop expected htake, hdrop]

def namesReader (fuel : Nat) : Reader (List String) where
  read := readNames fuel
  consumes := by
    apply stop_suffix
    · intro cs texts rest h
      obtain ⟨names, -, rfl⟩ := readNames_sound h
      exact List.suffix_append (namesText names) rest
    · intro cs fault h
      obtain ⟨before, names, rfl, -⟩ := readNames_faults h
      exact List.suffix_append before fault.rest

def nameStep (fuel : Nat) : Reader (List String) :=
  (wordReader .name).chain fun name => (namesReader fuel).chain fun names => .give (name :: names)

theorem readNames_cons (fuel : Nat) (cs : List Char) :
    readNames (fuel + 1) ('#' :: cs) = (nameStep fuel).read cs := by
  rw [readNames]
  rfl

theorem agreesAhead_names {fuel otherFuel size : Nat} (hfuel : size + 1 ≤ fuel)
    (hother : size + 1 ≤ otherFuel) :
    AgreesAhead size (namesReader fuel) (namesReader otherFuel) := by
  induction fuel generalizing otherFuel size with
  | zero => omega
  | succ fuel ih =>
      obtain ⟨otherFuel, rfl⟩ := Nat.exists_eq_succ_of_ne_zero (show otherFuel ≠ 0 by omega)
      apply agreesAhead_of_readsHead
      intro head
      by_cases hhead : head = some '#'
      · subst hhead
        refine .passed (readNames_cons fuel) (readNames_cons otherFuel) ?_
        intro smaller hsmaller
        have hnames : AgreesAhead smaller (namesReader fuel) (namesReader otherFuel) :=
          ih (by omega) (by omega)
        exact (agreesAhead_word smaller .name).chain fun name =>
          hnames.chain fun names => agreesAhead_give smaller (name :: names)
      · refine .kept ?_ ?_ (agreesAhead_give size [])
        · rintro cs rfl
          exact readNames_eq_nil _ hhead
        · rintro cs rfl
          exact readNames_eq_nil _ hhead

/-! ### Glosses -/

def glossReader (mode : Mode) (fuel : Nat) : Reader Gloss where
  read := readGloss mode fuel
  consumes := by
    apply stop_suffix
    · intro cs gloss rest h
      obtain ⟨derivation, -, rfl⟩ := (readers_sound mode fuel).1 _ _ _ h
      exact List.suffix_append derivation.text rest
    · intro cs fault h
      obtain ⟨before, _, rfl, -⟩ := (readers_faults mode fuel).1 _ _ h
      exact List.suffix_append before fault.rest

def termReader (mode : Mode) (fuel : Nat) : Reader Gloss where
  read := readTerm mode fuel
  consumes := by
    apply stop_suffix
    · intro cs gloss rest h
      obtain ⟨term, -, rfl⟩ := (readers_sound mode fuel).2.1 _ _ _ h
      exact List.suffix_append term.text rest
    · intro cs fault h
      obtain ⟨before, _, rfl, -⟩ := (readers_faults mode fuel).2.1 _ _ h
      exact List.suffix_append before fault.rest

def othersReader (mode : Mode) (fuel : Nat) : Reader (List Gloss) where
  read := readOthers mode fuel
  consumes := by
    apply stop_suffix
    · intro cs glosses rest h
      obtain ⟨others, -, rfl⟩ := (readers_sound mode fuel).2.2 _ _ _ h
      exact List.suffix_append (othersText others) rest
    · intro cs fault h
      obtain ⟨before, _, rfl, -⟩ := (readers_faults mode fuel).2.2 _ _ h
      exact List.suffix_append before fault.rest

def readRowEnd (row : Gloss) : List Char → Except Fault (Gloss × List Char)
  | ']' :: cs => .ok (row, cs)
  | cs => .error ⟨.elementEnd, cs⟩

def rowEndReader (row : Gloss) : Reader Gloss where
  read := readRowEnd row
  consumes cs := by
    unfold readRowEnd
    split
    next tail => exact List.suffix_cons ']' tail
    next => exact List.suffix_refl cs

theorem readRowEnd_of_head (row : Gloss) {cs : List Char} (hcs : cs.head? ≠ some ']') :
    readRowEnd row cs = .error ⟨.elementEnd, cs⟩ := by
  unfold readRowEnd
  split
  next => simp at hcs
  next => rfl

theorem agreesAhead_rowEnd (size : Nat) (row : Gloss) :
    AgreesAhead size (rowEndReader row) (rowEndReader row) := by
  apply agreesAhead_of_readsHead
  intro head
  by_cases hhead : head = some ']'
  · subst hhead
    have hgive : ∀ cs, (rowEndReader row).read (']' :: cs) = (Reader.give row).read cs :=
      fun _ => rfl
    exact .passed hgive hgive fun smaller _ => agreesAhead_give smaller row
  · have hfail : ∀ cs, cs.head? = head →
        (rowEndReader row).read cs = (Reader.fail .elementEnd).read cs := by
      rintro cs rfl
      exact readRowEnd_of_head row hhead
    exact .kept hfail hfail (agreesAhead_fail size .elementEnd)

def wordStep (meaning : String → Gloss) : Reader Gloss :=
  (wordReader .word).chain fun word => .give (meaning word)

/-- A row after its opening bracket. -/
def rowStep (mode : Mode) (fuel : Nat) : Reader Gloss :=
  (glossReader mode fuel).chain fun first =>
    (othersReader mode fuel).chain fun others => rowEndReader (compound (first :: others))

def othersStep (mode : Mode) (fuel : Nat) : Reader (List Gloss) :=
  (glossReader mode fuel).chain fun first =>
    (othersReader mode fuel).chain fun others => .give (first :: others)

def namedStep (mode : Mode) (fuel : Nat) : Reader Gloss :=
  (termReader mode fuel).chain fun term =>
    (namesReader fuel).chain fun names => .give (inflect term names)

theorem readTerm_bracket (mode : Mode) (fuel : Nat) (cs : List Char) :
    readTerm mode (fuel + 1) ('[' :: cs) = (rowStep mode fuel).read cs := by
  rw [readTerm]
  rfl

theorem readTerm_circumflex (mode : Mode) (fuel : Nat) (cs : List Char) :
    readTerm mode (fuel + 1) ('^' :: cs) = (wordStep literal).read cs := by
  rw [readTerm]
  · rfl
  · simp

theorem readTerm_asterisk (mode : Mode) (fuel : Nat) (cs : List Char) :
    readTerm mode (fuel + 1) ('*' :: cs) = (wordStep pointer).read cs := by
  rw [readTerm]
  · rfl
  · simp

theorem readTerm_of_head (mode : Mode) (fuel : Nat) {cs : List Char}
    (hbracket : cs.head? ≠ some '[') (hcircumflex : cs.head? ≠ some '^')
    (hasterisk : cs.head? ≠ some '*') :
    readTerm mode (fuel + 1) cs = (wordStep mode.bare).read cs := by
  unfold readTerm
  split
  next h => simp at h
  next => simp at hbracket
  next => simp at hcircumflex
  next => simp at hasterisk
  next => rfl

theorem readOthers_plus (mode : Mode) (fuel : Nat) (cs : List Char) :
    readOthers mode (fuel + 1) ('+' :: cs) = (othersStep mode fuel).read cs := by
  rw [readOthers]
  rfl

theorem readOthers_of_head (mode : Mode) (fuel : Nat) {cs : List Char}
    (hcs : cs.head? ≠ some '+') : readOthers mode fuel cs = .ok ([], cs) := by
  unfold readOthers
  split
  next => simp at hcs
  next => rfl

theorem readGloss_mark (mode : Mode) (fuel : Nat) (cs : List Char) :
    readGloss mode (fuel + 1) ('?' :: cs) = (namedStep mode fuel).read cs := by
  rw [readGloss]
  rfl

theorem readGloss_of_head (mode : Mode) (fuel : Nat) {cs : List Char}
    (hcs : cs.head? ≠ some '?') : readGloss mode (fuel + 1) cs = (namedStep mode fuel).read cs := by
  rw [readGloss]
  have hmark : dropMark cs = cs := by
    unfold dropMark
    split
    next => simp at hcs
    next => rfl
  rw [hmark]
  rfl

/-- With enough fuel the readers of glosses look one character ahead. -/
structure LookOneAhead (mode : Mode) (fuel otherFuel : Nat) : Prop where
  gloss : ∀ {size}, 2 * size + 2 ≤ fuel → 2 * size + 2 ≤ otherFuel →
    AgreesAhead size (glossReader mode fuel) (glossReader mode otherFuel)
  term : ∀ {size}, 2 * size + 1 ≤ fuel → 2 * size + 1 ≤ otherFuel →
    AgreesAhead size (termReader mode fuel) (termReader mode otherFuel)
  others : ∀ {size}, 2 * size + 1 ≤ fuel → 2 * size + 1 ≤ otherFuel →
    AgreesAhead size (othersReader mode fuel) (othersReader mode otherFuel)

theorem agreesAhead_wordStep (size : Nat) (meaning : String → Gloss) :
    AgreesAhead size (wordStep meaning) (wordStep meaning) :=
  (agreesAhead_word size .word).chain fun word => agreesAhead_give size (meaning word)

section Steps

variable {mode : Mode} {fuel otherFuel size : Nat}

theorem LookOneAhead.namedStep (h : LookOneAhead mode fuel otherFuel)
    (hfuel : 2 * size + 1 ≤ fuel) (hother : 2 * size + 1 ≤ otherFuel) :
    AgreesAhead size (namedStep mode fuel) (namedStep mode otherFuel) := by
  have hnames : AgreesAhead size (namesReader fuel) (namesReader otherFuel) :=
    agreesAhead_names (by omega) (by omega)
  exact (h.term hfuel hother).chain fun term =>
    hnames.chain fun names => agreesAhead_give size (inflect term names)

theorem LookOneAhead.othersStep (h : LookOneAhead mode fuel otherFuel)
    (hfuel : 2 * size + 2 ≤ fuel) (hother : 2 * size + 2 ≤ otherFuel) :
    AgreesAhead size (othersStep mode fuel) (othersStep mode otherFuel) := by
  have hothers : AgreesAhead size (othersReader mode fuel) (othersReader mode otherFuel) :=
    h.others (by omega) (by omega)
  exact (h.gloss hfuel hother).chain fun first =>
    hothers.chain fun others => agreesAhead_give size (first :: others)

theorem LookOneAhead.rowStep (h : LookOneAhead mode fuel otherFuel)
    (hfuel : 2 * size + 2 ≤ fuel) (hother : 2 * size + 2 ≤ otherFuel) :
    AgreesAhead size (rowStep mode fuel) (rowStep mode otherFuel) := by
  have hothers : AgreesAhead size (othersReader mode fuel) (othersReader mode otherFuel) :=
    h.others (by omega) (by omega)
  exact (h.gloss hfuel hother).chain fun first =>
    hothers.chain fun others => agreesAhead_rowEnd size (compound (first :: others))

theorem LookOneAhead.gloss_succ (h : LookOneAhead mode fuel otherFuel)
    (hfuel : 2 * size + 1 ≤ fuel) (hother : 2 * size + 1 ≤ otherFuel) :
    AgreesAhead size (glossReader mode (fuel + 1)) (glossReader mode (otherFuel + 1)) := by
  apply agreesAhead_of_readsHead
  intro head
  by_cases hmark : head = some '?'
  · subst hmark
    refine .passed (readGloss_mark mode fuel) (readGloss_mark mode otherFuel) ?_
    intro smaller hsmaller
    exact h.namedStep (by omega) (by omega)
  · refine .kept ?_ ?_ (h.namedStep hfuel hother)
    · rintro cs rfl
      exact readGloss_of_head mode fuel hmark
    · rintro cs rfl
      exact readGloss_of_head mode otherFuel hmark

theorem LookOneAhead.term_succ (h : LookOneAhead mode fuel otherFuel)
    (hfuel : 2 * size ≤ fuel) (hother : 2 * size ≤ otherFuel) :
    AgreesAhead size (termReader mode (fuel + 1)) (termReader mode (otherFuel + 1)) := by
  apply agreesAhead_of_readsHead
  intro head
  by_cases hbracket : head = some '['
  · subst hbracket
    refine .passed (readTerm_bracket mode fuel) (readTerm_bracket mode otherFuel) ?_
    intro smaller hsmaller
    exact h.rowStep (by omega) (by omega)
  by_cases hcircumflex : head = some '^'
  · subst hcircumflex
    exact .passed (readTerm_circumflex mode fuel) (readTerm_circumflex mode otherFuel)
      fun smaller _ => agreesAhead_wordStep smaller literal
  by_cases hasterisk : head = some '*'
  · subst hasterisk
    exact .passed (readTerm_asterisk mode fuel) (readTerm_asterisk mode otherFuel)
      fun smaller _ => agreesAhead_wordStep smaller pointer
  · refine .kept ?_ ?_ (agreesAhead_wordStep size mode.bare)
    · rintro cs rfl
      exact readTerm_of_head mode fuel hbracket hcircumflex hasterisk
    · rintro cs rfl
      exact readTerm_of_head mode otherFuel hbracket hcircumflex hasterisk

theorem LookOneAhead.others_succ (h : LookOneAhead mode fuel otherFuel)
    (hfuel : 2 * size ≤ fuel) (hother : 2 * size ≤ otherFuel) :
    AgreesAhead size (othersReader mode (fuel + 1)) (othersReader mode (otherFuel + 1)) := by
  apply agreesAhead_of_readsHead
  intro head
  by_cases hplus : head = some '+'
  · subst hplus
    refine .passed (readOthers_plus mode fuel) (readOthers_plus mode otherFuel) ?_
    intro smaller hsmaller
    exact h.othersStep (by omega) (by omega)
  · refine .kept ?_ ?_ (agreesAhead_give size [])
    · rintro cs rfl
      exact readOthers_of_head mode _ hplus
    · rintro cs rfl
      exact readOthers_of_head mode _ hplus

end Steps

theorem lookOneAhead (mode : Mode) (fuel otherFuel : Nat) : LookOneAhead mode fuel otherFuel := by
  induction fuel generalizing otherFuel with
  | zero => constructor <;> omega
  | succ fuel ih =>
      cases otherFuel with
      | zero => constructor <;> omega
      | succ otherFuel =>
          have hsmaller := ih otherFuel
          constructor
          · intro size hfuel hother
            exact hsmaller.gloss_succ (by omega) (by omega)
          · intro size hfuel hother
            exact hsmaller.term_succ (by omega) (by omega)
          · intro size hfuel hother
            exact hsmaller.others_succ (by omega) (by omega)

/-! ### Whole texts -/

theorem stop_readGloss_of_readAll {mode : Mode} {cs : List Char} {fault : Fault}
    (h : readAll mode cs = .error fault) :
    stop (readGloss mode (2 * cs.length + 2) cs) = fault.rest := by
  rw [readAll] at h
  rcases bind_eq_error_iff.mp h with hread | ⟨⟨gloss, rest⟩, hread, hend⟩
  · rw [hread]
    rfl
  · rw [hread]
    simp only at hend
    split at hend
    next => cases hend
    next =>
        obtain rfl := Except.error.inj hend
        rfl

/-- No text goes on after the character at which a fault arose. -/
theorem not_canBeCompleted_of_readAll {mode : Mode} {before after : List Char} {c : Char}
    {fault : Fault} (h : readAll mode (before ++ c :: after) = .error fault)
    (hrest : fault.rest = c :: after) : ¬ CanBeCompleted mode (before ++ [c]) := by
  intro hcompleted
  obtain ⟨derivation, added, htext⟩ := (canBeCompleted_iff mode _).mp hcompleted
  have hchars : before ++ c :: added = derivation.text := by
    rw [← htext, List.append_assoc, List.singleton_append]
  -- Both texts are read alike up to the character, so the completed one is left there too.
  have hahead : AgreesAhead before.length (glossReader mode (2 * (before ++ c :: after).length + 2))
      (glossReader mode (2 * (before ++ c :: added).length + 2)) := by
    apply (lookOneAhead mode _ _).gloss
    · rw [List.length_append]
      omega
    · rw [List.length_append]
      omega
  have hhead : (c :: after).head? = (c :: added).head? := rfl
  have hstop : stop ((glossReader mode (2 * (before ++ c :: after).length + 2)).read
      (before ++ c :: after)) = [] ++ c :: after :=
    (stop_readGloss_of_readAll h).trans hrest
  have hleft := congrArg stop (hahead (Nat.le_refl _) hhead hstop)
  rw [stop_withStop, hchars] at hleft
  -- But a whole derivation is read to its end.
  have hread : (glossReader mode (2 * derivation.text.length + 2)).read (derivation.text ++ []) =
      .ok (derivation.meaning mode, []) :=
    readGloss_append mode derivation endsGloss_nil (Nat.le_add_right _ 2)
  rw [List.append_nil] at hread
  rw [hread] at hleft
  cases hleft

theorem CanBeCompleted.of_prefix {mode : Mode} {cs longer : List Char}
    (h : CanBeCompleted mode longer) (hbegins : cs <+: longer) : CanBeCompleted mode cs := by
  obtain ⟨derivation, hlonger⟩ := (canBeCompleted_iff mode longer).mp h
  exact (canBeCompleted_iff mode cs).mpr ⟨derivation, hbegins.trans hlonger⟩

theorem canBeCompleted_take_iff_of_readAll {mode : Mode} {cs : List Char} {fault : Fault}
    (h : readAll mode cs = .error fault) :
    ∃ before, before ++ fault.rest = cs ∧
      ∀ n ≤ cs.length, CanBeCompleted mode (cs.take n) ↔ n ≤ before.length := by
  obtain ⟨before, rfl, hcompleted⟩ := canBeCompleted_of_readAll h
  refine ⟨before, rfl, fun n hn => ⟨?_, ?_⟩⟩
  · intro htake
    by_contra hlong
    cases hrest : fault.rest with
    | nil =>
        rw [hrest, List.append_nil] at hn
        exact hlong hn
    | cons c after =>
        rw [hrest] at h htake
        refine not_canBeCompleted_of_readAll h hrest (htake.of_prefix ?_)
        rw [List.prefix_take_iff]
        constructor
        · exact ⟨after, by rw [List.append_assoc, List.singleton_append]⟩
        · rw [List.length_append, List.length_singleton]
          omega
  · intro hle
    apply hcompleted.of_prefix
    rw [List.take_append_of_le_length hle]
    exact List.take_prefix n before

/-- The position of a fault is the length of the longest beginning of the text that can be
completed to a gloss. -/
theorem canBeCompleted_take_iff {mode : Mode} {raw : String} {e : ParseError}
    (h : parse mode raw = .error e) :
    e.position ≤ raw.length ∧
      ∀ n ≤ raw.length, CanBeCompleted mode (raw.toList.take n) ↔ n ≤ e.position := by
  obtain ⟨fault, hread, rfl⟩ := exists_fault_of_parse h
  obtain ⟨before, hbefore, hiff⟩ := canBeCompleted_take_iff_of_readAll hread
  have hlength : raw.length = before.length + fault.rest.length := by
    rw [← String.length_toList, ← hbefore, List.length_append]
  have hposition : (ParseError.ofFault raw fault).position = before.length := by
    rw [ParseError.ofFault, hlength]
    exact Nat.add_sub_cancel _ _
  rw [hposition]
  constructor
  · omega
  · intro n hn
    exact hiff n (by rwa [String.length_toList])

/-- A row in which a row is closed, but not the outer one, and then goes on as a word. -/
theorem canBeCompleted_take_iff_nestedRow :
    parse .implicitLiterals "[[a]b]" = .error ⟨"[[a]b]", .elementEnd, some 'b', 4⟩ ∧
      (∀ n ≤ 6, CanBeCompleted .implicitLiterals ("[[a]b]".toList.take n) ↔ n ≤ 4) ∧
      ¬ CanBeCompleted .implicitLiterals "[[a]b".toList := by
  have h : parse .implicitLiterals "[[a]b]" = .error ⟨"[[a]b]", .elementEnd, some 'b', 4⟩ := by
    decide
  have hposition := (canBeCompleted_take_iff h).2
  have hlong := hposition 5 (by decide)
  exact ⟨h, hposition, fun hcompleted => absurd (hlong.mp hcompleted) (by decide)⟩

end Interlinear.Gloss
