import Interlinear.Gloss.Parser

/-!
# The grammar of glosses

A gloss is an optional question mark, a term, and names after number signs.  A term is a row of
glosses in brackets with plus signs between them, a word after a circumflex or an asterisk, or a
bare word.  Words and names are runs of word characters that are not empty.

A derivation is a parse tree of this grammar.  It has a text, the characters at its leaves from left
to right, and a meaning in each mode, the gloss that it stands for.  The grammar is unambiguous: a
text is the text of one derivation at most.  The argument reads two derivations of one text in
step.  What may follow a gloss is never the start of a further name or a further word character, so
that both end at the same place.
-/

namespace Interlinear.Gloss

/-- The characters that shape glosses and are part of no word. -/
def punctuation : List Char :=
  ['#', '[', ']', '+', '*', '^', '?']

def IsWord (text : String) : Prop :=
  text ≠ "" ∧ ∀ c ∈ text.toList, Unicode.isBlank c = false ∧ c ∉ punctuation

@[ext]
structure Word where
  text : String
  isWord : IsWord text

mutual
inductive Derivation where
  | gloss (marked : Bool) (term : TermDerivation) (names : List Word)
inductive TermDerivation where
  | row (first : Derivation) (others : List Derivation)
  | literal (word : Word)
  | pointer (word : Word)
  | bare (word : Word)
end

def Word.chars (word : Word) : List Char :=
  word.text.toList

def namesText (names : List Word) : List Char :=
  names.flatMap fun name => '#' :: name.chars

def markText (marked : Bool) : List Char :=
  if marked then ['?'] else []

mutual
def Derivation.text : Derivation → List Char
  | .gloss marked term names => markText marked ++ term.text ++ namesText names
def TermDerivation.text : TermDerivation → List Char
  | .row first others => '[' :: (first.text ++ othersText others ++ [']'])
  | .literal word => '^' :: word.chars
  | .pointer word => '*' :: word.chars
  | .bare word => word.chars
def othersText : List Derivation → List Char
  | [] => []
  | first :: others => '+' :: (first.text ++ othersText others)
end

mutual
/-- The gloss that a derivation stands for where bare words are read in a mode. -/
def Derivation.meaning (mode : Mode) : Derivation → Gloss
  | .gloss _ term [] => term.meaning mode
  | .gloss _ term (name :: names) =>
      inflection (term.meaning mode) ((name :: names).map Word.text)
def TermDerivation.meaning (mode : Mode) : TermDerivation → Gloss
  | .row first others => compound (first.meaning mode :: meanings mode others)
  | .literal word => literal word.text
  | .pointer word => pointer word.text
  | .bare word => mode.bare word.text
def meanings (mode : Mode) : List Derivation → List Gloss
  | [] => []
  | first :: others => first.meaning mode :: meanings mode others
end

/-- The texts in which a word cannot go on. -/
def EndsWord (rest : List Char) : Prop :=
  ∀ c, rest.head? = some c → isWordChar c = false

/-- The texts in which a gloss cannot go on. -/
structure EndsGloss (rest : List Char) : Prop where
  endsWord : EndsWord rest
  head_ne : rest.head? ≠ some '#'

theorem isWordChar_iff (c : Char) :
    isWordChar c = true ↔ Unicode.isBlank c = false ∧ c ∉ punctuation := by
  simp [isWordChar, punctuation, and_assoc]

instance (text : String) : Decidable (IsWord text) :=
  decidable_of_iff (text ≠ "" ∧ text.toList.all isWordChar = true)
    (by simp only [IsWord, List.all_eq_true, isWordChar_iff])

theorem isWordChar_eq_false_of_mem {c : Char} (hc : c ∈ punctuation) : isWordChar c = false := by
  rw [Bool.eq_false_iff]
  intro hword
  exact ((isWordChar_iff c).mp hword).2 hc

theorem endsWord_nil : EndsWord [] := by
  intro c hc
  simp at hc

theorem endsWord_cons {c : Char} (hc : c ∈ punctuation) (rest : List Char) :
    EndsWord (c :: rest) := by
  intro d hd
  simp only [List.head?_cons, Option.some.injEq] at hd
  subst d
  exact isWordChar_eq_false_of_mem hc

theorem endsGloss_nil : EndsGloss [] :=
  ⟨endsWord_nil, by simp⟩

theorem endsGloss_cons
    {c : Char} (hc : c ∈ punctuation) (hname : c ≠ '#') (rest : List Char) :
    EndsGloss (c :: rest) :=
  ⟨endsWord_cons hc rest, by simpa using hname⟩

theorem endsGloss_othersText (others : List Derivation) (rest : List Char) :
    EndsGloss (othersText others ++ ']' :: rest) := by
  cases others with
  | nil =>
      exact endsGloss_cons (by simp [punctuation]) (by decide) rest
  | cons first others =>
      exact endsGloss_cons (by simp [punctuation]) (by decide) _

theorem endsWord_namesText
    (names : List Word) {rest : List Char} (hrest : EndsGloss rest) :
    EndsWord (namesText names ++ rest) := by
  cases names with
  | nil => exact hrest.endsWord
  | cons name names =>
      exact endsWord_cons (by simp [punctuation]) _

/-! ### Words and names -/

theorem Word.isWordChar_of_mem (word : Word) {c : Char} (hc : c ∈ word.chars) :
    isWordChar c = true :=
  (isWordChar_iff c).mpr (word.isWord.2 c hc)

theorem Word.exists_chars_eq_cons (word : Word) :
    ∃ c cs, word.chars = c :: cs ∧ isWordChar c = true := by
  cases hchars : word.chars with
  | nil =>
      have hempty : word.text = "" := String.toList_eq_nil_iff.mp hchars
      exact absurd hempty word.isWord.1
  | cons c cs =>
      exact ⟨c, cs, rfl, word.isWordChar_of_mem (by simp [hchars])⟩

theorem Word.eq_of_chars_eq {word other : Word} (h : word.chars = other.chars) :
    word = other :=
  Word.ext (String.toList_inj.mp h)

theorem takeWhile_eq_nil {rest : List Char} (hrest : EndsWord rest) :
    rest.takeWhile isWordChar = [] := by
  cases rest with
  | nil => rfl
  | cons c rest =>
      have hc : isWordChar c = false := hrest c rfl
      simp [hc]

theorem dropWhile_eq_self {rest : List Char} (hrest : EndsWord rest) :
    rest.dropWhile isWordChar = rest := by
  cases rest with
  | nil => rfl
  | cons c rest =>
      have hc : isWordChar c = false := hrest c rfl
      simp [hc]

theorem Word.takeWhile_append
    (word : Word) {rest : List Char} (hrest : EndsWord rest) :
    (word.chars ++ rest).takeWhile isWordChar = word.chars := by
  rw [List.takeWhile_append_of_pos fun c hc => word.isWordChar_of_mem hc,
    takeWhile_eq_nil hrest, List.append_nil]

theorem Word.dropWhile_append
    (word : Word) {rest : List Char} (hrest : EndsWord rest) :
    (word.chars ++ rest).dropWhile isWordChar = rest := by
  rw [List.dropWhile_append_of_pos fun c hc => word.isWordChar_of_mem hc,
    dropWhile_eq_self hrest]

theorem Word.append_inj
    {word other : Word} {rest otherRest : List Char}
    (hrest : EndsWord rest) (hother : EndsWord otherRest)
    (h : word.chars ++ rest = other.chars ++ otherRest) :
    word = other ∧ rest = otherRest := by
  have htake := congrArg (List.takeWhile isWordChar) h
  have hdrop := congrArg (List.dropWhile isWordChar) h
  rw [word.takeWhile_append hrest, other.takeWhile_append hother] at htake
  rw [word.dropWhile_append hrest, other.dropWhile_append hother] at hdrop
  exact ⟨Word.eq_of_chars_eq htake, hdrop⟩

theorem namesText_append_inj
    {names others : List Word} {rest otherRest : List Char}
    (hrest : EndsGloss rest) (hother : EndsGloss otherRest)
    (h : namesText names ++ rest = namesText others ++ otherRest) :
    names = others ∧ rest = otherRest := by
  induction names generalizing others with
  | nil =>
      cases others with
      | nil => exact ⟨rfl, h⟩
      | cons other others =>
          exact absurd (congrArg List.head? h) hrest.head_ne
  | cons name names ih =>
      cases others with
      | nil => exact absurd (congrArg List.head? h).symm hother.head_ne
      | cons other others =>
          have htail :
              name.chars ++ (namesText names ++ rest) =
                other.chars ++ (namesText others ++ otherRest) := by
            simpa [namesText] using h
          obtain ⟨rfl, hnames⟩ := Word.append_inj
            (endsWord_namesText names hrest) (endsWord_namesText others hother) htail
          obtain ⟨rfl, heq⟩ := ih hnames
          exact ⟨rfl, heq⟩

theorem Word.append_ne_cons
    (word : Word) {c : Char} (hc : c ∈ punctuation) (rest cs : List Char) :
    word.chars ++ rest ≠ c :: cs := by
  obtain ⟨d, ds, hchars, hd⟩ := word.exists_chars_eq_cons
  rw [hchars, List.cons_append]
  intro h
  simp only [List.cons.injEq] at h
  rw [h.1, isWordChar_eq_false_of_mem hc] at hd
  contradiction

/-! ### Unique readability -/

theorem TermDerivation.append_ne_mark (term : TermDerivation) (rest cs : List Char) :
    term.text ++ rest ≠ '?' :: cs := by
  cases term with
  | row first others => simp [TermDerivation.text]
  | literal word => simp [TermDerivation.text]
  | pointer word => simp [TermDerivation.text]
  | bare word => exact word.append_ne_cons (by simp [punctuation]) rest cs

theorem markText_append_inj
    {marked otherMarked : Bool} {term other : TermDerivation} {rest otherRest : List Char}
    (h : markText marked ++ (term.text ++ rest) =
      markText otherMarked ++ (other.text ++ otherRest)) :
    marked = otherMarked ∧ term.text ++ rest = other.text ++ otherRest := by
  cases marked with
  | false =>
      cases otherMarked with
      | false => exact ⟨rfl, h⟩
      | true => exact absurd h (term.append_ne_mark rest _)
  | true =>
      cases otherMarked with
      | false => exact absurd h.symm (other.append_ne_mark otherRest _)
      | true => exact ⟨rfl, by simpa [markText] using h⟩

mutual
theorem Derivation.text_append_inj :
    (derivation other : Derivation) → {rest otherRest : List Char} →
    EndsGloss rest → EndsGloss otherRest →
    derivation.text ++ rest = other.text ++ otherRest →
    derivation = other ∧ rest = otherRest
  | .gloss marked term names, .gloss otherMarked otherTerm otherNames,
      rest, otherRest, hrest, hother, h => by
      simp only [Derivation.text, List.append_assoc] at h
      obtain ⟨rfl, hterm⟩ := markText_append_inj h
      obtain ⟨rfl, hnames⟩ := TermDerivation.text_append_inj term otherTerm
        (endsWord_namesText names hrest) (endsWord_namesText otherNames hother) hterm
      obtain ⟨rfl, heq⟩ := namesText_append_inj hrest hother hnames
      exact ⟨rfl, heq⟩
theorem TermDerivation.text_append_inj :
    (term other : TermDerivation) → {rest otherRest : List Char} →
    EndsWord rest → EndsWord otherRest →
    term.text ++ rest = other.text ++ otherRest →
    term = other ∧ rest = otherRest
  | .row first others, .row otherFirst otherOthers, rest, otherRest, _, _, h => by
      have htail :
          first.text ++ (othersText others ++ ']' :: rest) =
            otherFirst.text ++ (othersText otherOthers ++ ']' :: otherRest) := by
        simpa [TermDerivation.text] using h
      obtain ⟨rfl, hothers⟩ := Derivation.text_append_inj first otherFirst
        (endsGloss_othersText others rest) (endsGloss_othersText otherOthers otherRest) htail
      obtain ⟨rfl, heq⟩ := othersText_append_inj others otherOthers hothers
      exact ⟨rfl, heq⟩
  | .literal word, .literal otherWord, rest, otherRest, hrest, hother, h => by
      have htail : word.chars ++ rest = otherWord.chars ++ otherRest := by
        simpa [TermDerivation.text] using h
      obtain ⟨rfl, heq⟩ := Word.append_inj hrest hother htail
      exact ⟨rfl, heq⟩
  | .pointer word, .pointer otherWord, rest, otherRest, hrest, hother, h => by
      have htail : word.chars ++ rest = otherWord.chars ++ otherRest := by
        simpa [TermDerivation.text] using h
      obtain ⟨rfl, heq⟩ := Word.append_inj hrest hother htail
      exact ⟨rfl, heq⟩
  | .bare word, .bare otherWord, rest, otherRest, hrest, hother, h => by
      obtain ⟨rfl, heq⟩ := Word.append_inj hrest hother h
      exact ⟨rfl, heq⟩
  | .row _ _, .literal _, _, _, _, _, h | .row _ _, .pointer _, _, _, _, _, h
  | .literal _, .row _ _, _, _, _, _, h | .literal _, .pointer _, _, _, _, _, h
  | .pointer _, .row _ _, _, _, _, _, h | .pointer _, .literal _, _, _, _, _, h => by
      simp [TermDerivation.text] at h
  | .bare word, .row _ _, rest, _, _, _, h | .bare word, .literal _, rest, _, _, _, h
  | .bare word, .pointer _, rest, _, _, _, h =>
      absurd h (word.append_ne_cons (by simp [punctuation]) rest _)
  | .row _ _, .bare word, _, otherRest, _, _, h | .literal _, .bare word, _, otherRest, _, _, h
  | .pointer _, .bare word, _, otherRest, _, _, h =>
      absurd h.symm (word.append_ne_cons (by simp [punctuation]) otherRest _)
theorem othersText_append_inj :
    (derivations others : List Derivation) → {rest otherRest : List Char} →
    othersText derivations ++ ']' :: rest = othersText others ++ ']' :: otherRest →
    derivations = others ∧ rest = otherRest
  | [], [], _, _, h => ⟨rfl, by simpa [othersText] using h⟩
  | [], _ :: _, _, _, h | _ :: _, [], _, _, h => by simp [othersText] at h
  | first :: derivations, otherFirst :: others, rest, otherRest, h => by
      have htail :
          first.text ++ (othersText derivations ++ ']' :: rest) =
            otherFirst.text ++ (othersText others ++ ']' :: otherRest) := by
        simpa [othersText] using h
      obtain ⟨rfl, hothers⟩ := Derivation.text_append_inj first otherFirst
        (endsGloss_othersText derivations rest) (endsGloss_othersText others otherRest) htail
      obtain ⟨rfl, heq⟩ := othersText_append_inj derivations others hothers
      exact ⟨rfl, heq⟩
end

/-- A text has one derivation at most. -/
theorem Derivation.text_injective : Function.Injective Derivation.text := by
  intro derivation other h
  have happend : derivation.text ++ [] = other.text ++ [] := by rw [h]
  exact (Derivation.text_append_inj derivation other endsGloss_nil endsGloss_nil happend).1

end Interlinear.Gloss
