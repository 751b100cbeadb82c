import Interlinear.Proofs.Morphology.Leaves
import Interlinear.Proofs.Numeral.Digits
import Interlinear.Proofs.Pattern.Cursors

/-!
# The templates that can be read

A template is a row of characters and escapes.  An escape refers to a group of the pattern, by a
number or between angle brackets, or it writes a code, a control or a character that is no letter.
A template can be read for a pattern if and only if it is such a row.

The digits of a number are taken as far as they go, two of them at most unless there are three that
write an octal code.  A text in angle brackets is a group's name if it can be one, and else has to
be a number.  Neither has a backslash, so that the bracket that closes it is the first one.
-/

namespace Interlinear.Pattern

open Outcome

/-! ## The grammar -/

namespace Template

/-- The group that is meant by a text in angle brackets: its name, or its number. -/
inductive NamesGroup (pattern : Pattern) (name : List Char) : Nat → Prop
  | byName {index : Nat} (hname : Unicode.isIdentifier name = true)
      (hindex : pattern.names.lookup name = some index) : NamesGroup pattern name index
  | byNumber {index : Nat} (hname : Unicode.isIdentifier name = false)
      (hnumber : Numeral.readInteger (String.ofList name) = .ok (.ofNat index))
      (hlimit : index < Builder.groupLimit) : NamesGroup pattern name index

/-- An escape without its backslash at the start of a text, and what follows it. -/
inductive Escape (pattern : Pattern) : List Char → List Char → Prop
  | named {name cs : List Char} {index : Nat} (hindex : NamesGroup pattern name index)
      (hgroup : index ≤ pattern.groups) (hname : '>' ∉ name) :
      Escape pattern ('g' :: '<' :: (name ++ '>' :: cs)) cs
  | zero {cs : List Char} :
      Escape pattern ('0' :: cs) (cs.drop ((cs.take 2).takeWhile isOctal).length)
  | digit {first : Char} {cs : List Char} (hfirst : Numeral.isAsciiDigit first = true)
      (hzero : first ≠ '0') (hnext : ∀ c ∈ cs.head?, Numeral.isAsciiDigit c = false)
      (hgroup : numberIn 10 [first] ≤ pattern.groups) : Escape pattern (first :: cs) cs
  | digits {first second : Char} {cs : List Char} (hfirst : Numeral.isAsciiDigit first = true)
      (hzero : first ≠ '0') (hsecond : Numeral.isAsciiDigit second = true)
      (hoctal : ¬ StartsOctal first second cs)
      (hgroup : numberIn 10 [first, second] ≤ pattern.groups) :
      Escape pattern (first :: second :: cs) cs
  | octal {first second third : Char} {cs : List Char} (hfirst : isOctal first = true)
      (hzero : first ≠ '0') (hsecond : isOctal second = true) (hthird : isOctal third = true)
      (hcode : numberIn 8 [first, second, third] ≤ 0o377) :
      Escape pattern (first :: second :: third :: cs) cs
  | control {c : Char} {cs : List Char} (hc : c = 'b' ∨ (controlCode? c).isSome) :
      Escape pattern (c :: cs) cs
  | mark {c : Char} {cs : List Char} (hletter : isAsciiLetter c = false)
      (hdigit : Numeral.isAsciiDigit c = false) : Escape pattern (c :: cs) cs

/-- A row of characters and escapes. -/
inductive WellFormed (pattern : Pattern) : List Char → Prop
  | nil : WellFormed pattern []
  | plain {c : Char} {cs : List Char} (hc : c ≠ '\\') (hcs : WellFormed pattern cs) :
      WellFormed pattern (c :: cs)
  | escape {cs rest : List Char} (hescape : Escape pattern cs rest)
      (hrest : WellFormed pattern rest) : WellFormed pattern ('\\' :: cs)

theorem WellFormed.ne_backslash {pattern : Pattern} {cs : List Char}
    (h : WellFormed pattern cs) : cs ≠ ['\\'] := by
  rintro rfl
  cases h with
  | plain hc => exact hc rfl
  | escape hescape => cases hescape

theorem Escape.suffix {pattern : Pattern} {c : Char} {cs rest : List Char}
    (h : Escape pattern (c :: cs) rest) : rest <:+ cs := by
  cases h with
  | @named name rest index => exact ⟨'<' :: (name ++ ['>']), by simp⟩
  | zero => exact List.drop_suffix _ _
  | digit => exact List.suffix_rfl
  | @digits first second => exact ⟨[second], rfl⟩
  | @octal first second third => exact ⟨[second, third], rfl⟩
  | control => exact List.suffix_rfl
  | mark => exact List.suffix_rfl

/-- A last backslash is no part of the escape before it. -/
theorem Escape.eq_of_backslash {pattern : Pattern} {c : Char} {rest : List Char}
    (h : Escape pattern [c, '\\'] rest) : rest = ['\\'] := by
  generalize hcs : [c, '\\'] = cs at h
  cases h with
  | named => simp at hcs
  | zero =>
      obtain ⟨-, rfl⟩ := List.cons.inj hcs
      rfl
  | digit => exact (List.cons.inj hcs).2.symm
  | digits _ _ hsecond =>
      obtain ⟨rfl, -⟩ := List.cons.inj (List.cons.inj hcs).2
      cases hsecond
  | octal => simp at hcs
  | control => exact (List.cons.inj hcs).2.symm
  | mark => exact (List.cons.inj hcs).2.symm

end Template

namespace Template

open Cursor

variable {pattern : Pattern} {cursor next : Cursor} {part : TemplatePart} {c : Char}
  {cs rest name : List Char}

theorem not_mem_of_isIdentifier (h : Unicode.isIdentifier name = true) : '\\' ∉ name := by
  intro hmem
  cases name with
  | nil => cases h
  | cons c rest =>
      simp only [Unicode.isIdentifier, Bool.and_eq_true, List.all_eq_true] at h
      have hstarts : Unicode.startsIdentifier '\\' = false := by decide +kernel
      have hcontinues : Unicode.continuesIdentifier '\\' = false := by decide +kernel
      rcases List.mem_cons.mp hmem with rfl | hmem
      · simp [hstarts] at h
      · exact absurd (h.2 '\\' hmem) (by simp [hcontinues])

theorem not_mem_of_readInteger {number : Int}
    (h : Numeral.readInteger (String.ofList name) = .ok number) : '\\' ∉ name := by
  intro hmem
  unfold Numeral.readInteger at h
  rw [String.toList_ofList] at h
  have hmem : '\\' ∈ Numeral.strip Numeral.isAsciiBlank (name.map Numeral.toAscii) :=
    Numeral.mem_strip (List.mem_map.mpr ⟨'\\', hmem, rfl⟩) rfl
  have hunsigned : '\\' ∈ (Numeral.splitSign
      (Numeral.strip Numeral.isAsciiBlank (name.map Numeral.toAscii))).2 := by
    unfold Numeral.splitSign
    split
    next cs heq => simpa [heq] using hmem
    next cs heq => simpa [heq] using hmem
    next => exact hmem
  cases hdigits : Numeral.groupedDigits? (Numeral.splitSign
      (Numeral.strip Numeral.isAsciiBlank (name.map Numeral.toAscii))).2 with
  | none => simp [hdigits] at h
  | some digits =>
      rcases Numeral.of_mem_groupedDigits? hdigits '\\' hunsigned with hdigit | hmark
      · cases hdigit
      · cases hmark

theorem NamesGroup.not_mem {index : Nat} (h : NamesGroup pattern name index) : '\\' ∉ name := by
  cases h with
  | byName hname => exact not_mem_of_isIdentifier hname
  | byNumber _ hnumber => exact not_mem_of_readInteger hnumber

theorem NamesGroup.ne_nil {index : Nat} (h : NamesGroup pattern name index) : name ≠ [] := by
  rintro rfl
  cases h with
  | byName hname => cases hname
  | byNumber _ hnumber => cases hnumber

theorem reference_eq_ok_iff {index back : Nat} :
    reference pattern cursor index back = .ok part ↔
      index ≤ pattern.groups ∧ part = .group index := by
  unfold reference
  by_cases hindex : pattern.groups < index
  · simp [if_pos hindex, Nat.not_le.mpr hindex]
  · simp [if_neg hindex, Nat.not_lt.mp hindex, eq_comm]

theorem exists_namedPart_eq_ok {index : Nat} (hindex : NamesGroup pattern name index)
    (hgroup : index ≤ pattern.groups) (hname : '>' ∉ name) (hrest : rest ≠ ['\\'])
    (h : cursor.StandsBefore ('<' :: (name ++ '>' :: rest))) :
    ∃ part next, namedPart pattern cursor = .ok (part, next) ∧ next.StandsBefore rest := by
  have hisNext : cursor.isNext '<' = true := (h.isNext_iff (by decide)).mpr rfl
  have hplain : ∀ c ∈ name, c ≠ '\\' ∧ c ≠ '>' := by
    intro c hc
    constructor
    · rintro rfl
      exact hindex.not_mem hc
    · rintro rfl
      exact hname hc
  have hne : name ++ '>' :: rest ≠ ['\\'] := by
    intro hlast
    have hmem : '>' ∈ ['\\'] := hlast ▸ by simp
    simp at hmem
  obtain ⟨opened, hopened, hbefore, -⟩ := (h.isAt_plain (by decide)).exists_advance hne
  have htaken : Leaves (opened.takeName '>' "group name") name rest :=
    leaves_takeName (by decide) hindex.ne_nil hplain hbefore
  obtain ⟨next, hnext⟩ := htaken.exists_eq_ok hrest
  refine ⟨.group index, next, ?_, (htaken.of_eq_ok name next hnext).2⟩
  unfold namedPart
  simp only [hisNext, Bool.not_true, Bool.false_eq_true, if_false, hopened, mapError_ok, ok_bind,
    hnext]
  have hreference : ∀ back, reference pattern next index back = .ok (.group index) :=
    fun back => reference_eq_ok_iff.mpr ⟨hgroup, rfl⟩
  cases hindex with
  | byName hidentifier hlookup => simp [hidentifier, hlookup, hreference]
  | byNumber hidentifier hnumber hlimit =>
      simp [hidentifier, hnumber, hreference, Nat.not_le.mpr hlimit]

theorem namedPart_eq_ok (h : cursor.StandsBefore cs)
    (heq : namedPart pattern cursor = .ok (part, next)) :
    ∃ rest, next.StandsBefore rest ∧ Escape pattern ('g' :: cs) rest := by
  unfold namedPart at heq
  cases hisNext : cursor.isNext '<' with
  | false => simp [hisNext] at heq
  | true =>
      obtain ⟨cs, rfl⟩ := List.head?_eq_some_iff.mp ((h.isNext_iff (by decide)).mp hisNext)
      simp only [hisNext, Bool.not_true, Bool.false_eq_true, if_false, bind_eq_ok_iff,
        mapError_eq_ok_iff] at heq
      obtain ⟨opened, hopened, ⟨name, closed⟩, hname, heq⟩ := heq
      obtain ⟨hbefore, -⟩ := (h.isAt_plain (by decide)).of_advance hopened
      unfold takeName at hname
      obtain ⟨text, rest, rfl, htext, hplain, hclosed⟩ :=
        takeNameFrom_eq_ok (by decide) hbefore hname
      obtain rfl : name = text := htext
      have hwritten : ∀ {index : Nat}, NamesGroup pattern name index → index ≤ pattern.groups →
          Escape pattern ('g' :: '<' :: (name ++ '>' :: rest)) rest :=
        fun hindex hgroup => .named hindex hgroup (hplain hindex.not_mem)
      cases hidentifier : Unicode.isIdentifier name with
      | true =>
          cases hlookup : pattern.names.lookup name with
          | none => simp [hidentifier, hlookup] at heq
          | some index =>
              simp only [hidentifier, hlookup, if_true, bind_eq_ok_iff, reference_eq_ok_iff] at heq
              obtain ⟨_, ⟨hgroup, -⟩, heq⟩ := heq
              cases heq
              exact ⟨rest, hclosed, hwritten (.byName hidentifier hlookup) hgroup⟩
      | false =>
          simp only [hidentifier, Bool.false_eq_true, if_false] at heq
          split at heq
          next index hnumber =>
              split at heq
              next => cases heq
              next hlimit =>
                  simp only [bind_eq_ok_iff, reference_eq_ok_iff] at heq
                  obtain ⟨_, ⟨hgroup, -⟩, heq⟩ := heq
                  cases heq
                  exact ⟨rest, hclosed,
                    hwritten (.byNumber hidentifier hnumber (Nat.not_le.mp hlimit)) hgroup⟩
          next => cases heq

theorem escapePart_named : escapePart pattern 'g' cursor = namedPart pattern cursor := by
  unfold escapePart
  rw [if_pos rfl]

theorem escapePart_zero :
    escapePart pattern '0' cursor =
      (cursor.takeUpTo isOctal 2).mapError .fault >>= fun taken =>
        .ok (textCode (numberIn 8 taken.1), taken.2) := by
  unfold escapePart
  rw [if_neg (by decide), if_pos rfl]

/-- What the number of an escape stands for. -/
def numberPart (pattern : Pattern) (taken : NumberEscape × Cursor) :
    Except TemplateError (TemplatePart × Cursor) :=
  match taken.1 with
  | .code code => .ok (textCode code, taken.2)
  | .group digits =>
      reference pattern taken.2 (numberIn 10 digits) digits.length >>= fun part =>
        .ok (part, taken.2)

theorem escapePart_number (hdigit : Numeral.isAsciiDigit c = true) (hzero : c ≠ '0') :
    escapePart pattern c cursor =
      (cursor.numberEscape c).mapError .fault >>= numberPart pattern := by
  have hname : c ≠ 'g' := by
    rintro rfl
    cases hdigit
  unfold escapePart
  rw [if_neg hname, if_neg hzero, if_pos hdigit]
  rfl

theorem of_numberPart_eq_ok {number : NumberEscape}
    (h : numberPart pattern (number, cursor) = .ok (part, next)) :
    next = cursor ∧ ∀ digits, number = .group digits → numberIn 10 digits ≤ pattern.groups := by
  unfold numberPart at h
  cases number with
  | code code =>
      cases h
      exact ⟨rfl, fun digits hdigits => by cases hdigits⟩
  | group digits =>
      obtain ⟨reference, hreference, h⟩ := bind_eq_ok_iff.mp h
      cases h
      refine ⟨rfl, ?_⟩
      intro others hothers
      cases hothers
      exact (reference_eq_ok_iff.mp hreference).1

theorem escapePart_control (pattern : Pattern) (cursor : Cursor)
    (hc : c = 'b' ∨ (controlCode? c).isSome) :
    ∃ code, escapePart pattern c cursor = .ok (textCode code, cursor) := by
  rcases hc with rfl | hc
  · exact ⟨8, rfl⟩
  · unfold controlCode? at hc
    split at hc
    case h_8 => cases hc
    all_goals exact ⟨_, rfl⟩

theorem escapePart_eq (hname : c ≠ 'g') (hdigit : Numeral.isAsciiDigit c = false)
    (hcontrol : ¬ (c = 'b' ∨ (controlCode? c).isSome)) :
    escapePart pattern c cursor =
      if isAsciiLetter c then .error (.fault (cursor.badEscape c))
      else .ok (.text ['\\', c], cursor) := by
  have hzero : c ≠ '0' := by
    rintro rfl
    cases hdigit
  obtain ⟨hb, hcode⟩ := not_or.mp hcontrol
  unfold escapePart
  rw [if_neg hname, if_neg hzero, hdigit, if_neg (by simp), if_neg hb,
    Option.not_isSome_iff_eq_none.mp hcode]

theorem exists_escapePart_number {number : NumberEscape}
    (hdigit : Numeral.isAsciiDigit c = true) (hzero : c ≠ '0') (hrest : rest ≠ ['\\'])
    (hleaves : Leaves (cursor.numberEscape c) number rest)
    (hpart : ∀ next, ∃ part, numberPart pattern (number, next) = .ok (part, next)) :
    ∃ part next, escapePart pattern c cursor = .ok (part, next) ∧ next.StandsBefore rest := by
  obtain ⟨next, hnext⟩ := hleaves.exists_eq_ok hrest
  obtain ⟨part, hpart⟩ := hpart next
  refine ⟨part, next, ?_, (hleaves.of_eq_ok number next hnext).2⟩
  rw [escapePart_number hdigit hzero, hnext, mapError_ok, ok_bind, hpart]

theorem exists_numberPart_group {digits : List Char}
    (hgroup : numberIn 10 digits ≤ pattern.groups) (next : Cursor) :
    ∃ part, numberPart pattern (.group digits, next) = .ok (part, next) := by
  refine ⟨.group (numberIn 10 digits), ?_⟩
  unfold numberPart
  dsimp only
  rw [reference_eq_ok_iff.mpr ⟨hgroup, rfl⟩, ok_bind]

theorem exists_escapePart_eq_ok (hescape : Escape pattern (c :: cs) rest) (hrest : rest ≠ ['\\'])
    (h : cursor.StandsBefore cs) :
    ∃ part next, escapePart pattern c cursor = .ok (part, next) ∧ next.StandsBefore rest := by
  cases hescape with
  | named hindex hgroup hname =>
      rw [escapePart_named]
      exact exists_namedPart_eq_ok hindex hgroup hname hrest h
  | zero =>
      have hleaves := leaves_takeUpTo isOctal_backslash 2 h
      obtain ⟨next, hnext⟩ := hleaves.exists_eq_ok hrest
      rw [escapePart_zero, hnext]
      exact ⟨_, next, rfl, (hleaves.of_eq_ok _ next hnext).2⟩
  | digit hfirst hzero hnext hindex =>
      exact exists_escapePart_number hfirst hzero hrest (leaves_numberEscape_digit h hnext)
        (exists_numberPart_group hindex)
  | digits hfirst hzero hsecond hoctal hindex =>
      exact exists_escapePart_number hfirst hzero hrest
        (leaves_numberEscape_digits h hsecond hoctal) (exists_numberPart_group hindex)
  | octal hfirst hzero hsecond hthird hcode =>
      exact exists_escapePart_number (isAsciiDigit_of_isOctal hfirst) hzero hrest
        (leaves_numberEscape_octal h hfirst hsecond hthird hcode) fun next => ⟨_, rfl⟩
  | control hc =>
      obtain ⟨code, hpart⟩ := escapePart_control pattern cursor hc
      exact ⟨textCode code, cursor, hpart, h⟩
  | mark hletter hdigit =>
      by_cases hcontrol : c = 'b' ∨ (controlCode? c).isSome
      · obtain ⟨code, hpart⟩ := escapePart_control pattern cursor hcontrol
        exact ⟨textCode code, cursor, hpart, h⟩
      · have hname : c ≠ 'g' := by
          rintro rfl
          cases hletter
        refine ⟨.text ['\\', c], cursor, ?_, h⟩
        rw [escapePart_eq hname hdigit hcontrol, hletter, if_neg (by simp)]

theorem escapePart_number_eq_ok (hdigit : Numeral.isAsciiDigit c = true) (hzero : c ≠ '0')
    (h : cursor.StandsBefore cs) (heq : escapePart pattern c cursor = .ok (part, next)) :
    ∃ rest, next.StandsBefore rest ∧ Escape pattern (c :: cs) rest := by
  rw [escapePart_number hdigit hzero] at heq
  obtain ⟨⟨number, after⟩, hafter, heq⟩ := bind_eq_ok_iff.mp heq
  rw [mapError_eq_ok_iff] at hafter
  obtain ⟨rfl, hgroup⟩ := of_numberPart_eq_ok heq
  by_cases hnext : ∀ d ∈ cs.head?, Numeral.isAsciiDigit d = false
  · obtain ⟨rfl, hbefore⟩ := (leaves_numberEscape_digit h hnext).of_eq_ok _ _ hafter
    exact ⟨cs, hbefore, .digit hdigit hzero hnext (hgroup [c] rfl)⟩
  obtain ⟨second, cs, rfl, hsecond⟩ :
      ∃ second rest, cs = second :: rest ∧ Numeral.isAsciiDigit second = true := by
    cases cs with
    | nil => simp at hnext
    | cons second cs => exact ⟨second, cs, rfl, by simpa using hnext⟩
  by_cases hoctal : StartsOctal c second cs
  · obtain ⟨hfirst, hsecond, third, hthird, hisOctal⟩ := hoctal
    obtain ⟨cs, rfl⟩ := List.head?_eq_some_iff.mp hthird
    by_cases hcode : numberIn 8 [c, second, third] ≤ 0o377
    · obtain ⟨-, hbefore⟩ :=
        (leaves_numberEscape_octal h hfirst hsecond hisOctal hcode).of_eq_ok _ _ hafter
      exact ⟨cs, hbefore, .octal hfirst hzero hsecond hisOctal hcode⟩
    · exact absurd hafter
        (numberEscape_octal_ne_ok h hfirst hsecond hisOctal (Nat.lt_of_not_le hcode) _)
  · obtain ⟨rfl, hbefore⟩ := (leaves_numberEscape_digits h hsecond hoctal).of_eq_ok _ _ hafter
    exact ⟨cs, hbefore, .digits hdigit hzero hsecond hoctal (hgroup [c, second] rfl)⟩

theorem escapePart_eq_ok (h : cursor.StandsBefore cs)
    (heq : escapePart pattern c cursor = .ok (part, next)) :
    ∃ rest, next.StandsBefore rest ∧ Escape pattern (c :: cs) rest := by
  by_cases hname : c = 'g'
  · subst hname
    rw [escapePart_named] at heq
    exact namedPart_eq_ok h heq
  by_cases hzero : c = '0'
  · subst hzero
    rw [escapePart_zero] at heq
    obtain ⟨⟨digits, after⟩, hafter, heq⟩ := bind_eq_ok_iff.mp heq
    obtain ⟨-, hbefore⟩ := (leaves_takeUpTo isOctal_backslash 2 h).of_eq_ok digits after
      (mapError_eq_ok_iff.mp hafter)
    cases heq
    exact ⟨_, hbefore, .zero⟩
  cases hdigit : Numeral.isAsciiDigit c with
  | true => exact escapePart_number_eq_ok hdigit hzero h heq
  | false =>
      by_cases hcontrol : c = 'b' ∨ (controlCode? c).isSome
      · obtain ⟨code, hpart⟩ := escapePart_control pattern cursor hcontrol
        rw [hpart] at heq
        cases heq
        exact ⟨cs, h, .control hcontrol⟩
      · rw [escapePart_eq hname hdigit hcontrol] at heq
        cases hletter : isAsciiLetter c with
        | true => simp [hletter] at heq
        | false =>
            rw [hletter, if_neg (by simp)] at heq
            cases heq
            exact ⟨cs, h, .mark hletter hdigit⟩

theorem partsFrom_plain (fuel : Nat) (h : cursor.peek = some (.plain c)) :
    partsFrom pattern (fuel + 1) cursor =
      cursor.advance.mapError .fault >>= fun next =>
        partsFrom pattern fuel next >>= fun parts => .ok (.text [c] :: parts) := by
  rw [partsFrom, h]
  rfl

theorem partsFrom_escaped (fuel : Nat) (h : cursor.peek = some (.escaped c)) :
    partsFrom pattern (fuel + 1) cursor =
      cursor.advance.mapError .fault >>= fun next =>
        escapePart pattern c next >>= fun taken =>
          partsFrom pattern fuel taken.2 >>= fun parts => .ok (taken.1 :: parts) := by
  rw [partsFrom, h]

/-- The parts of a template can be read from a cursor on if and only if what is left is well-formed.
Every symbol takes one of the rounds, so that there is a round for each symbol left. -/
theorem exists_partsFrom_eq_ok_iff {fuel : Nat} (hfuel : cursor.rest.length ≤ fuel)
    (h : cursor.StandsBefore cs) :
    (∃ parts, partsFrom pattern fuel cursor = .ok parts) ↔ WellFormed pattern cs := by
  induction fuel generalizing cursor cs with
  | zero =>
      have hnil : cs = [] := by
        have hcursor : cursor.rest = [] := List.eq_nil_of_length_eq_zero (Nat.le_zero.mp hfuel)
        rcases eq_nil_or_plain_or_escaped h.ne_backslash with
          hnil | ⟨c, rest, hc, rfl⟩ | ⟨c, rest, rfl⟩
        · exact hnil
        · obtain ⟨position, after, hrest⟩ := h.isAt_plain hc
          simp [hcursor] at hrest
        · obtain ⟨position, after, hrest⟩ := h.isAt_escaped
          simp [hcursor] at hrest
      rw [hnil]
      exact ⟨fun _ => .nil, fun _ => ⟨[], rfl⟩⟩
  | succ fuel ih =>
      rcases eq_nil_or_plain_or_escaped h.ne_backslash with
        rfl | ⟨c, rest, hc, rfl⟩ | ⟨c, rest, rfl⟩
      · rw [partsFrom, h.peek_nil]
        exact ⟨fun _ => .nil, fun _ => ⟨[], rfl⟩⟩
      · have hat := h.isAt_plain hc
        rw [partsFrom_plain fuel hat.peek]
        constructor
        · rintro ⟨parts, heq⟩
          simp only [bind_eq_ok_iff, mapError_eq_ok_iff] at heq
          obtain ⟨next, hnext, others, hothers, -⟩ := heq
          obtain ⟨hbefore, hlength⟩ := hat.of_advance hnext
          exact .plain hc ((ih (by omega) hbefore).mp ⟨others, hothers⟩)
        · intro hwellFormed
          cases hwellFormed with
          | escape => exact absurd rfl hc
          | plain _ hrest =>
              obtain ⟨next, hnext, hbefore, hlength⟩ := hat.exists_advance hrest.ne_backslash
              obtain ⟨parts, hparts⟩ := (ih (by omega) hbefore).mpr hrest
              exact ⟨.text [c] :: parts, by rw [hnext, mapError_ok, ok_bind, hparts, ok_bind]⟩
      · have hat := h.isAt_escaped
        rw [partsFrom_escaped fuel hat.peek]
        constructor
        · rintro ⟨parts, heq⟩
          simp only [bind_eq_ok_iff, mapError_eq_ok_iff] at heq
          obtain ⟨next, hnext, ⟨part, after⟩, hpart, others, hothers, -⟩ := heq
          obtain ⟨hbefore, hlength⟩ := hat.of_advance hnext
          obtain ⟨last, hlast, hescape⟩ := escapePart_eq_ok hbefore hpart
          have hle := hbefore.length_le hlast hescape.suffix
          exact .escape hescape ((ih (by omega) hlast).mp ⟨others, hothers⟩)
        · intro hwellFormed
          cases hwellFormed with
          | plain hbackslash => exact absurd rfl hbackslash
          | @escape _ last hescape hlast =>
              have hrest : rest ≠ ['\\'] := by
                rintro rfl
                exact hlast.ne_backslash hescape.eq_of_backslash
              obtain ⟨next, hnext, hbefore, hlength⟩ := hat.exists_advance hrest
              obtain ⟨part, after, hpart, hafter⟩ :=
                exists_escapePart_eq_ok hescape hlast.ne_backslash hbefore
              have hle := hbefore.length_le hafter hescape.suffix
              obtain ⟨parts, hparts⟩ := (ih (by omega) hafter).mpr hlast
              refine ⟨part :: parts, ?_⟩
              rw [hnext, mapError_ok, ok_bind, hpart, ok_bind, hparts, ok_bind]

theorem wellFormed_of_not_mem (h : '\\' ∉ cs) : WellFormed pattern cs := by
  induction cs with
  | nil => exact .nil
  | cons c cs ih =>
      obtain ⟨hc, hcs⟩ := not_or.mp (List.mem_cons.not.mp h)
      exact .plain (Ne.symm hc) (ih hcs)

end Template

/-- A template can be read for a pattern if and only if it is a row of characters and escapes whose
references are to groups of the pattern. -/
theorem reads_iff_wellFormed (pattern : Pattern) (template : String) :
    pattern.Reads template ↔ Template.WellFormed pattern template.toList := by
  by_cases hplain : '\\' ∈ template.toList
  · have hrest : ∃ position, Cursor.rest ⟨template, template.length, tokens template.toList⟩ =
        tokensFrom position template.toList := ⟨0, rfl⟩
    unfold Reads Template.parse
    rw [if_pos (by simpa using hplain)]
    constructor
    · rintro ⟨parts, heq⟩
      simp only [bind_eq_ok_iff, mapError_eq_ok_iff] at heq
      obtain ⟨cursor, hcursor, hparts⟩ := heq
      obtain ⟨rfl, hne⟩ := (Cursor.settle_eq_ok_iff hrest).mp hcursor
      exact (Template.exists_partsFrom_eq_ok_iff (Nat.le_refl _) ⟨hrest, hne⟩).mp ⟨parts, hparts⟩
    · intro hwellFormed
      have hne := hwellFormed.ne_backslash
      obtain ⟨parts, hparts⟩ :=
        (Template.exists_partsFrom_eq_ok_iff (Nat.le_refl _) ⟨hrest, hne⟩).mpr hwellFormed
      refine ⟨parts, ?_⟩
      unfold Cursor.start
      rw [(Cursor.settle_eq_ok_iff hrest).mpr ⟨rfl, hne⟩]
      exact hparts
  · exact ⟨fun _ => Template.wellFormed_of_not_mem hplain,
      fun _ => pattern.reads_of_no_backslash (by simpa using hplain)⟩

end Interlinear.Pattern
