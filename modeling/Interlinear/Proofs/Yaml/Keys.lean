import Interlinear.Proofs.Numeral.Digits
import Interlinear.Proofs.Yaml.Display
import Interlinear.Yaml.Meaning
import Mathlib

/-!
# Names as plain keys

A key that is not quoted is of the kind that its text looks like, and is turned into a text again
where it serves as a name.  A name of ASCII letters and digits comes back as it was if it is a text
or a number without a zero in front.  It comes back as another one if it is a word for nothing, or a
numeral that a zero in front makes one of another base.
-/

namespace Interlinear.Yaml

open Numeral

def isNumeralIn (base : Nat) (digits : List Char) : Bool :=
  !digits.isEmpty && digits.all (isDigitIn base)

/-- Whether a name of letters and digits comes back as another one. -/
def isRespelled : List Char → Bool
  | '0' :: 'b' :: digits => isNumeralIn 2 digits
  | '0' :: 'x' :: digits => isNumeralIn 16 digits
  | '0' :: digits => isNumeralIn 8 digits
  | cs => looksNull cs

/-- A name comes back as `shown` when it is read as a plain key. -/
structure ReadsAs (name : String) (key : Value) (shown : String) : Prop where
  kind : Tag.ofPlain name ∈ [Tag.text, .null, .int]
  value : ∀ number, scalarValue number (.ofPlain name) name = .ok key
  name : key.name = .ok shown

section Alphanumeric

variable {cs : List Char} (hcs : ∀ c ∈ cs, c.isAlphanum = true)

include hcs

theorem not_mem_of_isAlphanum {d : Char} (hd : d.isAlphanum = false) : d ∉ cs := by
  intro hmem
  rw [hcs d hmem] at hd
  cases hd

/-! ## Texts that look like no number with a point and no date -/

theorem dropFinalBreak_of_isAlphanum : dropFinalBreak cs = cs := by
  rw [dropFinalBreak, if_neg]
  intro hlast
  exact not_mem_of_isAlphanum hcs (by decide) (List.mem_of_getLast? hlast)

theorem unsign_of_isAlphanum : unsign cs = cs := by
  unfold unsign
  split
  · exact absurd (hcs '-' (by simp)) (by decide)
  · exact absurd (hcs '+' (by simp)) (by decide)
  · rfl

theorem looksFractional_of_isAlphanum : looksFractional cs = false := by
  have hpoint : cs.dropWhile (· != '.') = [] := by
    rw [List.dropWhile_eq_nil_iff]
    intro c hc
    exact bne_iff_ne.mpr (ne_of_isAlphanum (hcs c hc) (by decide))
  simp only [looksFractional, unsign_of_isAlphanum hcs, hpoint]

omit hcs in
theorem parts_of_not_mem {separator : Char} {cs : List Char} (h : separator ∉ cs) :
    Text.parts separator cs = [cs] := by
  induction cs with
  | nil => rfl
  | cons c cs ih =>
      rw [List.mem_cons, not_or] at h
      rw [Text.parts, ih h.2]
      exact if_neg (Ne.symm h.1)

theorem isSexagesimal_of_isAlphanum (isFirst : Char → Bool) :
    isSexagesimal isFirst cs = false := by
  rw [isSexagesimal, parts_of_not_mem (not_mem_of_isAlphanum hcs (by decide))]

omit hcs in
theorem fixedNumber?_rest {count n : Nat} {cs rest : List Char}
    (h : Calendar.fixedNumber? count cs = some (n, rest)) : rest = cs.drop count := by
  simp only [Calendar.fixedNumber?] at h
  split at h
  · exact (Prod.mk.inj (Option.some.inj h)).2.symm
  · cases h

theorem looksDated_of_isAlphanum : Calendar.looksDated cs = false := by
  have hnone : Calendar.readTimestamp? cs = none := by
    rw [Calendar.readTimestamp?]
    cases hyear : Calendar.fixedNumber? 4 cs with
    | none => rfl
    | some read =>
        obtain ⟨year, rest⟩ := read
        have hrest : ∀ c ∈ rest, c ∈ cs := by
          rw [fixedNumber?_rest hyear]
          exact fun c hc => List.mem_of_mem_drop hc
        have hmark : Calendar.afterMark? '-' rest = none := by
          cases rest with
          | nil => rfl
          | cons c rest =>
              have hc := hcs c (hrest c (List.mem_cons_self ..))
              rw [Calendar.afterMark?, if_neg (ne_of_isAlphanum hc (by decide))]
        simp only [hmark, Option.bind_eq_bind, Option.bind_some, Option.bind_none]
  rw [Calendar.looksDated, hnone]

/-! ## Whole numbers -/

theorem all_congr_of_isAlphanum {isOf isDigit : Char → Bool}
    (h : ∀ c : Char, c.isAlphanum = true → isOf c = isDigit c) : cs.all isOf = cs.all isDigit := by
  rw [Bool.eq_iff_iff, List.all_eq_true, List.all_eq_true]
  exact forall₂_congr fun c hc => by rw [h c (hcs c hc)]

omit hcs

theorem isBinary_eq {c : Char} (hc : c.isAlphanum = true) :
    (c == '0' || c == '1' || c == '_') = isDigitIn 2 c := by
  have hgap : c ≠ '_' := ne_of_isAlphanum hc (by decide)
  have hzero : c = '0' ↔ c.toNat = 48 := Char.toNat_inj.symm
  have hone : c = '1' ↔ c.toNat = 49 := Char.toNat_inj.symm
  rw [Bool.eq_iff_iff, isDigitIn_iff]
  simp only [Bool.or_eq_true, beq_iff_eq, hzero, hone, hgap, or_false]
  omega

theorem isOctal_eq {c : Char} (hc : c.isAlphanum = true) :
    ('0' ≤ c && c ≤ '7' || c == '_') = isDigitIn 8 c := by
  have hgap : c ≠ '_' := ne_of_isAlphanum hc (by decide)
  have hseven : '7'.val.toNat = 55 := rfl
  rw [Bool.eq_iff_iff, isDigitIn_iff]
  simp only [Bool.or_eq_true, Bool.and_eq_true, decide_eq_true_eq, beq_iff_eq, hgap, or_false,
    Char.le_def, UInt32.le_iff_toNat_le]
  change 48 ≤ c.toNat ∧ c.toNat ≤ 55 ↔ _
  omega

theorem isHexOrGap_eq {c : Char} (hc : c.isAlphanum = true) : isHexOrGap c = isDigitIn 16 c := by
  have hgap : c ≠ '_' := ne_of_isAlphanum hc (by decide)
  rw [Bool.eq_iff_iff, isDigitIn_iff]
  simp only [isHexOrGap, isDigitOrGap, isAsciiDigit, Bool.or_eq_true, Bool.and_eq_true,
    decide_eq_true_eq, beq_iff_eq, hgap, or_false, Char.le_def, UInt32.le_iff_toNat_le]
  change (48 ≤ c.toNat ∧ c.toNat ≤ 57 ∨ 97 ≤ c.toNat ∧ c.toNat ≤ 102) ∨
    65 ≤ c.toNat ∧ c.toNat ≤ 70 ↔ _
  omega

theorem isDigitOrGap_eq {c : Char} (hc : c.isAlphanum = true) :
    isDigitOrGap c = isAsciiDigit c := by
  have hgap : c ≠ '_' := ne_of_isAlphanum hc (by decide)
  simp [isDigitOrGap, hgap]

theorem isMarked_eq (letter c : Char) (isDigit : Char → Bool) (digits : List Char) :
    isMarked letter isDigit ('0' :: c :: digits) =
      (c == letter && !digits.isEmpty && digits.all isDigit) := by
  cases digits with
  | nil => simp [isMarked]
  | cons digit digits => simp [isMarked]

include hcs

theorem ofPlain_of_isAlphanum (hne : cs ≠ []) :
    Tag.ofPlain (String.ofList cs) =
      if looksWhole cs then .int else if looksNull cs then .null else .text := by
  have hmerge : cs ≠ ['<', '<'] := by
    rintro rfl
    exact not_mem_of_isAlphanum hcs (d := '<') (by decide) (by simp)
  have hdefault : cs ≠ ['='] := by
    rintro rfl
    exact not_mem_of_isAlphanum hcs (d := '=') (by decide) (by simp)
  have hreserved : looksReserved cs = false := by
    have hnot : ∀ d : Char, d.isAlphanum = false → cs ≠ [d] := by
      rintro d hd rfl
      exact not_mem_of_isAlphanum hcs hd (List.mem_singleton_self d)
    simp only [looksReserved, hnot '!' (by decide), hnot '&' (by decide), hnot '*' (by decide),
      decide_false, Bool.or_false]
  have hbreak : String.ofList cs ≠ "\n" := by
    intro h
    exact not_mem_of_isAlphanum hcs (d := '\n') (by decide) (by
      rw [← String.toList_ofList (l := cs), h]
      decide)
  simp only [Tag.ofPlain, String.toList_ofList, dropFinalBreak_of_isAlphanum hcs,
    looksFractional_of_isAlphanum hcs, looksDated_of_isAlphanum hcs, hmerge, hdefault, hreserved,
    hbreak, ne_eq, not_false_eq_true, decide_true, Bool.and_true, Bool.false_eq_true, if_false]

end Alphanumeric

variable {digits : List Char} (hdigits : ∀ c ∈ digits, c.isAlphanum = true)

include hdigits

theorem looksWhole_zero :
    looksWhole ('0' :: digits) =
      (isMarked 'b' (isDigitIn 2) ('0' :: digits) || digits.all (isDigitIn 8) ||
        isMarked 'x' (isDigitIn 16) ('0' :: digits)) := by
  have hzero : ∀ c ∈ '0' :: digits, c.isAlphanum = true := List.forall_mem_cons.mpr ⟨rfl, hdigits⟩
  have hnonzero : isGrouped isNonZero ('0' :: digits) = false := rfl
  have hoctal := all_congr_of_isAlphanum hdigits fun c hc => isOctal_eq hc
  have hmarked : ∀ letter isOf base, (∀ c : Char, c.isAlphanum = true → isOf c = isDigitIn base c) →
      isMarked letter isOf ('0' :: digits) = isMarked letter (isDigitIn base) ('0' :: digits) := by
    intro letter isOf base h
    cases digits with
    | nil => rfl
    | cons c digits =>
        rw [isMarked_eq, isMarked_eq,
          all_congr_of_isAlphanum (List.forall_mem_cons.mp hdigits).2 h]
  rw [looksWhole, unsign_of_isAlphanum hzero, isSexagesimal_of_isAlphanum hzero, hnonzero,
    hmarked 'b' _ 2 fun c hc => isBinary_eq hc, hmarked 'x' _ 16 fun c hc => isHexOrGap_eq hc]
  simp only [hoctal, Bool.or_false]

theorem looksWhole_binary : looksWhole ('0' :: 'b' :: digits) = isNumeralIn 2 digits := by
  rw [looksWhole_zero (List.forall_mem_cons.mpr ⟨rfl, hdigits⟩), isMarked_eq, isMarked_eq,
    isNumeralIn]
  simp [show isDigitIn 8 'b' = false by decide]

theorem looksWhole_hexadecimal : looksWhole ('0' :: 'x' :: digits) = isNumeralIn 16 digits := by
  rw [looksWhole_zero (List.forall_mem_cons.mpr ⟨rfl, hdigits⟩), isMarked_eq, isMarked_eq,
    isNumeralIn]
  simp [show isDigitIn 8 'x' = false by decide]

theorem looksWhole_octal (hb : digits.head? ≠ some 'b') (hx : digits.head? ≠ some 'x') :
    looksWhole ('0' :: digits) = digits.all (isDigitIn 8) := by
  rw [looksWhole_zero hdigits]
  cases digits with
  | nil => rfl
  | cons c digits =>
      rw [List.head?_cons, ne_eq, Option.some.injEq] at hb hx
      simp [isMarked_eq, beq_eq_false_iff_ne.mpr hb, beq_eq_false_iff_ne.mpr hx]

theorem looksWhole_decimal {c : Char} (hc : c.isAlphanum = true) (hzero : c ≠ '0') :
    looksWhole (c :: digits) = (c :: digits).all isAsciiDigit := by
  have hcs : ∀ d ∈ c :: digits, d.isAlphanum = true := List.forall_mem_cons.mpr ⟨hc, hdigits⟩
  have hmarked : ∀ letter isOf, isMarked letter isOf (c :: digits) = false := by
    intro letter isOf
    unfold isMarked
    split
    · rename_i h
      exact absurd (List.cons.inj h).1 hzero
    · rfl
  have hgrouped := all_congr_of_isAlphanum hdigits fun d hd => isDigitOrGap_eq hd
  rw [looksWhole, unsign_of_isAlphanum hcs, isSexagesimal_of_isAlphanum hcs, hmarked, hmarked]
  split
  · rename_i h
    exact absurd (List.cons.inj h).1 hzero
  · rw [isGrouped, hgrouped]
    simp [isNonZero, bne_iff_ne.mpr hzero]

omit hdigits

/-! ## Names that come back as other ones -/

theorem intValue_of_isAlphanum {cs : List Char} (hne : cs ≠ [])
    (hcs : ∀ c ∈ cs, c.isAlphanum = true) : intValue (String.ofList cs) = readMagnitude cs := by
  have hdrop : dropUnderscores cs = cs := by
    rw [dropUnderscores, List.filter_eq_self]
    exact fun c hc => bne_iff_ne.mpr (ne_of_isAlphanum (hcs c hc) (by decide))
  have hkeep : ∀ outcome : Except Fault Int,
      (outcome.map fun n => if false = true then -n else n) = outcome := by
    rintro (fault | n) <;> rfl
  rw [intValue, String.toList_ofList, hdrop]
  split
  · exact absurd rfl hne
  · rw [splitSign_of_isAlphanum hcs]
    exact hkeep _

theorem readMarked_of_isNumeralIn {base : Nat} {letter : Char} {digits : List Char}
    (hlower : letter.isLower = true) (hletter : isDigitIn base letter = false)
    (hnumeral : isNumeralIn base digits = true) :
    ∃ n : Nat, readMarked base letter digits = .ok n ∧ n < base ^ digits.length := by
  rw [isNumeralIn, Bool.and_eq_true, Bool.not_eq_true', List.isEmpty_eq_false_iff,
    List.all_eq_true] at hnumeral
  obtain ⟨n, hn, hlt⟩ := readInBase_of_digits hnumeral.1 hlower hletter hnumeral.2
  exact ⟨n, by rw [readMarked, hn]; rfl, hlt⟩

theorem lt_ten_pow {base length n limit : Nat} (hbase : base ≤ 16) (hlimit : 2 * length ≤ limit)
    (hn : n < base ^ length) : n < Nat.pow 10 limit := by
  have hbound : base ^ length ≤ 10 ^ (2 * length) := by
    rw [Nat.pow_mul]
    exact Nat.pow_le_pow_left (by omega) length
  exact hn.trans_le (hbound.trans (Nat.pow_le_pow_right (by decide) hlimit))

/-- The number of a name that is short enough for a key has a text. -/
theorem hasText_of_lt {base length n : Nat} (hbase : base ≤ 16) (hlength : length ≤ longestKey)
    (hn : n < base ^ length) : (Value.int n).HasText := by
  have hlimit : 2 * length ≤ digitLimit := by
    rw [longestKey] at hlength
    rw [digitLimit]
    omega
  rw [Value.HasText, Int.natAbs_natCast]
  exact lt_ten_pow hbase hlimit hn

theorem readsAs_number {name : String} {n : Nat} (hkind : Tag.ofPlain name = .int)
    (hvalue : intValue name = .ok n) (hn : (Value.int n).HasText) :
    ReadsAs name (.int n) (toString n) where
  kind := by simp [hkind]
  value := by
    intro number
    rw [hkind, scalarValue, hvalue]
    rfl
  name := by
    rw [Value.HasText] at hn
    change Value.describe [] (.int n) = _
    rw [Value.describe, Value.integerText_eq_ok hn]
    rfl

theorem readsAs_text {name : String} (hkind : Tag.ofPlain name = .text) :
    ReadsAs name (.text name) name where
  kind := by simp [hkind]
  value := by
    intro number
    rw [hkind]
    rfl
  name := rfl

theorem readsAs_null {name : String} (hkind : Tag.ofPlain name = .null) :
    ReadsAs name .null "None" where
  kind := by simp [hkind]
  value := by
    intro number
    rw [hkind]
    rfl
  name := rfl

def nullWords : List (List Char) :=
  [[], ['~'], ['n', 'u', 'l', 'l'], ['N', 'u', 'l', 'l'], ['N', 'U', 'L', 'L']]

theorem mem_nullWords_of_looksNull {cs : List Char} (h : looksNull cs = true) : cs ∈ nullWords := by
  rw [looksNull, List.contains_iff_mem] at h
  have hmem := List.mem_map_of_mem (f := String.toList) h
  rw [String.toList_ofList] at hmem
  exact hmem

theorem nullWords_spelling : ∀ word ∈ nullWords, word ≠ [] →
    word.all isAsciiDigit = false ∧ String.ofList word ≠ "None" := by
  decide

theorem looksNull_zero (cs : List Char) : looksNull ('0' :: cs) = false := by
  rw [← Bool.not_eq_true]
  intro h
  have hmem := mem_nullWords_of_looksNull h
  simp [nullWords] at hmem

/-- A numeral with a zero in front has another text as a number. -/
theorem exists_readsAs_zero {base : Nat} {letter c : Char} {cs digits : List Char}
    (hbase : base ≤ 16) (hlower : letter.isLower = true) (hletter : isDigitIn base letter = false)
    (hlength : digits.length ≤ longestKey)
    (hkind : Tag.ofPlain (String.ofList ('0' :: c :: cs)) =
      if isNumeralIn base digits then .int else .text)
    (hvalue : intValue (String.ofList ('0' :: c :: cs)) = readMarked base letter digits) :
    ∃ key shown, ReadsAs (String.ofList ('0' :: c :: cs)) key shown ∧
      (shown = String.ofList ('0' :: c :: cs) ↔ isNumeralIn base digits = false) := by
  cases hnumeral : isNumeralIn base digits with
  | true =>
      rw [hnumeral, if_pos rfl] at hkind
      obtain ⟨n, hn, hlt⟩ := readMarked_of_isNumeralIn hlower hletter hnumeral
      refine ⟨.int n, toString n, readsAs_number hkind (hvalue.trans hn) ?_, ?_⟩
      · exact hasText_of_lt hbase hlength hlt
      · simpa using toString_ne_zero_cons n c cs
  | false =>
      rw [hnumeral, if_neg Bool.false_ne_true] at hkind
      exact ⟨.text _, _, readsAs_text hkind, by simp⟩

theorem all_eq_isNumeralIn (c : Char) (digits : List Char) :
    (c :: digits).all (isDigitIn 8) = isNumeralIn 8 (c :: digits) :=
  rfl

theorem isNumeralIn_zero (c : Char) (digits : List Char) :
    isNumeralIn 8 ('0' :: c :: digits) = isNumeralIn 8 (c :: digits) := by
  rw [isNumeralIn, List.all_cons, show isDigitIn 8 '0' = true by decide]
  rfl

/-- A numeral without a zero in front is the text of its number. -/
theorem exists_readsAs_decimal {c : Char} {digits : List Char}
    (hcs : ∀ d ∈ c :: digits, d.isAlphanum = true) (hzero : c ≠ '0')
    (hlength : (c :: digits).length ≤ longestKey)
    (hall : ∀ d ∈ c :: digits, isAsciiDigit d = true)
    (hkind : Tag.ofPlain (String.ofList (c :: digits)) = .int) :
    ∃ key, ReadsAs (String.ofList (c :: digits)) key (String.ofList (c :: digits)) := by
  obtain ⟨hc, hdigits⟩ := List.forall_mem_cons.mp hall
  have hlimit : (c :: digits).length ≤ digitLimit := hlength.trans (by decide)
  have hread : readMagnitude (c :: digits) = .ok (ofDigits (c :: digits)) := by
    have hcolon : (c :: digits).contains ':' = false := by
      rw [← Bool.not_eq_true, List.contains_iff_mem]
      exact not_mem_of_isAlphanum hcs (by decide)
    have hwhole : readWhole (c :: digits) = .ok (ofDigits (c :: digits)) := by
      rw [readWhole, readInteger_of_digits (List.cons_ne_nil c digits) hall hlimit]
      rfl
    unfold readMagnitude
    split <;> simp_all
  have hvalue := (intValue_of_isAlphanum (List.cons_ne_nil c digits) hcs).trans hread
  have hnumber := readsAs_number hkind hvalue (hasText_of_lt (by decide) hlength (ofDigits_lt hall))
  rw [toString_ofDigits hc hzero hdigits] at hnumber
  exact ⟨_, hnumber⟩

theorem exists_readsAs_nonzero {c : Char} {digits : List Char}
    (hcs : ∀ d ∈ c :: digits, d.isAlphanum = true) (hzero : c ≠ '0')
    (hlength : (c :: digits).length ≤ longestKey) :
    ∃ key shown, ReadsAs (String.ofList (c :: digits)) key shown ∧
      (shown = String.ofList (c :: digits) ↔ looksNull (c :: digits) = false) := by
  have hkind := ofPlain_of_isAlphanum hcs (List.cons_ne_nil c digits)
  obtain ⟨hc, hdigits⟩ := List.forall_mem_cons.mp hcs
  rw [looksWhole_decimal hdigits hc hzero] at hkind
  cases hnull : looksNull (c :: digits) with
  | true =>
      have hmem := mem_nullWords_of_looksNull hnull
      obtain ⟨hwhole, hshown⟩ := nullWords_spelling _ hmem (List.cons_ne_nil c digits)
      rw [hwhole, hnull] at hkind
      exact ⟨.null, "None", readsAs_null hkind, iff_of_false hshown.symm (by decide)⟩
  | false =>
      rw [hnull] at hkind
      cases hall : (c :: digits).all isAsciiDigit with
      | true =>
          rw [hall] at hkind
          obtain ⟨key, hkey⟩ :=
            exists_readsAs_decimal hcs hzero hlength (List.all_eq_true.mp hall) hkind
          exact ⟨key, _, hkey, by simp⟩
      | false =>
          rw [hall] at hkind
          exact ⟨.text _, _, readsAs_text hkind, by simp⟩

/-- What a name of letters and digits comes back as, by the cases of its spelling. -/
theorem exists_readsAs {cs : List Char} (hne : cs ≠ []) (hcs : ∀ c ∈ cs, c.isAlphanum = true)
    (hlength : cs.length ≤ longestKey) :
    ∃ key shown, ReadsAs (String.ofList cs) key shown ∧
      (shown = String.ofList cs ↔ isRespelled cs = false) := by
  have hkind := ofPlain_of_isAlphanum hcs hne
  have hvalue := intValue_of_isAlphanum hne hcs
  -- The cases are those of the spelling: a mark of a base, a zero without one, any other start.
  unfold isRespelled
  split
  next digits =>
    have hdigits : ∀ c ∈ digits, c.isAlphanum = true := fun c hc => hcs c (by simp [hc])
    simp only [List.length_cons] at hlength
    rw [looksWhole_binary hdigits, looksNull_zero] at hkind
    exact exists_readsAs_zero (by decide) (by decide) (by decide) (by omega) hkind hvalue
  next digits =>
    have hdigits : ∀ c ∈ digits, c.isAlphanum = true := fun c hc => hcs c (by simp [hc])
    simp only [List.length_cons] at hlength
    rw [looksWhole_hexadecimal hdigits, looksNull_zero] at hkind
    exact exists_readsAs_zero (by decide) (by decide) (by decide) (by omega) hkind hvalue
  next digits hb hx =>
    cases digits with
    | nil =>
        have htext : (Value.int (0 : Nat)).HasText :=
          @hasText_of_lt 10 0 0 (by decide) (by decide) (by decide)
        exact ⟨.int (0 : Nat), "0", readsAs_number hkind hvalue htext, by simp [isNumeralIn]⟩
    | cons c digits =>
        have hdigits : ∀ d ∈ c :: digits, d.isAlphanum = true :=
          fun d hd => hcs d (List.mem_cons_of_mem _ hd)
        have hoctal := looksWhole_octal hdigits (by simpa using hb) (by simpa using hx)
        rw [hoctal, all_eq_isNumeralIn, ← isNumeralIn_zero, looksNull_zero] at hkind
        rw [readMagnitude] at hvalue
        · rw [← isNumeralIn_zero]
          exact exists_readsAs_zero (by decide) (by decide) (by decide) hlength hkind hvalue
        · exact List.cons_ne_nil c digits
        · exact hb
        · exact hx
  next hb hx hzero =>
    obtain ⟨c, digits, rfl⟩ := List.exists_cons_of_ne_nil hne
    have hc : c ≠ '0' := by
      rintro rfl
      exact hzero digits rfl
    exact exists_readsAs_nonzero hcs hc hlength

end Interlinear.Yaml
