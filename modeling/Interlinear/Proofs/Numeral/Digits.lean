import Interlinear.Numeral.Reading
import Mathlib

/-!
# Numerals among alphanumeric texts

In a text of ASCII letters and digits there is nothing that reading a number would drop or bring to
another form, so what counts are its digits.  The text of a number has no zero in front, unless it
is the zero, and digits without a zero in front are the text of their value.  Hence a numeral of
several digits with a zero in front is never the text of a number.
-/

namespace Interlinear.Numeral

/-! ## Letters and digits -/

theorem isAlphanum_iff (c : Char) :
    c.isAlphanum = true ↔
      (65 ≤ c.toNat ∧ c.toNat ≤ 90 ∨ 97 ≤ c.toNat ∧ c.toNat ≤ 122) ∨
        48 ≤ c.toNat ∧ c.toNat ≤ 57 := by
  simp only [Char.isAlphanum, Char.isAlpha, Char.isUpper, Char.isLower, Char.isDigit,
    Bool.or_eq_true, Bool.and_eq_true, decide_eq_true_eq, ge_iff_le, UInt32.le_iff_toNat_le]
  rfl

theorem ne_of_isAlphanum {c d : Char} (hc : c.isAlphanum = true) (hd : d.isAlphanum = false) :
    c ≠ d := by
  rintro rfl
  rw [hc] at hd
  cases hd

theorem toAscii_of_isAlphanum {c : Char} (hc : c.isAlphanum = true) : toAscii c = c := by
  rw [isAlphanum_iff] at hc
  rw [toAscii, if_pos (by omega)]

theorem isAsciiBlank_of_isAlphanum {c : Char} (hc : c.isAlphanum = true) :
    isAsciiBlank c = false := by
  have hspace : c ≠ ' ' := ne_of_isAlphanum hc (by decide)
  rw [isAlphanum_iff] at hc
  have hreturn : '\r'.toNat = 13 := rfl
  simp only [isAsciiBlank, Bool.or_eq_false_iff, beq_eq_false_iff_ne, ne_eq, hspace,
    not_false_eq_true, true_and, Bool.and_eq_false_iff, decide_eq_false_iff_not]
  omega

theorem isAlphanum_of_isAsciiDigit {c : Char} (hc : isAsciiDigit c = true) :
    c.isAlphanum = true := by
  have hzero : '0'.toNat = 48 := rfl
  have hnine : '9'.toNat = 57 := rfl
  simp only [isAsciiDigit, Bool.and_eq_true, decide_eq_true_eq] at hc
  rw [isAlphanum_iff]
  omega

theorem dropWhile_eq_self_of_all {p : Char → Bool} {cs : List Char}
    (h : ∀ c ∈ cs, p c = false) : cs.dropWhile p = cs := by
  cases cs with
  | nil => rfl
  | cons c cs => rw [List.dropWhile_cons_of_neg (by simp [h c])]

theorem strip_of_isAlphanum {cs : List Char} (hcs : ∀ c ∈ cs, c.isAlphanum = true) :
    strip isAsciiBlank cs = cs := by
  have hblank : ∀ c ∈ cs, isAsciiBlank c = false :=
    fun c hc => isAsciiBlank_of_isAlphanum (hcs c hc)
  rw [strip, dropWhile_eq_self_of_all hblank, dropWhile_eq_self_of_all, List.reverse_reverse]
  exact fun c hc => hblank c (List.mem_reverse.mp hc)

theorem mem_strip {isBlank : Char → Bool} {c : Char} {cs : List Char} (hmem : c ∈ cs)
    (hc : isBlank c = false) : c ∈ strip isBlank cs := by
  have hkept : ∀ cs : List Char, c ∈ cs → c ∈ cs.dropWhile isBlank := by
    intro cs hmem
    rw [← List.takeWhile_append_dropWhile (p := isBlank) (l := cs), List.mem_append] at hmem
    rcases hmem with hmem | hmem
    · exact absurd (List.mem_takeWhile_imp hmem) (by simp [hc])
    · exact hmem
  unfold strip
  rw [List.mem_reverse]
  exact hkept _ (List.mem_reverse.mpr (hkept cs hmem))

theorem splitSign_of_isAlphanum {cs : List Char} (hcs : ∀ c ∈ cs, c.isAlphanum = true) :
    splitSign cs = (false, cs) := by
  unfold splitSign
  split
  · exact absurd (hcs '-' (by simp)) (by decide)
  · exact absurd (hcs '+' (by simp)) (by decide)
  · rfl

/-- A numeral is read as it stands. -/
theorem splitSign_strip_map {cs : List Char} (hcs : ∀ c ∈ cs, c.isAlphanum = true) :
    splitSign (strip isAsciiBlank (cs.map toAscii)) = (false, cs) := by
  have hmap : cs.map toAscii = cs := by
    rw [List.map_congr_left fun c hc => toAscii_of_isAlphanum (hcs c hc)]
    exact List.map_id cs
  rw [hmap, strip_of_isAlphanum hcs, splitSign_of_isAlphanum hcs]

/-! ## Decimal numerals -/

theorem groupedDigits?_of_digits {digits : List Char} (hne : digits ≠ [])
    (hdigits : ∀ c ∈ digits, isAsciiDigit c = true) : groupedDigits? digits = some digits := by
  induction digits with
  | nil => exact absurd rfl hne
  | cons c cs ih =>
      obtain ⟨hc, hcs⟩ := List.forall_mem_cons.mp hdigits
      cases cs with
      | nil => rw [groupedDigits?, if_pos hc]
      | cons d cs =>
          have hgap : d ≠ '_' :=
            ne_of_isAlphanum (isAlphanum_of_isAsciiDigit (hcs d (by simp))) (by decide)
          rw [groupedDigits?, if_pos hc, ih (by simp) hcs, Option.map_some]
          · simp
          · intro _ h
            exact hgap (List.cons.inj h).1

theorem of_mem_groupedDigits? {cs digits : List Char} (h : groupedDigits? cs = some digits) :
    ∀ c ∈ cs, isAsciiDigit c = true ∨ c = '_' := by
  induction cs using groupedDigits?.induct generalizing digits with
  | case1 => cases h
  | case2 c hc =>
      intro d hd
      rw [List.mem_singleton.mp hd]
      exact .inl hc
  | case3 c hc =>
      rw [groupedDigits?, if_neg hc] at h
      cases h
  | case4 c cs hc ih =>
      rw [groupedDigits?, if_pos hc] at h
      obtain ⟨others, hothers, -⟩ := Option.map_eq_some_iff.mp h
      intro d hd
      rcases List.mem_cons.mp hd with rfl | hd
      · exact .inl hc
      rcases List.mem_cons.mp hd with rfl | hd
      · exact .inr rfl
      · exact ih hothers d hd
  | case5 c cs hc =>
      rw [groupedDigits?, if_neg hc] at h
      cases h
  | case6 c cs hnil hmark hc ih =>
      rw [groupedDigits?.eq_4 _ _ hnil hmark, if_pos hc] at h
      obtain ⟨others, hothers, -⟩ := Option.map_eq_some_iff.mp h
      intro d hd
      rcases List.mem_cons.mp hd with rfl | hd
      · exact .inl hc
      · exact ih hothers d hd
  | case7 c cs hnil hmark hc =>
      rw [groupedDigits?.eq_4 _ _ hnil hmark, if_neg hc] at h
      cases h

theorem readInteger_of_digits {digits : List Char} (hne : digits ≠ [])
    (hdigits : ∀ c ∈ digits, isAsciiDigit c = true) (hlength : digits.length ≤ digitLimit) :
    readInteger (String.ofList digits) = .ok (ofDigits digits) := by
  have hsplit := splitSign_strip_map fun c hc => isAlphanum_of_isAsciiDigit (hdigits c hc)
  rw [readInteger, String.toList_ofList, hsplit]
  simp only [groupedDigits?_of_digits hne hdigits]
  rw [if_neg (by omega)]
  rfl

theorem ofDigits_concat (digits : List Char) (c : Char) :
    ofDigits (digits ++ [c]) = 10 * ofDigits digits + (c.toNat - 0x30) := by
  rw [ofDigits, List.foldl_append]
  rfl

theorem digitChar_of_isAsciiDigit {c : Char} (hc : isAsciiDigit c = true) :
    (c.toNat - 0x30).digitChar = c := by
  have hzero : '0'.toNat = 48 := rfl
  have hnine : '9'.toNat = 57 := rfl
  simp only [isAsciiDigit, Bool.and_eq_true, decide_eq_true_eq] at hc
  have hback : Char.ofNat c.toNat = c := Char.ofNat_toNat c
  have hrange : c.toNat - 0x30 < 10 := by omega
  have hsum : c.toNat = c.toNat - 0x30 + 0x30 := by omega
  rw [hsum] at hback
  generalize c.toNat - 0x30 = value at hback hrange
  rw [← hback]
  interval_cases value <;> rfl

theorem digit_lt {c : Char} (hc : isAsciiDigit c = true) : c.toNat - 0x30 < 10 := by
  have hnine : '9'.toNat = 57 := rfl
  simp only [isAsciiDigit, Bool.and_eq_true, decide_eq_true_eq] at hc
  omega

theorem digit_pos {c : Char} (hc : isAsciiDigit c = true) (hne : c ≠ '0') :
    0 < c.toNat - 0x30 := by
  by_contra hzero
  have hchar := digitChar_of_isAsciiDigit hc
  rw [show c.toNat - 0x30 = 0 by omega] at hchar
  exact hne hchar.symm

/-- Digits without a zero in front are the text of their value, by induction from the last digit. -/
theorem toDigits_ofDigits {c : Char} {digits : List Char} (hc : isAsciiDigit c = true)
    (hne : c ≠ '0') (hdigits : ∀ d ∈ digits, isAsciiDigit d = true) :
    0 < ofDigits (c :: digits) ∧ Nat.toDigits 10 (ofDigits (c :: digits)) = c :: digits := by
  induction digits using List.reverseRecOn with
  | nil =>
      have hvalue : ofDigits [c] = c.toNat - 0x30 := Nat.zero_add _
      rw [hvalue, Nat.toDigits_of_lt_base (digit_lt hc), digitChar_of_isAsciiDigit hc]
      exact ⟨digit_pos hc hne, rfl⟩
  | append_singleton digits d ih =>
      obtain ⟨hpos, htext⟩ := ih fun e he => hdigits e (by simp [he])
      have hd : isAsciiDigit d = true := hdigits d (by simp)
      rw [← List.cons_append, ofDigits_concat]
      refine ⟨by omega, ?_⟩
      rw [← Nat.toDigits_append_toDigits (by decide) hpos (digit_lt hd), htext,
        Nat.toDigits_of_lt_base (digit_lt hd), digitChar_of_isAsciiDigit hd]

theorem toString_ofDigits {c : Char} {digits : List Char} (hc : isAsciiDigit c = true)
    (hne : c ≠ '0') (hdigits : ∀ d ∈ digits, isAsciiDigit d = true) :
    toString (ofDigits (c :: digits)) = String.ofList (c :: digits) := by
  rw [Nat.toString_eq_ofList_toDigits, (toDigits_ofDigits hc hne hdigits).2]

theorem ofDigits_lt {digits : List Char} (hdigits : ∀ c ∈ digits, isAsciiDigit c = true) :
    ofDigits digits < 10 ^ digits.length := by
  induction digits using List.reverseRecOn with
  | nil => exact Nat.one_pos
  | append_singleton digits d ih =>
      have hvalue := ih fun c hc => hdigits c (by simp [hc])
      have hd := digit_lt (hdigits d (by simp))
      rw [ofDigits_concat, List.length_append, List.length_singleton, Nat.pow_succ]
      omega

theorem head_toDigits {n : Nat} (hn : 0 < n) : (Nat.toDigits 10 n).head? ≠ some '0' := by
  induction n using Nat.strong_induction_on with
  | h n ih =>
      by_cases hlt : n < 10
      · rw [Nat.toDigits_of_lt_base hlt]
        interval_cases n <;> decide
      · rw [Nat.toDigits_of_base_le (by omega) (by omega), List.head?_append]
        have htail := ih (n / 10) (by omega) (by omega)
        cases hhead : (Nat.toDigits 10 (n / 10)).head? with
        | none => exact absurd (List.head?_eq_none_iff.mp hhead) Nat.toDigits_ne_nil
        | some d => rwa [hhead] at htail

/-- No number is written with a zero before another character. -/
theorem toString_ne_zero_cons (n : Nat) (c : Char) (cs : List Char) :
    toString n ≠ String.ofList ('0' :: c :: cs) := by
  intro h
  have hdigits : Nat.toDigits 10 n = '0' :: c :: cs := by
    rw [Nat.toString_eq_ofList_toDigits] at h
    exact String.ofList_injective h
  obtain rfl | hn := Nat.eq_zero_or_pos n
  · cases hdigits
  · exact head_toDigits hn (by rw [hdigits]; rfl)

/-! ## Numerals in other bases -/

def isDigitIn (base : Nat) (c : Char) : Bool :=
  (digitIn? base c).isSome

theorem isDigitIn_iff {base : Nat} {c : Char} :
    isDigitIn base c = true ↔
      48 ≤ c.toNat ∧ c.toNat ≤ 57 ∧ c.toNat - 48 < base ∨
        97 ≤ c.toNat ∧ c.toNat ≤ 102 ∧ c.toNat - 87 < base ∨
          65 ≤ c.toNat ∧ c.toNat ≤ 70 ∧ c.toNat - 55 < base := by
  have hdigit : isDigitIn base c =
      decide ((if 48 ≤ c.toNat ∧ c.toNat ≤ 57 then c.toNat - 48
        else if 97 ≤ c.toNat ∧ c.toNat ≤ 102 then c.toNat - 87
        else if 65 ≤ c.toNat ∧ c.toNat ≤ 70 then c.toNat - 55
        else base) < base) := by
    simp only [isDigitIn, digitIn?, Char.le_def, UInt32.le_iff_toNat_le]
    rw [apply_ite Option.isSome, Option.isSome_some, Option.isSome_none, Bool.if_false_right,
      Bool.and_true]
    rfl
  rw [hdigit, decide_eq_true_eq]
  split_ifs <;> omega

theorem digitIn?_lt {base digit : Nat} {c : Char} (h : digitIn? base c = some digit) :
    digit < base := by
  obtain ⟨hlt, hdigit⟩ := Option.ite_none_right_eq_some.mp h
  exact Option.some.inj hdigit ▸ hlt

theorem exists_valueIn? {base : Nat} {digits : List Char}
    (hdigits : ∀ c ∈ digits, isDigitIn base c = true) (value : Nat) :
    ∃ n, valueIn? base value digits = some n ∧ n < (value + 1) * base ^ digits.length := by
  induction digits generalizing value with
  | nil => exact ⟨value, rfl, by simp⟩
  | cons c digits ih =>
      obtain ⟨hc, hdigits⟩ := List.forall_mem_cons.mp hdigits
      obtain ⟨digit, hdigit⟩ := Option.isSome_iff_exists.mp hc
      obtain ⟨n, hn, hlt⟩ := ih hdigits (base * value + digit)
      refine ⟨n, by rw [valueIn?, hdigit]; exact hn, hlt.trans_le ?_⟩
      have hstep : base * value + digit + 1 ≤ (value + 1) * base := by
        have hless := digitIn?_lt hdigit
        rw [Nat.add_mul, Nat.one_mul, Nat.mul_comm value]
        omega
      calc (base * value + digit + 1) * base ^ digits.length
          ≤ (value + 1) * base * base ^ digits.length := Nat.mul_le_mul_right _ hstep
        _ = (value + 1) * base ^ (c :: digits).length := by
            rw [List.length_cons, Nat.pow_succ', Nat.mul_assoc]

theorem eq_or_of_toLower_eq {c letter : Char} (h : c.toLower = letter) :
    c = letter ∨ c.toNat + 32 = letter.toNat := by
  unfold Char.toLower at h
  split at h
  · rename_i hupper
    right
    rw [← h]
    have hlt : c.val.toNat ≤ 90 := hupper.2
    show c.val.toNat + 32 = (c.val + 32).toNat
    rw [UInt32.toNat_add]
    change _ = (c.val.toNat + 32) % 2 ^ 32
    omega
  · exact .inl h

/-- The mark of a base is no digit of it, in upper case neither. -/
theorem isDigitIn_eq_false_of_toLower {base : Nat} {letter c : Char}
    (hlower : letter.isLower = true) (hletter : isDigitIn base letter = false)
    (h : c.toLower = letter) :
    isDigitIn base c = false := by
  have hrange : 97 ≤ letter.toNat ∧ letter.toNat ≤ 122 := by
    simp only [Char.isLower, Bool.and_eq_true, decide_eq_true_eq, ge_iff_le,
      UInt32.le_iff_toNat_le] at hlower
    exact hlower
  rw [← Bool.not_eq_true, isDigitIn_iff] at hletter ⊢
  rcases eq_or_of_toLower_eq h with rfl | hupper
  · exact hletter
  · omega

theorem dropBaseMark_of_digits {base : Nat} {letter : Char} {digits : List Char}
    (hlower : letter.isLower = true) (hletter : isDigitIn base letter = false)
    (hdigits : ∀ c ∈ digits, isDigitIn base c = true) : dropBaseMark letter digits = digits := by
  unfold dropBaseMark
  split
  · rename_i c cs
    rw [if_neg]
    intro hmark
    have hc := hdigits c (by simp)
    rw [isDigitIn_eq_false_of_toLower hlower hletter hmark] at hc
    cases hc
  · rfl

theorem isAlphanum_of_isDigitIn {base : Nat} {c : Char} (hc : isDigitIn base c = true) :
    c.isAlphanum = true := by
  rw [isDigitIn_iff] at hc
  rw [isAlphanum_iff]
  omega

theorem readInBase_of_digits {base : Nat} {letter : Char} {digits : List Char}
    (hne : digits ≠ []) (hlower : letter.isLower = true)
    (hletter : isDigitIn base letter = false)
    (hdigits : ∀ c ∈ digits, isDigitIn base c = true) :
    ∃ n : Nat, readInBase base letter (String.ofList digits) = .ok n ∧
      n < base ^ digits.length := by
  have hsplit := splitSign_strip_map fun c hc => isAlphanum_of_isDigitIn (hdigits c hc)
  obtain ⟨n, hn, hlt⟩ := exists_valueIn? hdigits 0
  refine ⟨n, ?_, by omega⟩
  rw [readInBase, String.toList_ofList, hsplit]
  simp only [dropBaseMark_of_digits hlower hletter hdigits]
  cases digits with
  | nil => exact absurd rfl hne
  | cons c cs =>
      simp only [hn]
      rfl

end Interlinear.Numeral
