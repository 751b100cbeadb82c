import Interlinear.Pattern.Template
import Interlinear.Proofs.Outcome
import Mathlib.Data.List.Induction

/-!
# Cursors and the characters that are left

The reader of patterns and templates moves over symbols, in which a backslash and the character
after it are one, and refuses a backslash at the very end as soon as it comes next.  So a cursor is
described by the characters that are left, which are never this backslash alone.

A step of the reader is described by the value it gives and the characters it leaves.  It fails for
a reason of its own, or because nothing but the last backslash is left after it.
-/

namespace Interlinear.Pattern

open Outcome

theorem tokensFrom_plain (position : Nat) {c : Char} (hc : c ≠ '\\') (cs : List Char) :
    tokensFrom position (c :: cs) = ⟨position, .plain c⟩ :: tokensFrom (position + 1) cs := by
  rw [tokensFrom]
  · rintro rfl
    exact absurd rfl hc
  · rintro c cs rfl
    exact absurd rfl hc

theorem tokensFrom_escaped (position : Nat) (c : Char) (cs : List Char) :
    tokensFrom position ('\\' :: c :: cs) =
      ⟨position, .escaped c⟩ :: tokensFrom (position + 2) cs := by
  rw [tokensFrom]

theorem length_tokensFrom (position other : Nat) (cs : List Char) :
    (tokensFrom position cs).length = (tokensFrom other cs).length := by
  induction position, cs using tokensFrom.induct generalizing other with
  | case1 position => rfl
  | case2 position => rfl
  | case3 position c cs ih =>
      rw [tokensFrom_escaped, tokensFrom_escaped, List.length_cons, List.length_cons,
        ih (other + 2)]
  | case4 position c cs hnil hcons ih =>
      have hc : c ≠ '\\' := by
        rintro rfl
        cases cs with
        | nil => exact hnil rfl rfl
        | cons d cs => exact hcons d cs rfl rfl
      rw [tokensFrom_plain _ hc, tokensFrom_plain _ hc, List.length_cons, List.length_cons,
        ih (other + 1)]

/-- A character more makes no fewer symbols. -/
theorem length_tokensFrom_le_cons (position : Nat) (c : Char) (cs : List Char) :
    (tokensFrom position cs).length ≤ (tokensFrom position (c :: cs)).length := by
  induction cs using List.twoStepInduction generalizing position c with
  | nil => exact Nat.zero_le _
  | singleton second =>
      by_cases hc : c = '\\'
      · subst hc
        by_cases hsecond : second = '\\'
        · subst hsecond
          exact Nat.le_refl _
        · rw [tokensFrom_plain _ hsecond]
          exact Nat.le_refl _
      · rw [tokensFrom_plain _ hc, List.length_cons, length_tokensFrom (position + 1) position]
        exact Nat.le_succ _
  | cons_cons second third cs ih _ =>
      by_cases hc : c = '\\'
      · subst hc
        rw [tokensFrom_escaped, List.length_cons]
        by_cases hsecond : second = '\\'
        · subst hsecond
          rw [tokensFrom_escaped, List.length_cons]
          exact Nat.succ_le_succ (ih (position + 2) third)
        · apply Nat.le_of_eq
          rw [tokensFrom_plain _ hsecond, List.length_cons,
            length_tokensFrom (position + 1) (position + 2)]
      · rw [tokensFrom_plain _ hc, List.length_cons, length_tokensFrom (position + 1) position]
        exact Nat.le_succ _

theorem length_tokensFrom_le {cs rest : List Char} (h : rest <:+ cs) (position : Nat) :
    (tokensFrom position rest).length ≤ (tokensFrom position cs).length := by
  obtain ⟨before, rfl⟩ := h
  induction before with
  | nil => exact Nat.le_refl _
  | cons c before ih => exact Nat.le_trans ih (length_tokensFrom_le_cons position c _)

/-- The two characters and the first one of the text are octal digits. -/
def StartsOctal (first second : Char) (cs : List Char) : Prop :=
  isOctal first = true ∧ isOctal second = true ∧ ∃ third ∈ cs.head?, isOctal third = true

namespace Cursor

/-- The characters that are left are the given ones, and these are more than a last backslash. -/
structure StandsBefore (cursor : Cursor) (cs : List Char) : Prop where
  rest_eq : ∃ position, cursor.rest = tokensFrom position cs
  ne_backslash : cs ≠ ['\\']

/-- The next symbol is the given one, and the characters after it are given. -/
def IsAt (cursor : Cursor) (symbol : Symbol) (rest : List Char) : Prop :=
  ∃ position after, cursor.rest = ⟨position, symbol⟩ :: tokensFrom after rest

variable {cursor next : Cursor} {symbol : Symbol} {c : Char} {cs rest : List Char}

/-- Characters other than a last backslash start with a character or an escape. -/
theorem eq_nil_or_plain_or_escaped (hcs : cs ≠ ['\\']) :
    cs = [] ∨ (∃ c rest, c ≠ '\\' ∧ cs = c :: rest) ∨ ∃ c rest, cs = '\\' :: c :: rest := by
  match cs with
  | [] => exact .inl rfl
  | c :: rest =>
      by_cases hc : c = '\\'
      · subst hc
        cases rest with
        | nil => exact absurd rfl hcs
        | cons c rest => exact .inr (.inr ⟨c, rest, rfl⟩)
      · exact .inr (.inl ⟨c, rest, hc, rfl⟩)

theorem settle_eq_ok_iff (hrest : ∃ position, cursor.rest = tokensFrom position cs) :
    cursor.settle = .ok next ↔ next = cursor ∧ cs ≠ ['\\'] := by
  obtain ⟨position, hrest⟩ := hrest
  unfold settle peek
  rw [hrest]
  by_cases hne : cs = ['\\']
  · subst hne
    simp [tokensFrom]
  · rcases eq_nil_or_plain_or_escaped hne with rfl | ⟨c, rest, hc, rfl⟩ | ⟨c, rest, rfl⟩
    · simp [tokensFrom, eq_comm]
    · simp [tokensFrom_plain _ hc, eq_comm, hc]
    · simp [tokensFrom_escaped, eq_comm]

theorem IsAt.peek (h : cursor.IsAt symbol rest) : cursor.peek = some symbol := by
  obtain ⟨position, after, hrest⟩ := h
  unfold Cursor.peek
  rw [hrest]
  rfl

theorem IsAt.advance_eq_ok_iff (h : cursor.IsAt symbol rest) :
    cursor.advance = .ok next ↔
      next = { cursor with rest := cursor.rest.tail } ∧ rest ≠ ['\\'] := by
  obtain ⟨position, after, hrest⟩ := h
  exact settle_eq_ok_iff ⟨after, by rw [hrest, List.tail_cons]⟩

theorem IsAt.of_advance (h : cursor.IsAt symbol rest) (hnext : cursor.advance = .ok next) :
    next.StandsBefore rest ∧ next.rest.length < cursor.rest.length := by
  obtain ⟨rfl, hne⟩ := h.advance_eq_ok_iff.mp hnext
  obtain ⟨position, after, hrest⟩ := h
  rw [hrest]
  exact ⟨⟨⟨after, rfl⟩, hne⟩, Nat.lt_succ_self _⟩

theorem IsAt.exists_advance (h : cursor.IsAt symbol rest) (hrest : rest ≠ ['\\']) :
    ∃ next, cursor.advance = .ok next ∧ next.StandsBefore rest ∧
      next.rest.length < cursor.rest.length := by
  have hnext := h.advance_eq_ok_iff.mpr ⟨rfl, hrest⟩
  exact ⟨_, hnext, h.of_advance hnext⟩

theorem StandsBefore.isAt_plain (h : cursor.StandsBefore (c :: rest)) (hc : c ≠ '\\') :
    cursor.IsAt (.plain c) rest := by
  obtain ⟨position, hrest⟩ := h.rest_eq
  rw [tokensFrom_plain _ hc] at hrest
  exact ⟨position, position + 1, hrest⟩

theorem StandsBefore.isAt_escaped (h : cursor.StandsBefore ('\\' :: c :: rest)) :
    cursor.IsAt (.escaped c) rest := by
  obtain ⟨position, hrest⟩ := h.rest_eq
  rw [tokensFrom_escaped] at hrest
  exact ⟨position, position + 2, hrest⟩

theorem StandsBefore.peek_nil (h : cursor.StandsBefore []) : cursor.peek = none := by
  obtain ⟨position, hrest⟩ := h.rest_eq
  unfold Cursor.peek
  rw [hrest]
  rfl

theorem StandsBefore.length_le (h : cursor.StandsBefore cs) (hnext : next.StandsBefore rest)
    (hsuffix : rest <:+ cs) : next.rest.length ≤ cursor.rest.length := by
  obtain ⟨position, hcursor⟩ := h.rest_eq
  obtain ⟨other, hnext⟩ := hnext.rest_eq
  rw [hcursor, hnext, length_tokensFrom other position]
  exact length_tokensFrom_le hsuffix position

theorem StandsBefore.nextIn?_eq (h : cursor.StandsBefore cs) {holds : Char → Bool}
    (hbackslash : holds '\\' = false) : cursor.nextIn? holds = cs.head?.filter holds := by
  unfold nextIn?
  rcases eq_nil_or_plain_or_escaped h.ne_backslash with rfl | ⟨c, rest, hc, rfl⟩ | ⟨c, rest, rfl⟩
  · rw [h.peek_nil]
    rfl
  · rw [(h.isAt_plain hc).peek, List.head?_cons]
    by_cases hholds : holds c <;> simp [hholds, Option.filter_some]
  · rw [h.isAt_escaped.peek, List.head?_cons]
    simp [hbackslash, Option.filter_some]

theorem StandsBefore.isNext_iff (h : cursor.StandsBefore cs) (hc : c ≠ '\\') :
    cursor.isNext c = true ↔ cs.head? = some c := by
  unfold isNext
  rcases eq_nil_or_plain_or_escaped h.ne_backslash with rfl | ⟨d, rest, hd, rfl⟩ | ⟨d, rest, rfl⟩
  · simp [h.peek_nil]
  · simp [(h.isAt_plain hd).peek]
  · simp [h.isAt_escaped.peek, Ne.symm hc]

/-! ## Steps of the reader -/

/-- A step gives a value and leaves the given characters, unless these are a last backslash. -/
structure Leaves {ε α : Type} (outcome : Except ε (α × Cursor)) (a : α) (rest : List Char) :
    Prop where
  of_eq_ok : ∀ b next, outcome = .ok (b, next) → b = a ∧ next.StandsBefore rest
  exists_eq_ok : rest ≠ ['\\'] → ∃ next, outcome = .ok (a, next)

theorem StandsBefore.leaves {ε α : Type} (h : cursor.StandsBefore cs) (a : α) :
    Leaves (Except.ok (a, cursor) : Except ε (α × Cursor)) a cs where
  of_eq_ok := by
    intro b next heq
    cases heq
    exact ⟨rfl, h⟩
  exists_eq_ok := fun _ => ⟨cursor, rfl⟩

/-- After an advance a step leaves what it leaves where the advance ends. -/
theorem IsAt.leaves_advance {α : Type} (h : cursor.IsAt symbol cs)
    {step : Cursor → Except Fault (α × Cursor)} {a : α}
    (hlast : cs = ['\\'] → rest = ['\\'])
    (hstep : ∀ next : Cursor, next.StandsBefore cs → Leaves (step next) a rest) :
    Leaves (cursor.advance >>= step) a rest where
  of_eq_ok := by
    intro b last heq
    obtain ⟨next, hnext, heq⟩ := bind_eq_ok_iff.mp heq
    exact (hstep next (h.of_advance hnext).1).of_eq_ok b last heq
  exists_eq_ok := by
    intro hrest
    obtain ⟨next, hnext, hbefore, -⟩ := h.exists_advance (mt hlast hrest)
    rw [hnext, ok_bind]
    exact (hstep next hbefore).exists_eq_ok hrest

theorem Leaves.map {ε α β : Type} {outcome : Except ε (α × Cursor)} {a : α}
    (h : Leaves outcome a rest) (f : α → β) :
    Leaves (outcome >>= fun taken => .ok (f taken.1, taken.2)) (f a) rest where
  of_eq_ok := by
    intro b last heq
    obtain ⟨⟨c, next⟩, hnext, heq⟩ := bind_eq_ok_iff.mp heq
    obtain ⟨rfl, hbefore⟩ := h.of_eq_ok c next hnext
    cases heq
    exact ⟨rfl, hbefore⟩
  exists_eq_ok := by
    intro hrest
    obtain ⟨next, hnext⟩ := h.exists_eq_ok hrest
    exact ⟨next, by rw [hnext, ok_bind]⟩

theorem leaves_takeUpTo {holds : Char → Bool} (hbackslash : holds '\\' = false) (count : Nat)
    (h : cursor.StandsBefore cs) :
    Leaves (takeUpTo holds count cursor) ((cs.take count).takeWhile holds)
      (cs.drop ((cs.take count).takeWhile holds).length) := by
  induction count generalizing cursor cs with
  | zero => exact h.leaves []
  | succ count ih =>
      rw [takeUpTo, h.nextIn?_eq hbackslash]
      cases cs with
      | nil => exact h.leaves []
      | cons c cs =>
          rw [List.head?_cons, Option.filter_some, List.take_succ_cons, List.takeWhile_cons]
          by_cases hc : holds c
          · have hplain : c ≠ '\\' := by
              rintro rfl
              exact absurd hc (by simp [hbackslash])
            rw [if_pos hc, if_pos hc, List.length_cons, List.drop_succ_cons]
            apply (h.isAt_plain hplain).leaves_advance
            · rintro rfl
              cases count <;> simp [hbackslash]
            · intro next hnext
              exact (ih hnext).map (c :: ·)
          · rw [if_neg hc, if_neg hc]
            exact h.leaves []

theorem isOctal_backslash : isOctal '\\' = false := rfl

theorem ne_backslash_of_isOctal (hc : isOctal c = true) : c ≠ '\\' := by
  rintro rfl
  cases hc

theorem ne_backslash_of_isAsciiDigit (hc : Numeral.isAsciiDigit c = true) : c ≠ '\\' := by
  rintro rfl
  cases hc

theorem leaves_numberEscape_digit (h : cursor.StandsBefore cs)
    (hnext : ∀ d ∈ cs.head?, Numeral.isAsciiDigit d = false) :
    Leaves (cursor.numberEscape c) (.group [c]) cs := by
  unfold numberEscape
  rw [h.nextIn?_eq rfl, Option.filter_eq_none_iff.mpr (by simpa using hnext)]
  exact h.leaves _

theorem leaves_numberEscape_digits {second : Char} (h : cursor.StandsBefore (second :: cs))
    (hsecond : Numeral.isAsciiDigit second = true)
    (hoctal : ¬ StartsOctal c second cs) :
    Leaves (cursor.numberEscape c) (.group [c, second]) cs := by
  unfold numberEscape
  rw [h.nextIn?_eq rfl, List.head?_cons, Option.filter_some, if_pos hsecond]
  apply (h.isAt_plain (ne_backslash_of_isAsciiDigit hsecond)).leaves_advance id
  intro next hnext
  rw [hnext.nextIn?_eq rfl]
  cases hthird : cs.head?.filter isOctal with
  | none => exact hnext.leaves _
  | some third =>
      obtain ⟨hhead, hisOctal⟩ := Option.filter_eq_some_iff.mp hthird
      have hfalse : (isOctal c && isOctal second) = false := by
        rw [Bool.and_eq_false_iff]
        by_contra hboth
        rw [not_or, Bool.not_eq_false, Bool.not_eq_false] at hboth
        exact hoctal ⟨hboth.1, hboth.2, third, hhead, hisOctal⟩
      simp only [hfalse, Bool.false_eq_true, if_false]
      exact hnext.leaves _

theorem isAsciiDigit_of_isOctal (hc : isOctal c = true) : Numeral.isAsciiDigit c = true := by
  unfold isOctal at hc
  unfold Numeral.isAsciiDigit
  simp only [Bool.and_eq_true, decide_eq_true_eq, Char.le_def, UInt32.le_iff_toNat_le] at hc ⊢
  exact ⟨hc.1, Nat.le_trans hc.2 (by decide)⟩

theorem numberEscape_octal {second third : Char}
    (h : cursor.StandsBefore (second :: third :: cs)) (hc : isOctal c = true)
    (hsecond : isOctal second = true) (hthird : isOctal third = true) :
    cursor.numberEscape c =
      cursor.advance >>= fun next => next.advance >>= fun last =>
        last.octalEscape [c, second, third] >>= fun taken => .ok (.code taken.1, taken.2) := by
  have hdigit := isAsciiDigit_of_isOctal hsecond
  unfold numberEscape
  rw [h.nextIn?_eq rfl, List.head?_cons, Option.filter_some, if_pos hdigit]
  cases hadvance : cursor.advance with
  | error fault => rfl
  | ok next =>
      obtain ⟨hnext, -⟩ := (h.isAt_plain (ne_backslash_of_isOctal hsecond)).of_advance hadvance
      simp only [ok_bind]
      rw [hnext.nextIn?_eq rfl, List.head?_cons, Option.filter_some, if_pos hthird]
      simp [hc, hsecond]

theorem leaves_numberEscape_octal {second third : Char}
    (h : cursor.StandsBefore (second :: third :: cs)) (hc : isOctal c = true)
    (hsecond : isOctal second = true) (hthird : isOctal third = true)
    (hcode : numberIn 8 [c, second, third] ≤ 0o377) :
    Leaves (cursor.numberEscape c) (.code (numberIn 8 [c, second, third])) cs := by
  rw [numberEscape_octal h hc hsecond hthird]
  apply (h.isAt_plain (ne_backslash_of_isOctal hsecond)).leaves_advance
  · intro hlast
    exact absurd (List.cons.inj hlast).1 (ne_backslash_of_isOctal hthird)
  · intro next hnext
    apply (hnext.isAt_plain (ne_backslash_of_isOctal hthird)).leaves_advance id
    intro last hlast
    unfold octalEscape
    rw [if_neg (Nat.not_lt.mpr hcode)]
    exact hlast.leaves _

theorem numberEscape_octal_ne_ok {second third : Char}
    (h : cursor.StandsBefore (second :: third :: cs)) (hc : isOctal c = true)
    (hsecond : isOctal second = true) (hthird : isOctal third = true)
    (hcode : 0o377 < numberIn 8 [c, second, third]) (taken : NumberEscape × Cursor) :
    cursor.numberEscape c ≠ .ok taken := by
  rw [numberEscape_octal h hc hsecond hthird]
  intro heq
  obtain ⟨next, -, heq⟩ := bind_eq_ok_iff.mp heq
  obtain ⟨last, -, heq⟩ := bind_eq_ok_iff.mp heq
  unfold octalEscape at heq
  rw [if_pos hcode] at heq
  cases heq

/-! ## Names -/

variable {terminator : Char} {what : String}

theorem takeNameFrom_eq_ok (hterminator : terminator ≠ '\\') {fuel : Nat} {before name : List Char}
    (h : cursor.StandsBefore cs)
    (heq : takeNameFrom terminator what fuel before cursor = .ok (name, next)) :
    ∃ text rest, cs = text ++ terminator :: rest ∧ name = before.reverse ++ text ∧
      ('\\' ∉ text → terminator ∉ text) ∧ next.StandsBefore rest := by
  induction fuel generalizing cursor cs before with
  | zero => cases heq
  | succ fuel ih =>
      rw [takeNameFrom] at heq
      rcases eq_nil_or_plain_or_escaped h.ne_backslash with
        rfl | ⟨c, rest, hc, rfl⟩ | ⟨c, rest, rfl⟩
      · rw [h.peek_nil] at heq
        dsimp only at heq
        split at heq <;> cases heq
      · have hat := h.isAt_plain hc
        rw [hat.peek] at heq
        obtain ⟨after, hafter, heq⟩ := bind_eq_ok_iff.mp heq
        obtain ⟨hbefore, -⟩ := hat.of_advance hafter
        by_cases hend : c = terminator
        · subst hend
          rw [if_pos rfl] at heq
          split at heq
          · cases heq
          · cases heq
            exact ⟨[], rest, rfl, by simp, fun _ => List.not_mem_nil, hbefore⟩
        · rw [if_neg (by simpa using hend)] at heq
          obtain ⟨text, last, rfl, rfl, hplain, hnext⟩ := ih hbefore heq
          refine ⟨c :: text, last, rfl, by simp [Symbol.text], ?_, hnext⟩
          intro hbackslash
          simp only [List.mem_cons, not_or] at hbackslash ⊢
          exact ⟨Ne.symm hend, hplain hbackslash.2⟩
      · have hat := h.isAt_escaped
        rw [hat.peek] at heq
        obtain ⟨after, hafter, heq⟩ := bind_eq_ok_iff.mp heq
        obtain ⟨hbefore, -⟩ := hat.of_advance hafter
        rw [if_neg (by simp)] at heq
        obtain ⟨text, last, rfl, rfl, -, hnext⟩ := ih hbefore heq
        refine ⟨'\\' :: c :: text, last, rfl, by simp [Symbol.text], ?_, hnext⟩
        intro hbackslash
        simp at hbackslash

theorem leaves_takeNameFrom (hterminator : terminator ≠ '\\') {fuel : Nat}
    {before text : List Char} (hne : before ++ text ≠ [])
    (htext : ∀ c ∈ text, c ≠ '\\' ∧ c ≠ terminator) (hfuel : text.length < fuel)
    (h : cursor.StandsBefore (text ++ terminator :: rest)) :
    Leaves (takeNameFrom terminator what fuel before cursor) (before.reverse ++ text) rest := by
  induction text generalizing cursor before fuel with
  | nil =>
      obtain ⟨fuel, rfl⟩ := Nat.exists_eq_succ_of_ne_zero (Nat.ne_zero_of_lt hfuel)
      have hat := h.isAt_plain hterminator
      rw [takeNameFrom, hat.peek]
      apply hat.leaves_advance id
      intro next hnext
      have hbefore : before.isEmpty = false := by simpa using hne
      rw [if_pos rfl, hbefore, List.append_nil]
      exact hnext.leaves _
  | cons c text ih =>
      obtain ⟨fuel, rfl⟩ := Nat.exists_eq_succ_of_ne_zero (Nat.ne_zero_of_lt hfuel)
      obtain ⟨hc, hend⟩ := htext c List.mem_cons_self
      have hat := h.isAt_plain hc
      rw [takeNameFrom, hat.peek]
      apply hat.leaves_advance
      · -- The terminator is left after a character of the name.
        intro hlast
        have hmem : terminator ∈ ['\\'] := hlast ▸ by simp
        exact absurd (List.mem_singleton.mp hmem) hterminator
      · intro next hnext
        have hothers : Leaves (takeNameFrom terminator what fuel (c :: before) next)
            ((c :: before).reverse ++ text) rest :=
          ih (by simp) (fun d hd => htext d (List.mem_cons_of_mem _ hd))
            (Nat.lt_of_succ_lt_succ hfuel) hnext
        rw [if_neg (by simpa using hend)]
        simpa [Symbol.text] using hothers

theorem length_le_of_standsBefore {text : List Char} (htext : ∀ c ∈ text, c ≠ '\\')
    (h : cursor.StandsBefore (text ++ rest)) : text.length ≤ cursor.rest.length := by
  obtain ⟨position, hrest⟩ := h.rest_eq
  rw [hrest]
  clear hrest h
  induction text generalizing position with
  | nil => exact Nat.zero_le _
  | cons c text ih =>
      rw [List.cons_append, tokensFrom_plain _ (htext c List.mem_cons_self), List.length_cons,
        List.length_cons]
      exact Nat.succ_le_succ (ih (fun d hd => htext d (List.mem_cons_of_mem _ hd)) (position + 1))

theorem leaves_takeName (hterminator : terminator ≠ '\\') {name : List Char} (hne : name ≠ [])
    (hname : ∀ c ∈ name, c ≠ '\\' ∧ c ≠ terminator)
    (h : cursor.StandsBefore (name ++ terminator :: rest)) :
    Leaves (cursor.takeName terminator what) name rest := by
  unfold takeName
  have hfuel : name.length < cursor.rest.length + 1 :=
    Nat.lt_succ_of_le (length_le_of_standsBefore (fun c hc => (hname c hc).1) h)
  have hleaves : Leaves (takeNameFrom terminator what (cursor.rest.length + 1) [] cursor)
      (List.reverse [] ++ name) rest := leaves_takeNameFrom hterminator hne hname hfuel h
  exact hleaves

end Cursor

end Interlinear.Pattern
