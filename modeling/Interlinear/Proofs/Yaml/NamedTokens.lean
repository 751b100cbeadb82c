import Interlinear.Proofs.Numeral.Digits
import Interlinear.Proofs.Outcome
import Interlinear.Yaml.Lexer
import Mathlib

/-!
# Tokens of a configuration with one name

A configuration may give a single inflection, of any name of ASCII letters and digits.  Such a name
is one plain scalar however long it is.  It is marked as a key at the colon after it, if it is not
longer than a key may be; otherwise nothing may stand where the colon stands and the tokens end
before it.
-/

namespace Interlinear.Yaml

open Numeral (ne_of_isAlphanum)

/-- A configuration whose only inflection replaces the end of a text. -/
def namedText (name : String) : String :=
  "inflections:\n  " ++ name ++ ":\n    - [\"$\", \"x\"]\n"

/-- A plain key that opens a block. -/
def keyTokens (name : String) : List Token :=
  [.blockMapping, .key, .scalar name true, .value]

/-- A plain scalar where a name stands, not marked as a key. -/
def unmarkedTokens (name : String) : List Token :=
  keyTokens "inflections" ++ [.scalar name true]

def ruleTokens : List Token :=
  [.blockSequence, .dash, .openSequence, .scalar "$" false, .comma, .scalar "x" false,
    .closeSequence, .blockEnd, .blockEnd, .blockEnd, .streamEnd]

def namedTokens (name : String) : List Token :=
  keyTokens "inflections" ++ keyTokens name ++ ruleTokens

/-! ## Plain scalars of letters and digits -/

theorem isBreak_of_isAlphanum {c : Char} (hc : c.isAlphanum = true) : isBreak c = false := by
  simp only [isBreak, Bool.or_eq_false_iff, beq_eq_false_iff_ne]
  refine ⟨⟨⟨⟨?_, ?_⟩, ?_⟩, ?_⟩, ?_⟩ <;> exact ne_of_isAlphanum hc (by decide)

theorem isBlankOrBreak_of_isAlphanum {c : Char} (hc : c.isAlphanum = true) :
    isBlankOrBreak c = false := by
  simp only [isBlankOrBreak, isSpaceOrBreak, isBreak_of_isAlphanum hc, Bool.or_false,
    Bool.or_eq_false_iff, beq_eq_false_iff_ne]
  exact ⟨ne_of_isAlphanum hc (by decide), ne_of_isAlphanum hc (by decide)⟩

namespace Cursor

theorem next_of_isAlphanum {c : Char} (hc : c.isAlphanum = true) (cs : List Char)
    (index line column : Nat) :
    next ⟨c :: cs, index, line, column⟩ = ⟨cs, index + 1, line, column + 1⟩ := by
  have hreturn : c ≠ '\r' := ne_of_isAlphanum hc (by decide)
  have hmark : c ≠ byteOrderMark := ne_of_isAlphanum hc (by decide)
  unfold next
  split
  · rename_i h
    cases h
  · rename_i h
    exact absurd (List.cons.inj h).1 hreturn
  · rename_i h
    obtain ⟨rfl, rfl⟩ := List.cons.inj h
    rw [if_neg (by simp [isBreak_of_isAlphanum hc]), if_neg hmark]

theorem skip_of_isAlphanum {name : List Char} (hname : ∀ c ∈ name, c.isAlphanum = true)
    (cs : List Char) (index line column : Nat) :
    skip name.length ⟨name ++ cs, index, line, column⟩ =
      ⟨cs, name.length + index, line, name.length + column⟩ := by
  induction name generalizing index column with
  | nil => simp [skip]
  | cons c name ih =>
      obtain ⟨hc, hname⟩ := List.forall_mem_cons.mp hname
      rw [List.length_cons, List.cons_append, skip, next_of_isAlphanum hc, ih hname]
      congr 1 <;> omega

end Cursor

theorem plainWord_of_isAlphanum {name : List Char} (hname : ∀ c ∈ name, c.isAlphanum = true)
    (cs : List Char) : plainWord false (name ++ ':' :: '\n' :: cs) = name := by
  induction name with
  | nil =>
      rw [List.nil_append, plainWord, if_pos]
      simp [endsKey, endsWord, isBlankOrBreak, isSpaceOrBreak, isBreak]
  | cons c name ih =>
      obtain ⟨hc, hname⟩ := List.forall_mem_cons.mp hname
      have hcolon : c ≠ ':' := ne_of_isAlphanum hc (by decide)
      rw [List.cons_append, plainWord, if_neg, ih hname]
      simp [isBlankOrBreak_of_isAlphanum hc, hcolon]

theorem readPlain_of_isAlphanum {name : List Char} (hne : name ≠ [])
    (hname : ∀ c ∈ name, c.isAlphanum = true) (cs : List Char) (least index line column : Nat) :
    readPlain false least ⟨name ++ ':' :: '\n' :: cs, index, line, column⟩ =
      ⟨name, ⟨':' :: '\n' :: cs, name.length + index, line, name.length + column⟩, false⟩ := by
  obtain ⟨c, others, rfl⟩ := List.exists_cons_of_ne_nil hne
  have hc : c.isAlphanum = true := hname c (List.mem_cons_self ..)
  have hcomment : c ≠ '#' := ne_of_isAlphanum hc (by decide)
  have hgap : ∀ index column, plainGap ⟨':' :: '\n' :: cs, index, line, column⟩ =
      ⟨[], ⟨':' :: '\n' :: cs, index, line, column⟩, false⟩ := by
    intro index column
    cbv
  rw [readPlain, List.cons_append, List.length_cons, plainWords]
  simp only [← List.cons_append, plainWord_of_isAlphanum hname, Cursor.skip_of_isAlphanum hname,
    hgap]
  simp [Cursor.peek, hcomment]

namespace Lexer

theorem readToken_of_isAlphanum {c : Char} (hc : c.isAlphanum = true) {lexer : Lexer}
    (hcolumn : lexer.cursor.column ≠ 0) : lexer.readToken c = lexer.readPlainScalar := by
  have hne : ∀ d : Char, d.isAlphanum = false → c ≠ d := fun d => ne_of_isAlphanum hc
  have hplain : lexer.startsPlain c = true := by
    simp [startsPlain, isBlankOrBreak_of_isAlphanum hc, hne]
  simp [readToken, hcolumn, hne, hplain]

theorem readPlainScalar_eq {lexer after : Lexer} {scalar : Gap}
    (hadd : lexer.addCandidate = .ok after)
    (hplain : readPlain after.inFlow after.leastColumn after.cursor = scalar) :
    lexer.readPlainScalar =
      .ok { after.emit (.scalar (String.ofList scalar.text) true) with
        cursor := scalar.cursor, mayStartKey := scalar.crossesLine } := by
  rw [readPlainScalar, hadd, Outcome.ok_bind, hplain]

/-! ## One token after another -/

theorem dropStale_eq {lexer : Lexer}
    (hfresh : ∀ candidate ∈ lexer.candidates, candidate.isStale lexer.cursor = false) :
    lexer.dropStale = .ok lexer := by
  rw [dropStale, if_neg]
  · congr
    rw [List.filter_eq_self]
    intro candidate hmem
    simp [hfresh candidate hmem]
  · simp only [List.any_eq_true, Bool.and_eq_true]
    rintro ⟨candidate, hmem, hstale, -⟩
    simp [hfresh candidate hmem] at hstale

/-- A token after a gap that closes no block and leaves every candidate what it is. -/
theorem readAll_token {lexer after : Lexer} (fuel : Nat) (next : Lexer) (c : Char)
    (hgap : lexer.skipGap (lexer.cursor.rest.length + 1) = next)
    (hfresh : ∀ candidate ∈ next.candidates, candidate.isStale next.cursor = false)
    (hclosed : next.closeBlocks (next.cursor.column < ·) = next)
    (hpeek : next.cursor.peek = some c) (hread : next.readToken c = .ok after)
    (hmatched : next.isUnmatched c = false) :
    readAll (fuel + 1) lexer = readAll fuel after := by
  have hnext : lexer.toNextToken = .ok next := by
    rw [toNextToken, hgap, dropStale_eq hfresh]
    exact congrArg Except.ok hclosed
  rw [readAll, hnext]
  simp only [hpeek, hread, hmatched, Bool.false_eq_true, if_false]

variable (tokens : Array Token) (fuel : Nat) (rest : List Char)

/-! ## The name -/

/-- The lexer after the colon of the first line. -/
def afterHeading : Lexer :=
  ⟨⟨'\n' :: rest, 12, 0, 12⟩, (keyTokens "inflections").toArray, [0], 0, [], false⟩

/-- The lexer at the name on the second line. -/
def atName (candidates : List Candidate) : Lexer :=
  ⟨⟨rest, 15, 1, 2⟩, (keyTokens "inflections").toArray, [0], 0, candidates, true⟩

theorem readAll_heading :
    readAll (fuel + 2) (.start ("inflections:\n".toList ++ rest)) =
      readAll fuel (afterHeading rest) := by
  have hscalar :
      readAll (fuel + 2) (.start ("inflections:\n".toList ++ rest)) =
        readAll (fuel + 1)
          ⟨⟨':' :: '\n' :: rest, 11, 0, 11⟩, #[.scalar "inflections" true], [], 0,
            [⟨0, 0, false, 0, 0, 0⟩], false⟩ :=
    readAll_token (fuel + 1) (.start ("inflections:\n".toList ++ rest)) 'i'
      (by cbv) (by simp [Lexer.start]) rfl rfl (by cbv) rfl
  rw [hscalar]
  exact readAll_token fuel
    ⟨⟨':' :: '\n' :: rest, 11, 0, 11⟩, #[.scalar "inflections" true], [], 0,
      [⟨0, 0, false, 0, 0, 0⟩], false⟩ ':'
    (by cbv) (by simp [Candidate.isStale, longestKey]) rfl rfl (by cbv) rfl

theorem skipGap_of_isAlphanum {c : Char} (hc : c.isAlphanum = true) (cs : List Char)
    (index line column : Nat) (blocks : List Nat) (mayStartKey : Bool) :
    skipGap (fuel + 2)
        ⟨⟨'\n' :: ' ' :: ' ' :: c :: cs, index, line, column⟩, tokens, blocks, 0, [],
          mayStartKey⟩ =
      ⟨⟨c :: cs, index + 3, line + 1, 2⟩, tokens, blocks, 0, [], true⟩ := by
  have hne : ∀ d : Char, d.isAlphanum = false → c ≠ d := fun d => ne_of_isAlphanum hc
  have hbreak : Cursor.takeBreak? ⟨c :: cs, index + 3, line + 1, 2⟩ = none := by
    unfold Cursor.takeBreak?
    split
    · rename_i h
      exact absurd (List.cons.inj h).1 (hne _ (by decide))
    · rename_i h
      obtain ⟨rfl, rfl⟩ := List.cons.inj h
      rw [if_neg (by simp [hne]), if_neg (by simp [isBreak_of_isAlphanum hc])]
    · rfl
  have hline :
      skipGap (fuel + 2)
          ⟨⟨'\n' :: ' ' :: ' ' :: c :: cs, index, line, column⟩, tokens, blocks, 0, [],
            mayStartKey⟩ =
        skipGap (fuel + 1)
          ⟨⟨' ' :: ' ' :: c :: cs, index + 1, line + 1, 0⟩, tokens, blocks, 0, [], true⟩ := by
    rw [skipGap]
    simp [Cursor.skipSpaces, Cursor.skipWhile, Cursor.skip, Cursor.skipComment, Cursor.peek,
      Cursor.takeBreak?, isBreak, Cursor.next, inFlow]
  have hspaces :
      (Cursor.mk (' ' :: ' ' :: c :: cs) (index + 1) (line + 1) 0).skipSpaces.skipComment =
        ⟨c :: cs, index + 3, line + 1, 2⟩ := by
    have hspace : c ≠ ' ' := hne ' ' (by decide)
    have hcomment : c ≠ '#' := hne '#' (by decide)
    simp [Cursor.skipSpaces, Cursor.skipWhile, Cursor.skip, Cursor.skipComment, Cursor.peek,
      Cursor.next, isBreak, hspace, hcomment, byteOrderMark]
  rw [hline, skipGap, hspaces, hbreak]

-- In sums the numeral stands last, so that they reduce though the length is not known.
/-- The lexer at the colon after a name of `length` characters. -/
def afterName (length : Nat) (candidates : List Candidate) (name : String) : Lexer :=
  ⟨⟨':' :: '\n' :: rest, length + 15, 1, length + 2⟩,
    (unmarkedTokens name).toArray, [0], 0, candidates, false⟩

def nameCandidate : Candidate :=
  ⟨0, 4, false, 15, 1, 2⟩

theorem readAll_name {name : List Char} (hne : name ≠ [])
    (hname : ∀ c ∈ name, c.isAlphanum = true) :
    readAll (fuel + 1) (afterHeading (' ' :: ' ' :: (name ++ ':' :: '\n' :: rest))) =
      readAll fuel (afterName rest name.length [nameCandidate] (String.ofList name)) := by
  obtain ⟨c, others, rfl⟩ := List.exists_cons_of_ne_nil hne
  have hc : c.isAlphanum = true := hname c (List.mem_cons_self ..)
  refine readAll_token fuel (atName (c :: (others ++ ':' :: '\n' :: rest)) []) c
    ?_ ?_ rfl rfl ?_ ?_
  · exact skipGap_of_isAlphanum _ _ hc _ 12 0 12 [0] false
  · simp [atName]
  · have hadd : addCandidate (atName (c :: (others ++ ':' :: '\n' :: rest)) []) =
        .ok (atName (c :: (others ++ ':' :: '\n' :: rest)) [nameCandidate]) := rfl
    rw [readToken_of_isAlphanum hc (by simp [atName])]
    exact readPlainScalar_eq hadd (readPlain_of_isAlphanum hne hname rest 1 15 1 2)
  · have hsequence : c ≠ ']' := ne_of_isAlphanum hc (by decide)
    have hmapping : c ≠ '\x7d' := ne_of_isAlphanum hc (by decide)
    simp [isUnmatched, hsequence, hmapping]

variable {length : Nat} (name : String)

theorem skipGap_afterName (candidates : List Candidate) :
    skipGap ((afterName rest length candidates name).cursor.rest.length + 1)
      (afterName rest length candidates name) = afterName rest length candidates name := by
  cbv

theorem readAll_colon (hlength : length ≤ longestKey) :
    readAll (fuel + 1) (afterName rest length [nameCandidate] name) =
      readAll fuel
        ⟨⟨'\n' :: rest, length + 16, 1, length + 3⟩,
          (keyTokens "inflections" ++ keyTokens name).toArray, [2, 0], 0,
          [], false⟩ := by
  refine readAll_token fuel _ ':' (skipGap_afterName rest name _) ?_ ?_ rfl ?_ rfl
  · simp [afterName, nameCandidate, Candidate.isStale]
    omega
  · simp [afterName, closeBlocks]
  · cbv

/-- After a name that is too long the colon is no token. -/
theorem readAll_colon_stale (hlength : longestKey < length) :
    readAll (fuel + 1) (afterName rest length [nameCandidate] name) =
      ⟨unmarkedTokens name, .malformed⟩ := by
  have hstale : nameCandidate.isStale ⟨':' :: '\n' :: rest, length + 15, 1, length + 2⟩ = true := by
    simp [nameCandidate, Candidate.isStale, hlength]
  have hdrop : dropStale (afterName rest length [nameCandidate] name) =
      .ok (afterName rest length [] name) := by
    have hfree : nameCandidate.isRequired = false := rfl
    simp [afterName, dropStale, hstale, hfree]
  have hnext : toNextToken (afterName rest length [nameCandidate] name) =
      .ok (afterName rest length [] name) := by
    rw [toNextToken, skipGap_afterName, hdrop]
    rfl
  have hread : readToken (afterName rest length [] name) ':' = .error .malformed := by
    cbv
  have hsettled : settled (afterName rest length [nameCandidate] name) =
      unmarkedTokens name := by
    simp [settled, afterName, hstale]
  -- No candidate is left for the colon, and inside a line none of its own may start.
  rw [readAll, hnext]
  simp only [afterName, Cursor.peek, List.head?_cons] at hread ⊢
  simp only [hread]
  exact congrArg (Tokens.mk · Fault.malformed) hsettled

/-! ## The rule -/

variable (start : Nat)

/-- The lexer in the row of a rule, `offset` characters after its bracket. -/
def inRow (offset : Nat) (candidates : List Candidate) (mayStartKey : Bool) : Lexer :=
  ⟨⟨rest, start + offset, 2, 6 + offset⟩, tokens, [4, 2, 0], 1,
    candidates ++ [⟨0, 10, false, start, 2, 6⟩], mayStartKey⟩

theorem readAll_dash (column : Nat) :
    readAll (fuel + 1)
        ⟨⟨"\n    - [".toList ++ rest, start, 1, column⟩, tokens, [2, 0], 0, [], false⟩ =
      readAll fuel
        ⟨⟨" [".toList ++ rest, start + 6, 2, 5⟩, (tokens.push .blockSequence).push .dash,
          [4, 2, 0], 0, [], true⟩ :=
  readAll_token fuel
    ⟨⟨'-' :: " [".toList ++ rest, start + 5, 2, 4⟩, tokens, [2, 0], 0, [], true⟩ '-'
    (by cbv) (by simp) rfl rfl (by cbv) rfl

theorem readAll_openSequence (hsize : tokens.size = 10) :
    readAll (fuel + 1) ⟨⟨" [".toList ++ rest, start, 2, 5⟩, tokens, [4, 2, 0], 0, [], true⟩ =
      readAll fuel (inRow (tokens.push .openSequence) rest (start + 1) 1 [] true) :=
  readAll_token fuel ⟨⟨'[' :: rest, start + 1, 2, 6⟩, tokens, [4, 2, 0], 0, [], true⟩ '['
    (by cbv) (by simp) rfl rfl (by rw [inRow, ← hsize]; cbv) rfl

theorem readAll_pattern :
    readAll (fuel + 1) (inRow tokens ("\"$\"".toList ++ rest) start 1 [] true) =
      readAll fuel
        (inRow (tokens.push (.scalar "$" false)) rest start 4
          [⟨1, tokens.size, false, start + 1, 2, 7⟩] false) :=
  readAll_token fuel (inRow tokens ("\"$\"".toList ++ rest) start 1 [] true) '"'
    (by cbv) (by simp [inRow, Candidate.isStale, longestKey]) rfl rfl (by cbv) rfl

theorem readAll_comma (position : Nat) :
    readAll (fuel + 1)
        (inRow tokens (',' :: rest) start 4 [⟨1, position, false, start + 1, 2, 7⟩] false) =
      readAll fuel (inRow (tokens.push .comma) rest start 5 [] true) :=
  readAll_token fuel
    (inRow tokens (',' :: rest) start 4 [⟨1, position, false, start + 1, 2, 7⟩] false) ','
    (by cbv) (by simp [inRow, Candidate.isStale, longestKey]) rfl rfl (by cbv) rfl

theorem readAll_template :
    readAll (fuel + 1) (inRow tokens (" \"x\"".toList ++ rest) start 5 [] true) =
      readAll fuel
        (inRow (tokens.push (.scalar "x" false)) rest start 9
          [⟨1, tokens.size, false, start + 6, 2, 12⟩] false) :=
  readAll_token fuel (inRow tokens ("\"x\"".toList ++ rest) start 6 [] true) '"'
    (by cbv) (by simp [inRow, Candidate.isStale, longestKey]) rfl rfl (by cbv) rfl

/-- The lexer after the bracket that ends the row. -/
def afterRow (index position : Nat) : Lexer :=
  ⟨⟨['\n'], index, 2, 16⟩, tokens, [4, 2, 0], 0, [⟨0, position, false, start, 2, 6⟩], false⟩

/-- On the last line the row is no candidate, and all blocks are closed. -/
theorem readAll_afterRow (index position : Nat) :
    readAll (fuel + 1) (afterRow tokens start index position) =
      ⟨((((tokens.push .blockEnd).push .blockEnd).push .blockEnd).push .streamEnd).toList,
        .malformed⟩ := by
  have hgap : skipGap 2 (afterRow tokens start index position) =
      ⟨⟨[], index + 1, 3, 0⟩, tokens, [4, 2, 0], 0, [⟨0, position, false, start, 2, 6⟩],
        true⟩ := by
    cbv
  have hnext : toNextToken (afterRow tokens start index position) =
      .ok ⟨⟨[], index + 1, 3, 0⟩, (tokens.push .blockEnd).push .blockEnd, [0], 0, [], true⟩ := by
    have hlength : (afterRow tokens start index position).cursor.rest.length + 1 = 2 := rfl
    rw [toNextToken, hlength, hgap]
    rfl
  rw [readAll, hnext]
  cbv

theorem readAll_closeSequence (position : Nat) :
    readAll (fuel + 2)
        (inRow tokens "]\n".toList start 9 [⟨1, position, false, start + 6, 2, 12⟩] false) =
      ⟨tokens.toList ++ [.closeSequence, .blockEnd, .blockEnd, .blockEnd, .streamEnd],
        .malformed⟩ := by
  have hclose :
      readAll (fuel + 2)
          (inRow tokens "]\n".toList start 9 [⟨1, position, false, start + 6, 2, 12⟩] false) =
        readAll (fuel + 1) (afterRow (tokens.push .closeSequence) start (start + 10) 10) := by
    refine readAll_token (fuel + 1)
      (inRow tokens "]\n".toList start 9 [⟨1, position, false, start + 6, 2, 12⟩] false) ']'
      ?_ ?_ ?_ ?_ ?_ ?_
    · cbv
    · simp [inRow, Candidate.isStale, longestKey]
    · rfl
    · rfl
    · cbv
    · rfl
  rw [hclose, readAll_afterRow]
  simp

theorem readAll_rule (column : Nat) (hsize : tokens.size = 8) :
    readAll (fuel + 7)
        ⟨⟨"\n    - [\"$\", \"x\"]\n".toList, start, 1, column⟩, tokens, [2, 0], 0, [], false⟩ =
      ⟨tokens.toList ++ ruleTokens, .malformed⟩ := by
  have hdash := readAll_dash tokens (fuel + 6) "\"$\", \"x\"]\n".toList start column
  have hopen := readAll_openSequence ((tokens.push .blockSequence).push .dash) (fuel + 5)
    "\"$\", \"x\"]\n".toList (start + 6) (by simp [hsize])
  have hpattern := fun tokens => readAll_pattern tokens (fuel + 4) ", \"x\"]\n".toList (start + 7)
  have hcomma := fun tokens position =>
    readAll_comma tokens (fuel + 3) " \"x\"]\n".toList (start + 7) position
  have htemplate := fun tokens => readAll_template tokens (fuel + 2) "]\n".toList (start + 7)
  have hclose := fun tokens position => readAll_closeSequence tokens fuel (start + 7) position
  refine (hdash.trans (hopen.trans ((hpattern _).trans ((hcomma _ _).trans
    ((htemplate _).trans (hclose _ _)))))).trans ?_
  simp [ruleTokens]

end Lexer

theorem isAllowed_of_isAlphanum {c : Char} (hc : c.isAlphanum = true) : isAllowed c = true := by
  rw [Numeral.isAlphanum_iff] at hc
  have hrange : 0x20 ≤ c.toNat ∧ c.toNat ≤ 0x7E := by omega
  simp [isAllowed, hrange]

theorem toList_namedText (name : List Char) :
    (namedText (String.ofList name)).toList =
      "inflections:\n".toList ++
        (' ' :: ' ' :: (name ++ ":\n    - [\"$\", \"x\"]\n".toList)) := by
  have hheading : "inflections:\n  ".toList = "inflections:\n".toList ++ [' ', ' '] := rfl
  change ("inflections:\n  " ++ String.ofList name ++ ":\n    - [\"$\", \"x\"]\n").toList = _
  simp only [String.toList_append, hheading, List.append_assoc, List.cons_append,
    List.nil_append, String.toList_ofList]

theorem readAll_namedText {name : List Char} (hne : name ≠ [])
    (hname : ∀ c ∈ name, c.isAlphanum = true) (fuel : Nat) :
    Lexer.readAll (fuel + 11) (.start (namedText (String.ofList name)).toList) =
      ⟨if name.length ≤ longestKey then namedTokens (String.ofList name)
        else unmarkedTokens (String.ofList name), .malformed⟩ := by
  rw [toList_namedText, Lexer.readAll_heading]
  have hscalar :=
    Lexer.readAll_name (fuel + 8) "    - [\"$\", \"x\"]\n".toList hne hname
  refine hscalar.trans ?_
  split
  next hlength =>
    rw [Lexer.readAll_colon _ _ _ hlength]
    exact Lexer.readAll_rule _ fuel _ _ rfl
  next hlength =>
    rw [Lexer.readAll_colon_stale _ _ _ (by omega)]

/-- Whether the name is marked as a key depends on its length alone. -/
theorem ofText_namedText {name : List Char} (hne : name ≠ [])
    (hname : ∀ c ∈ name, c.isAlphanum = true) :
    Tokens.ofText (namedText (String.ofList name)) =
      ⟨if name.length ≤ longestKey then namedTokens (String.ofList name)
        else unmarkedTokens (String.ofList name), .malformed⟩ := by
  have hallowed : (namedText (String.ofList name)).toList.all isAllowed = true := by
    have hall : name.all isAllowed = true :=
      List.all_eq_true.mpr fun c hc => isAllowed_of_isAlphanum (hname c hc)
    rw [toList_namedText, List.all_append, List.all_cons, List.all_cons, List.all_append, hall]
    decide
  have hlength : (namedText (String.ofList name)).toList.length + 1 = name.length + 24 + 11 := by
    rw [toList_namedText]
    simp
  rw [Tokens.ofText, if_pos hallowed, hlength]
  exact readAll_namedText hne hname _

end Interlinear.Yaml
