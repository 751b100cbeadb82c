import Interlinear.Generator.Parser
import Interlinear.Proofs.Rows
import Mathlib

/-!
# Tokens of rules

The expansions of a rule are tokens between white space.  A token may begin with a weight, which is
taken wherever it stands; what follows is written as references in brackets and texts without
brackets, of which there is at least one.  Two texts side by side are one text, so that a token has
one reading in which no two texts are adjacent, and this is what the reader returns.
-/

namespace Interlinear.Generator

open Outcome Unicode Numeral

/-- Tokens with white space between them, before the first and after the last. -/
inductive Separated : List Char → List (List Char) → Prop
  | nil {blanks : List Char} (hblanks : ∀ c ∈ blanks, isBlank c = true) : Separated blanks []
  | cons {blanks token rest : List Char} {tokens : List (List Char)}
      (hblanks : ∀ c ∈ blanks, isBlank c = true) (hne : token ≠ [])
      (htoken : ∀ c ∈ token, isBlank c = false) (hstop : ∀ c ∈ rest.head?, isBlank c = true)
      (hrest : Separated rest tokens) : Separated (blanks ++ token ++ rest) (token :: tokens)

def digitOf (c : Char) : Nat :=
  (digitValue? c.toNat).getD 0

/-- The value of decimal digits, the highest first. -/
def valueOf (digits : List Char) : Nat :=
  Nat.ofDigits 10 (digits.map digitOf).reverse

/-- Digits, perhaps a point and further digits, and an asterisk. -/
inductive IsWeight : List Char → Decimal → Prop
  | whole {digits : List Char} (hne : digits ≠ []) (hdigits : ∀ c ∈ digits, isDigit c = true) :
      IsWeight (digits ++ ['*']) ⟨valueOf digits, 0⟩
  | places {digits places : List Char} (hne : digits ≠ [])
      (hdigits : ∀ c ∈ digits, isDigit c = true) (hplacesNe : places ≠ [])
      (hplaces : ∀ c ∈ places, isDigit c = true) :
      IsWeight (digits ++ '.' :: (places ++ ['*'])) ⟨valueOf (digits ++ places), places.length⟩

/-- A token has a weight and what follows it, or no weight stands before it and it counts as one. -/
def Weighs (token : List Char) (weight : Decimal) (rest : List Char) : Prop :=
  (∃ text, IsWeight text weight ∧ text ++ rest = token) ∨
    (∀ text other after, IsWeight text other → text ++ after ≠ token) ∧ weight = .one ∧ rest = token

def Part.written : Part → List Char
  | .reference name => '[' :: (name.toList ++ [']'])
  | .text content => content.toList
  | .stray content => content.toList

def written (parts : List Part) : List Char :=
  parts.flatMap Part.written

/-- Not empty, without white space and without brackets. -/
def IsPlain (text : String) : Prop :=
  text ≠ "" ∧ ∀ c ∈ text.toList, isBlank c = false ∧ isBracket c = false

def Part.IsWritable : Part → Prop
  | .reference name => IsPlain name
  | .text content => IsPlain content
  | .stray _ => False

/-- The parts are references and texts, and written one after the other they give the characters. -/
structure Spells (parts : List Part) (cs : List Char) : Prop where
  writable : ∀ part ∈ parts, part.IsWritable
  written_eq : written parts = cs

/-- Perhaps a weight, and at least one part. -/
def IsToken (token : List Char) : Prop :=
  ∃ weight rest parts, Weighs token weight rest ∧ parts ≠ [] ∧ Spells parts rest

def Part.IsText : Part → Prop
  | .text _ => True
  | _ => False

/-- No two texts are adjacent. -/
def IsMerged (parts : List Part) : Prop :=
  parts.IsChain fun part next => ¬ (part.IsText ∧ next.IsText)

/-- The expansion that a token is read as. -/
structure Reads (token : List Char) (expansion : Expansion Decimal) : Prop where
  ne_nil : expansion.parts ≠ []
  merged : IsMerged expansion.parts
  spells : ∃ rest, Weighs token expansion.weight rest ∧ Spells expansion.parts rest

section Stops

variable {p : Char → Bool} {cs rest : List Char}

theorem takeWhile_append_of_stop (hcs : ∀ c ∈ cs, p c = true)
    (hrest : ∀ c ∈ rest.head?, p c = false) : (cs ++ rest).takeWhile p = cs := by
  rw [List.takeWhile_append_of_pos hcs]
  cases rest with
  | nil => simp
  | cons c rest => simp [hrest c rfl]

theorem dropWhile_append_of_stop (hcs : ∀ c ∈ cs, p c = true)
    (hrest : ∀ c ∈ rest.head?, p c = false) : (cs ++ rest).dropWhile p = rest := by
  rw [List.dropWhile_append_of_pos hcs]
  cases rest with
  | nil => rfl
  | cons c rest => rw [List.dropWhile_cons_of_neg (by simp [hrest c rfl])]

theorem stops_cons {c : Char} (h : p c = false) (rest : List Char) :
    ∀ d ∈ (c :: rest).head?, p d = false := by
  simpa using h

/-- The longest stretch of such characters at the start, and the rest. -/
theorem exists_stretch (p : Char → Bool) (cs : List Char) :
    ∃ stretch rest, cs.takeWhile p = stretch ∧ cs.dropWhile p = rest ∧ stretch ++ rest = cs ∧
      (∀ c ∈ stretch, p c = true) ∧ ∀ c ∈ rest.head?, p c = false := by
  refine ⟨_, _, rfl, rfl, List.takeWhile_append_dropWhile, fun c hc => List.mem_takeWhile_imp hc,
    fun c hc => ?_⟩
  have hhead := List.head?_dropWhile_not p cs
  rw [Option.mem_def.mp hc] at hhead
  simpa using hhead

end Stops

/-! ### White space -/

theorem words_blanks_append {blanks : List Char} (h : ∀ c ∈ blanks, isBlank c = true)
    (rest : List Char) : words (blanks ++ rest) = words rest := by
  induction blanks with
  | nil => rfl
  | cons c blanks ih =>
      obtain ⟨hc, hblanks⟩ := List.forall_mem_cons.mp h
      rw [List.cons_append, words, wordsAfter, if_pos hc]
      exact ih hblanks

theorem wordsAfter_append (word : List Char) {token rest : List Char} (hne : word ≠ [] ∨ token ≠ [])
    (htoken : ∀ c ∈ token, isBlank c = false) (hstop : ∀ c ∈ rest.head?, isBlank c = true) :
    wordsAfter word (token ++ rest) = (word.reverse ++ token) :: words rest := by
  induction token generalizing word with
  | nil =>
      have hword : word.isEmpty = false := by simpa using hne
      cases rest with
      | nil => simp [wordsAfter, words, hword]
      | cons c rest =>
          have hc : isBlank c = true := hstop c rfl
          simp [wordsAfter, words, hword, hc]
  | cons c token ih =>
      obtain ⟨hc, hothers⟩ := List.forall_mem_cons.mp htoken
      rw [List.cons_append, wordsAfter, if_neg (by simp [hc]),
        ih (c :: word) (.inl (List.cons_ne_nil _ _)) hothers]
      simp

theorem Separated.words_eq {cs : List Char} {tokens : List (List Char)} (h : Separated cs tokens) :
    words cs = tokens := by
  induction h with
  | @nil blanks hblanks =>
      rw [← List.append_nil blanks, words_blanks_append hblanks]
      rfl
  | cons hblanks hne htoken hstop _ ih =>
      rw [List.append_assoc, words_blanks_append hblanks, words,
        wordsAfter_append [] (.inr hne) htoken hstop, ih]
      rfl

theorem exists_separated (cs : List Char) : ∃ tokens, Separated cs tokens := by
  induction cs with
  | nil => exact ⟨[], .nil (by simp)⟩
  | cons c cs ih =>
      obtain ⟨tokens, htokens⟩ := ih
      cases hc : isBlank c with
      | true =>
          cases htokens with
          | nil hblanks => exact ⟨[], .nil (List.forall_mem_cons.mpr ⟨hc, hblanks⟩)⟩
          | cons hblanks hne htoken hstop hrest =>
              exact ⟨_, .cons (List.forall_mem_cons.mpr ⟨hc, hblanks⟩) hne htoken hstop hrest⟩
      | false =>
          have hnone : ∀ d ∈ ([] : List Char), isBlank d = true := by simp
          have hfirst : ∀ d ∈ [c], isBlank d = false := List.forall_mem_singleton.mpr hc
          -- The character begins the first token or is one before white space.
          by_cases hstop : ∀ d ∈ cs.head?, isBlank d = true
          · exact ⟨[c] :: tokens, .cons hnone (List.cons_ne_nil _ _) hfirst hstop htokens⟩
          · cases htokens with
            | nil hblanks => exact absurd (fun d hd => hblanks d (List.mem_of_mem_head? hd)) hstop
            | @cons blanks token rest others hblanks hne htoken hnext hrest =>
                cases blanks with
                | nil =>
                    exact ⟨(c :: token) :: others, .cons hnone (List.cons_ne_nil _ _)
                      (List.forall_mem_cons.mpr ⟨hc, htoken⟩) hnext hrest⟩
                | cons blank blanks =>
                    exact absurd (by simpa using hblanks blank List.mem_cons_self) hstop

theorem words_eq_iff {cs : List Char} {tokens : List (List Char)} :
    words cs = tokens ↔ Separated cs tokens := by
  constructor
  · rintro rfl
    obtain ⟨tokens, htokens⟩ := exists_separated cs
    rwa [htokens.words_eq]
  · exact Separated.words_eq

/-! ### Weights -/

theorem digitsValue_eq_valueOf (digits : List Char) : digitsValue digits = valueOf digits := by
  induction digits using List.reverseRecOn with
  | nil => rfl
  | append_singleton digits c ih =>
      have hlast : digitsValue (digits ++ [c]) = 10 * digitsValue digits + digitOf c := by
        simp [digitsValue, digitOf]
      rw [hlast, ih, valueOf, valueOf, List.map_append, List.reverse_append, List.map_singleton,
        List.reverse_singleton, List.singleton_append, Nat.ofDigits_cons, Nat.add_comm]

theorem splitWeight?_whole {digits : List Char} (hne : digits ≠ [])
    (hdigits : ∀ c ∈ digits, isDigit c = true) (rest : List Char) :
    splitWeight? (digits ++ '*' :: rest) = some (⟨valueOf digits, 0⟩, rest) := by
  have hstop := stops_cons (p := isDigit) (c := '*') rfl rest
  rw [splitWeight?, takeWhile_append_of_stop hdigits hstop, dropWhile_append_of_stop hdigits hstop,
    ← digitsValue_eq_valueOf]
  obtain ⟨digit, others, rfl⟩ := List.exists_cons_of_ne_nil hne
  rfl

theorem splitWeight?_places {digits places : List Char} (hne : digits ≠ [])
    (hdigits : ∀ c ∈ digits, isDigit c = true) (hplacesNe : places ≠ [])
    (hplaces : ∀ c ∈ places, isDigit c = true) (rest : List Char) :
    splitWeight? (digits ++ '.' :: (places ++ '*' :: rest)) =
      some (⟨valueOf (digits ++ places), places.length⟩, rest) := by
  have hpoint := stops_cons (p := isDigit) (c := '.') rfl (places ++ '*' :: rest)
  have hstop := stops_cons (p := isDigit) (c := '*') rfl rest
  rw [splitWeight?, takeWhile_append_of_stop hdigits hpoint,
    dropWhile_append_of_stop hdigits hpoint, ← digitsValue_eq_valueOf]
  obtain ⟨digit, others, rfl⟩ := List.exists_cons_of_ne_nil hne
  simp only [takeWhile_append_of_stop hplaces hstop, dropWhile_append_of_stop hplaces hstop]

theorem splitWeight?_eq_some_iff {word rest : List Char} {weight : Decimal} :
    splitWeight? word = some (weight, rest) ↔
      ∃ text, IsWeight text weight ∧ text ++ rest = word := by
  constructor
  · intro h
    obtain ⟨whole, after, htake, hdrop, hword, hdigits, -⟩ := exists_stretch isDigit word
    rw [splitWeight?, htake, hdrop] at h
    split at h
    next => cases h
    next hne =>
        obtain ⟨rfl, rfl⟩ := Prod.mk.inj (Option.some.inj h)
        rw [digitsValue_eq_valueOf]
        exact ⟨_, .whole hne hdigits, by simpa using hword⟩
    next tail hne =>
        obtain ⟨places, after, htake, hdrop, htail, hplaces, -⟩ := exists_stretch isDigit tail
        rw [htake, hdrop] at h
        split at h
        next => cases h
        next hplacesNe =>
            obtain ⟨rfl, rfl⟩ := Prod.mk.inj (Option.some.inj h)
            rw [digitsValue_eq_valueOf]
            exact ⟨_, .places hne hdigits hplacesNe hplaces, by simp [← hword, ← htail]⟩
        next => cases h
    next => cases h
  · rintro ⟨text, htext, rfl⟩
    cases htext with
    | @whole digits hne hdigits => simpa using splitWeight?_whole hne hdigits rest
    | @places digits places hne hdigits hplacesNe hplaces =>
        simpa using splitWeight?_places hne hdigits hplacesNe hplaces rest

theorem weighs_iff {token rest : List Char} {weight : Decimal} :
    Weighs token weight rest ↔ (splitWeight? token).getD (.one, token) = (weight, rest) := by
  cases hsplit : splitWeight? token with
  | none =>
      have hnone : ∀ text other after, IsWeight text other → text ++ after ≠ token := by
        intro text other after htext heq
        have hsome := splitWeight?_eq_some_iff.mpr ⟨text, htext, heq⟩
        rw [hsplit] at hsome
        cases hsome
      rw [Option.getD_none, Prod.mk.injEq]
      constructor
      · rintro (⟨text, htext, heq⟩ | ⟨-, rfl, rfl⟩)
        · exact absurd heq (hnone text weight rest htext)
        · exact ⟨rfl, rfl⟩
      · rintro ⟨rfl, rfl⟩
        exact .inr ⟨hnone, rfl, rfl⟩
  | some found =>
      obtain ⟨other, after⟩ := found
      rw [Option.getD_some]
      constructor
      · rintro (⟨text, htext, heq⟩ | ⟨hnone, -, -⟩)
        · have hsame := splitWeight?_eq_some_iff.mpr ⟨text, htext, heq⟩
          exact Option.some.inj (hsplit.symm.trans hsame)
        · obtain ⟨text, htext, heq⟩ := splitWeight?_eq_some_iff.mp hsplit
          exact absurd heq (hnone text other after htext)
      · intro heq
        rw [heq] at hsplit
        exact .inl (splitWeight?_eq_some_iff.mp hsplit)

/-! ### Parts -/

theorem written_cons (part : Part) (parts : List Part) :
    written (part :: parts) = part.written ++ written parts :=
  List.flatMap_cons

theorem Part.IsWritable.exists_written {part : Part} (h : part.IsWritable) :
    ∃ c cs, part.written = c :: cs ∧ (isBracket c = true ↔ ¬ part.IsText) := by
  cases part with
  | reference name => exact ⟨'[', _, rfl, iff_of_true rfl id⟩
  | text content =>
      obtain ⟨hne, hchars⟩ := h
      obtain ⟨c, cs, hcontent⟩ := List.exists_cons_of_ne_nil (mt String.toList_eq_nil_iff.mp hne)
      have hc : isBracket c = false := (hchars c (by simp [hcontent])).2
      exact ⟨c, cs, hcontent, iff_of_false (by simp [hc]) (not_not_intro trivial)⟩
  | stray content => exact absurd h id

/-- What is written begins with a bracket or with a text. -/
theorem isBracket_head?_written_iff {parts : List Part} (h : ∀ part ∈ parts, part.IsWritable) :
    (∀ c ∈ (written parts).head?, isBracket c = true) ↔
      ∀ part ∈ parts.head?, ¬ part.IsText := by
  cases parts with
  | nil => simp [written]
  | cons part parts =>
      obtain ⟨c, cs, hwritten, hc⟩ := (h part List.mem_cons_self).exists_written
      simpa [written_cons, hwritten] using hc

theorem readParts_reference {name : List Char} (hne : name ≠ [])
    (hname : ∀ c ∈ name, isBracket c = false) (fuel : Nat) (rest : List Char) :
    readParts (fuel + 1) ('[' :: (name ++ ']' :: rest)) =
      (readParts fuel rest).map (.reference (String.ofList name) :: ·) := by
  have hplain : ∀ c ∈ name, (!isBracket c) = true := by simpa using hname
  have hstop := stops_cons (p := (!isBracket ·)) (c := ']') rfl rest
  rw [readParts, takeWhile_append_of_stop hplain hstop, dropWhile_append_of_stop hplain hstop]
  obtain ⟨c, cs, rfl⟩ := List.exists_cons_of_ne_nil hne
  rfl

theorem readParts_text {text : List Char} (hne : text ≠ [])
    (htext : ∀ c ∈ text, isBracket c = false) (fuel : Nat) {rest : List Char}
    (hstop : ∀ c ∈ rest.head?, isBracket c = true) :
    readParts (fuel + 1) (text ++ rest) =
      (readParts fuel rest).map (.text (String.ofList text) :: ·) := by
  have hplain : ∀ c ∈ text, (!isBracket c) = true := by simpa using htext
  have hend : ∀ c ∈ rest.head?, (!isBracket c) = false := by simpa using hstop
  obtain ⟨c, cs, rfl⟩ := List.exists_cons_of_ne_nil hne
  have hc : isBracket c = false := htext c List.mem_cons_self
  have hopen : c ≠ '[' := by
    rintro rfl
    cases hc
  rw [List.cons_append, readParts, if_neg (by simp [hc]), ← List.cons_append,
    takeWhile_append_of_stop hplain hend, dropWhile_append_of_stop hplain hend]
  · rfl
  · exact hopen

theorem isMerged_cons_iff {part : Part} {parts : List Part} :
    IsMerged (part :: parts) ↔
      (part.IsText → ∀ next ∈ parts.head?, ¬ next.IsText) ∧ IsMerged parts := by
  rw [IsMerged, List.isChain_cons]
  refine and_congr_left' ⟨fun h htext next hnext hboth => ?_, fun h next hnext hboth => ?_⟩
  · exact h next hnext ⟨htext, hboth⟩
  · exact h hboth.1 next hnext hboth.2

theorem isPlain_ofList {cs : List Char} (hne : cs ≠ []) (hblank : ∀ c ∈ cs, isBlank c = false)
    (hbracket : ∀ c ∈ cs, isBracket c = false) : IsPlain (String.ofList cs) := by
  refine ⟨?_, ?_⟩
  · simpa using hne
  · simpa using fun c hc => ⟨hblank c hc, hbracket c hc⟩

theorem spells_nil : Spells [] [] :=
  ⟨by simp, rfl⟩

theorem spells_cons_iff {part : Part} {parts : List Part} {cs : List Char} :
    Spells (part :: parts) cs ↔
      part.IsWritable ∧ ∃ rest, Spells parts rest ∧ part.written ++ rest = cs := by
  constructor
  · rintro ⟨hwritable, rfl⟩
    obtain ⟨hpart, hparts⟩ := List.forall_mem_cons.mp hwritable
    exact ⟨hpart, _, ⟨hparts, rfl⟩, (written_cons part parts).symm⟩
  · rintro ⟨hpart, _, ⟨hparts, rfl⟩, rfl⟩
    exact ⟨List.forall_mem_cons.mpr ⟨hpart, hparts⟩, written_cons part parts⟩

/-- The first part is written before the others, and a text goes as far as a bracket. -/
theorem exists_of_readParts_cons {fuel : Nat} {c : Char} {cs : List Char} {parts : List Part}
    (hcs : ∀ d ∈ c :: cs, isBlank d = false) (h : readParts (fuel + 1) (c :: cs) = .ok parts) :
    ∃ part rest others, readParts fuel rest = .ok others ∧ parts = part :: others ∧
      part.IsWritable ∧ part.written ++ rest = c :: cs ∧
      (part.IsText → ∀ d ∈ rest.head?, isBracket d = true) := by
  by_cases hopen : c = '['
  · subst hopen
    obtain ⟨name, after, htake, hdrop, hsplit, hname, -⟩ := exists_stretch (!isBracket ·) cs
    rw [readParts, htake, hdrop] at h
    split at h
    next first others rest =>
        obtain ⟨parts, hparts, hlist⟩ := bind_eq_ok_iff.mp h
        have hblank : ∀ d ∈ first :: others, isBlank d = false := fun d hd =>
          hcs d (List.mem_cons_of_mem _ (hsplit ▸ List.mem_append_left _ hd))
        refine ⟨_, rest, parts, hparts, (Except.ok.inj hlist).symm,
          isPlain_ofList (List.cons_ne_nil _ _) hblank (by simpa using hname), ?_, False.elim⟩
        simpa [Part.written] using hsplit
    next => cases h
  · obtain ⟨text, rest, htake, hdrop, hsplit, htext, hstop⟩ :=
      exists_stretch (!isBracket ·) (c :: cs)
    rw [readParts, htake, hdrop] at h
    · split at h
      next => cases h
      next hc =>
          obtain ⟨parts, hparts, hlist⟩ := bind_eq_ok_iff.mp h
          have hne : text ≠ [] := by
            rw [← htake]
            simp [hc]
          have hblank : ∀ d ∈ text, isBlank d = false := fun d hd =>
            hcs d (hsplit ▸ List.mem_append_left _ hd)
          refine ⟨_, rest, parts, hparts, (Except.ok.inj hlist).symm,
            isPlain_ofList hne hblank (by simpa using htext), ?_, fun _ => by simpa using hstop⟩
          simpa [Part.written] using hsplit
    · exact hopen

/-- What is read is written as it stood. -/
theorem spells_of_readParts {fuel : Nat} {cs : List Char} {parts : List Part}
    (hcs : ∀ c ∈ cs, isBlank c = false) (h : readParts fuel cs = .ok parts) :
    Spells parts cs ∧ IsMerged parts := by
  induction fuel generalizing cs parts with
  | zero =>
      cases cs with
      | nil =>
          obtain rfl : [] = parts := Except.ok.inj h
          exact ⟨spells_nil, .nil⟩
      | cons c cs => cases h
  | succ fuel ih =>
      cases cs with
      | nil =>
          obtain rfl : [] = parts := Except.ok.inj h
          exact ⟨spells_nil, .nil⟩
      | cons c cs =>
          obtain ⟨part, rest, others, hothers, rfl, hpart, hwritten, hstop⟩ :=
            exists_of_readParts_cons hcs h
          have hrest : ∀ d ∈ rest, isBlank d = false := fun d hd =>
            hcs d (hwritten ▸ List.mem_append_right _ hd)
          obtain ⟨hspells, hmerged⟩ := ih hrest hothers
          refine ⟨spells_cons_iff.mpr ⟨hpart, rest, hspells, hwritten⟩,
            isMerged_cons_iff.mpr ⟨fun htext => ?_, hmerged⟩⟩
          rw [← isBracket_head?_written_iff hspells.writable, hspells.written_eq]
          exact hstop htext

theorem readParts_of_spells {fuel : Nat} {cs : List Char} {parts : List Part}
    (hfuel : cs.length ≤ fuel) (hspells : Spells parts cs) (hmerged : IsMerged parts) :
    readParts fuel cs = .ok parts := by
  induction parts generalizing fuel cs with
  | nil =>
      obtain rfl : [] = cs := hspells.written_eq
      rw [readParts]
  | cons part parts ih =>
      obtain ⟨hpart, rest, hrest, rfl⟩ := spells_cons_iff.mp hspells
      obtain ⟨hnext, hothers⟩ := isMerged_cons_iff.mp hmerged
      cases fuel with
      | zero =>
          obtain ⟨c, cs, hwritten, -⟩ := hpart.exists_written
          simp [hwritten] at hfuel
      | succ fuel =>
          cases part with
          | reference name =>
              obtain ⟨hne, hchars⟩ := hpart
              have hname : name.toList ≠ [] := mt String.toList_eq_nil_iff.mp hne
              simp only [Part.written, List.cons_append, List.append_assoc, List.nil_append,
                List.length_cons, List.length_append] at hfuel ⊢
              have hrestFuel : rest.length ≤ fuel := by omega
              rw [readParts_reference hname fun c hc => (hchars c hc).2, ih hrestFuel hrest hothers,
                String.ofList_toList]
              rfl
          | text content =>
              obtain ⟨hne, hchars⟩ := hpart
              have hcontent : content.toList ≠ [] := mt String.toList_eq_nil_iff.mp hne
              have hlength := List.length_pos_of_ne_nil hcontent
              have hstop : ∀ c ∈ rest.head?, isBracket c = true := by
                rw [← hrest.written_eq, isBracket_head?_written_iff hrest.writable]
                exact hnext trivial
              simp only [Part.written, List.length_append] at hfuel ⊢
              have hrestFuel : rest.length ≤ fuel := by omega
              rw [readParts_text hcontent (fun c hc => (hchars c hc).2) fuel hstop,
                ih hrestFuel hrest hothers, String.ofList_toList]
              rfl
          | stray content => exact absurd hpart id

/-- Adjacent texts can be written as one. -/
theorem Spells.exists_merged {parts : List Part} {cs : List Char} (h : Spells parts cs) :
    ∃ others, Spells others cs ∧ IsMerged others ∧ (parts ≠ [] → others ≠ []) := by
  induction parts generalizing cs with
  | nil => exact ⟨[], h, .nil, id⟩
  | cons part parts ih =>
      obtain ⟨hpart, rest, hrest, rfl⟩ := spells_cons_iff.mp h
      obtain ⟨others, hothers, hmerged, -⟩ := ih hrest
      by_cases hnext : part.IsText → ∀ next ∈ others.head?, ¬ next.IsText
      · exact ⟨part :: others, spells_cons_iff.mpr ⟨hpart, rest, hothers, rfl⟩,
          isMerged_cons_iff.mpr ⟨hnext, hmerged⟩, fun _ => List.cons_ne_nil _ _⟩
      · push Not at hnext
        obtain ⟨htext, next, hhead, hnextText⟩ := hnext
        obtain ⟨others, rfl⟩ := List.head?_eq_some_iff.mp hhead
        cases part with
        | text first =>
            cases next with
            | text second =>
                obtain ⟨hsecond, after, hafter, rfl⟩ := spells_cons_iff.mp hothers
                obtain ⟨hstop, hmerged⟩ := isMerged_cons_iff.mp hmerged
                refine ⟨.text (first ++ second) :: others,
                  spells_cons_iff.mpr ⟨?_, after, hafter, ?_⟩,
                  isMerged_cons_iff.mpr ⟨fun _ => hstop trivial, hmerged⟩,
                  fun _ => List.cons_ne_nil _ _⟩
                · refine ⟨?_, ?_⟩
                  · simpa using fun hempty => absurd hempty hpart.1
                  · rw [String.toList_append]
                    exact List.forall_mem_append.mpr ⟨hpart.2, hsecond.2⟩
                · simp [Part.written]
            | reference name => exact absurd hnextText id
            | stray content => exact absurd hnextText id
        | reference name => exact absurd htext id
        | stray content => exact absurd htext id

/-! ### Expansions -/

theorem Weighs.subset {token rest : List Char} {weight : Decimal} (h : Weighs token weight rest) :
    rest ⊆ token := by
  rcases h with ⟨text, -, rfl⟩ | ⟨-, -, rfl⟩
  · exact List.subset_append_right _ _
  · exact List.Subset.refl _

theorem Weighs.unique {token rest other : List Char} {weight otherWeight : Decimal}
    (h : Weighs token weight rest) (hother : Weighs token otherWeight other) :
    otherWeight = weight ∧ other = rest :=
  Prod.mk.inj ((weighs_iff.mp hother).symm.trans (weighs_iff.mp h))

theorem readExpansion_eq_ok_iff {token : List Char} (htoken : ∀ c ∈ token, isBlank c = false)
    {expansion : Expansion Decimal} :
    readExpansion token = .ok expansion ↔ Reads token expansion := by
  obtain ⟨⟨weight, rest⟩, hsplit⟩ : ∃ found, (splitWeight? token).getD (.one, token) = found :=
    ⟨_, rfl⟩
  have hweighs := weighs_iff.mpr hsplit
  have hrest : ∀ c ∈ rest, isBlank c = false := fun c hc => htoken c (hweighs.subset hc)
  rw [readExpansion, hsplit]
  dsimp only
  constructor
  · intro h
    obtain ⟨parts, hparts, hexpansion⟩ := bind_eq_ok_iff.mp h
    obtain ⟨hspells, hmerged⟩ := spells_of_readParts hrest hparts
    split at hexpansion
    next => cases hexpansion
    next hne =>
        obtain rfl := Except.ok.inj hexpansion
        exact ⟨by simpa using hne, hmerged, rest, hweighs, hspells⟩
  · rintro ⟨hne, hmerged, other, hother, hspells⟩
    obtain ⟨rfl, rfl⟩ := hother.unique hweighs
    rw [readParts_of_spells le_rfl hspells hmerged, ok_bind, if_neg (by simpa using hne)]

theorem exists_reads_iff {token : List Char} :
    (∃ expansion, Reads token expansion) ↔ IsToken token := by
  constructor
  · rintro ⟨expansion, hne, -, rest, hweighs, hspells⟩
    exact ⟨expansion.weight, rest, expansion.parts, hweighs, hne, hspells⟩
  · rintro ⟨weight, rest, parts, hweighs, hne, hspells⟩
    obtain ⟨others, hothers, hmerged, hothersNe⟩ := hspells.exists_merged
    exact ⟨⟨weight, others⟩, hothersNe hne, hmerged, rest, hweighs, hothers⟩

theorem Separated.not_isBlank {cs : List Char} {tokens : List (List Char)}
    (h : Separated cs tokens) : ∀ token ∈ tokens, ∀ c ∈ token, isBlank c = false := by
  induction h with
  | nil _ => exact fun token htoken => absurd htoken List.not_mem_nil
  | cons _ _ htoken _ _ ih => exact List.forall_mem_cons.mpr ⟨htoken, ih⟩

theorem Separated.readExpansions_eq_ok_iff {cs : List Char} {tokens : List (List Char)}
    (h : Separated cs tokens) {expansions : List (Expansion Decimal)} :
    readExpansions tokens = .ok expansions ↔ List.Forall₂ Reads tokens expansions :=
  readAll_eq_ok_iff readExpansion readExpansions rfl (fun _ _ => rfl) fun token htoken _ =>
    readExpansion_eq_ok_iff (h.not_isBlank token htoken)

theorem Separated.append_blanks {cs blanks : List Char} {tokens : List (List Char)}
    (h : Separated cs tokens) (hblanks : ∀ c ∈ blanks, isBlank c = true) :
    Separated (cs ++ blanks) tokens := by
  induction h with
  | nil hfirst => exact .nil (List.forall_mem_append.mpr ⟨hfirst, hblanks⟩)
  | @cons first token rest tokens hfirst hne htoken hstop _ ih =>
      rw [List.append_assoc]
      refine .cons hfirst hne htoken ?_ ih
      cases rest with
      | nil => exact fun c hc => hblanks c (List.mem_of_mem_head? hc)
      | cons c rest => exact hstop

/-- White space at the end makes no difference. -/
theorem separated_append_blanks_iff {cs blanks : List Char} {tokens : List (List Char)}
    (hblanks : ∀ c ∈ blanks, isBlank c = true) :
    Separated (cs ++ blanks) tokens ↔ Separated cs tokens := by
  refine ⟨fun h => ?_, fun h => h.append_blanks hblanks⟩
  obtain ⟨others, hothers⟩ := exists_separated cs
  have hsame : tokens = others := h.words_eq.symm.trans (hothers.append_blanks hblanks).words_eq
  rwa [hsame]

end Interlinear.Generator
