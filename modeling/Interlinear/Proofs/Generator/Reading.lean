import Interlinear.Proofs.Dictionary
import Interlinear.Proofs.Generator.Gaps
import Interlinear.Proofs.Generator.Tokens

/-!
# What generator rules are read as

Generator rules are accepted exactly if each piece between gaps that is not blank is the text of a
rule with white space around it: a name, a colon and tokens.  What is returned has the names in the
order in which they first occur, each with the expansions of the last rule of that name, and these
are what the tokens of the rule are read as, in order.
-/

namespace Interlinear.Generator

open Outcome Unicode Numeral

/-- The text of a rule: a name, a colon and tokens, with no gap between them. -/
structure IsRule (block : List Char) (name : String) (tokens : List (List Char)) : Prop where
  name_ne : name ≠ ""
  name_chars : ∀ c ∈ name.toList, isNameChar c = true
  written : ∃ blanks body, (∀ c ∈ blanks, isBlank c = true) ∧ Separated body tokens ∧
    name.toList ++ blanks ++ ':' :: body = block
  tokens_read : ∀ token ∈ tokens, IsToken token
  unbroken : ¬ HasGap block

/-- A rule with white space around it. -/
def HoldsRule (piece : List Char) (name : String) (tokens : List (List Char)) : Prop :=
  ∃ before block after, before ++ block ++ after = piece ∧ (∀ c ∈ before, isBlank c = true) ∧
    (∀ c ∈ after, isBlank c = true) ∧ IsRule block name tokens

/-- A piece holds a rule of the name, and its tokens are read as the expansions. -/
def ReadsRule (piece : List Char) (rule : String × List (Expansion Decimal)) : Prop :=
  ∃ tokens, HoldsRule piece rule.1 tokens ∧ List.Forall₂ Reads tokens rule.2

/-- The pieces that are not blank. -/
def contentful (pieces : List (List Char)) : List (List Char) :=
  pieces.filter fun piece => !piece.all isBlank

/-! ### Rules without the white space around them -/

theorem not_isBlank_of_isNameChar {c : Char} (h : isNameChar c = true) : isBlank c = false := by
  simp only [isNameChar, Bool.and_eq_true, Bool.not_eq_true'] at h
  exact h.1

theorem exists_core (cs : List Char) :
    ∃ core blanks, core ++ blanks = cs ∧ (∀ c ∈ blanks, isBlank c = true) ∧
      ∀ c ∈ core.getLast?, isBlank c = false := by
  obtain ⟨blanks, core, -, -, hsplit, hblanks, hcore⟩ := exists_stretch isBlank cs.reverse
  refine ⟨core.reverse, blanks.reverse, ?_, by simpa using hblanks, by simpa using hcore⟩
  rw [← List.reverse_append, hsplit, List.reverse_reverse]

theorem strip_eq_self {cs : List Char} (hfirst : ∀ c ∈ cs.head?, isBlank c = false)
    (hlast : ∀ c ∈ cs.getLast?, isBlank c = false) : strip isBlank cs = cs := by
  have hdrop : ∀ {ds : List Char}, (∀ c ∈ ds.head?, isBlank c = false) →
      ds.dropWhile isBlank = ds := by
    intro ds hds
    have hnone : ∀ c ∈ ([] : List Char), isBlank c = true := by simp
    exact dropWhile_append_of_stop hnone hds
  rw [strip, hdrop hfirst, hdrop (by simpa using hlast), List.reverse_reverse]

/-- The text of a rule that is left without white space around it is one of the same rule. -/
theorem IsRule.strip {block : List Char} {name : String} {tokens : List (List Char)}
    (h : IsRule block name tokens) : IsRule (Numeral.strip isBlank block) name tokens := by
  obtain ⟨hne, hchars, ⟨blanks, body, hblanks, hbody, rfl⟩, htokens, hunbroken⟩ := h
  obtain ⟨core, after, rfl, hafter, hcore⟩ := exists_core body
  have hfirst : ∀ c ∈ (name.toList ++ blanks ++ ':' :: core).head?, isBlank c = false := by
    obtain ⟨c, cs, hname⟩ := List.exists_cons_of_ne_nil (mt String.toList_eq_nil_iff.mp hne)
    have hc := not_isBlank_of_isNameChar (hchars c (by simp [hname]))
    simpa [hname] using hc
  have hlast : ∀ c ∈ (name.toList ++ blanks ++ ':' :: core).getLast?, isBlank c = false := by
    rcases List.eq_nil_or_concat core with rfl | ⟨others, last, rfl⟩
    · simp; rfl
    · rw [List.concat_eq_append] at hcore ⊢
      rw [← List.cons_append, ← List.append_assoc, List.getLast?_concat]
      simpa using hcore
  have hstrip : Numeral.strip isBlank (name.toList ++ blanks ++ ':' :: (core ++ after)) =
      name.toList ++ blanks ++ ':' :: core := by
    rw [← List.cons_append, ← List.append_assoc, strip_append_right hafter,
      strip_eq_self hfirst hlast]
  have hinfix : name.toList ++ blanks ++ ':' :: core <:+:
      name.toList ++ blanks ++ ':' :: (core ++ after) := ⟨[], after, by simp⟩
  rw [hstrip]
  exact ⟨hne, hchars, ⟨blanks, core, hblanks, (separated_append_blanks_iff hafter).mp hbody, rfl⟩,
    htokens, fun hgap => hunbroken (hgap.of_infix hinfix)⟩

theorem holdsRule_iff {piece : List Char} {name : String} {tokens : List (List Char)} :
    HoldsRule piece name tokens ↔ IsRule (strip isBlank piece) name tokens := by
  constructor
  · rintro ⟨before, block, after, rfl, hbefore, hafter, hblock⟩
    rw [strip_append_right hafter, strip_append_left hbefore]
    exact hblock.strip
  · intro h
    obtain ⟨before, after, hpiece, hbefore, hafter⟩ := exists_strip piece
    exact ⟨before, _, after, hpiece, hbefore, hafter, h⟩

/-! ### Reading a rule -/

theorem splitName?_eq_some_iff {block name rest : List Char} :
    splitName? block = some (name, rest) ↔
      name ≠ [] ∧ (∀ c ∈ name, isNameChar c = true) ∧
        ∃ blanks, (∀ c ∈ blanks, isBlank c = true) ∧ name ++ blanks ++ ':' :: rest = block := by
  constructor
  · intro h
    obtain ⟨first, tail, hfirst, htail, hblock, hname, -⟩ := exists_stretch isNameChar block
    obtain ⟨blanks, after, -, hafter, hsplit, hblanks, -⟩ := exists_stretch isBlank tail
    rw [splitName?, hfirst, htail, hafter] at h
    split at h
    next => cases h
    next hne =>
        obtain ⟨rfl, rfl⟩ := Prod.mk.inj (Option.some.inj h)
        exact ⟨hne, hname, blanks, hblanks, by rw [List.append_assoc, hsplit, hblock]⟩
    next => cases h
  · rintro ⟨hne, hname, blanks, hblanks, rfl⟩
    have hcolon := stops_cons (p := isBlank) (c := ':') rfl rest
    have hstop : ∀ c ∈ (blanks ++ ':' :: rest).head?, isNameChar c = false := by
      cases blanks with
      | nil => exact stops_cons rfl rest
      | cons c blanks => exact stops_cons (by simp [isNameChar, hblanks c List.mem_cons_self]) _
    rw [splitName?, List.append_assoc, takeWhile_append_of_stop hname hstop,
      dropWhile_append_of_stop hname hstop, dropWhile_append_of_stop hblanks hcolon]
    obtain ⟨c, cs, rfl⟩ := List.exists_cons_of_ne_nil hne
    rfl

theorem readRule_eq_ok_iff {block : List Char} (hblock : ¬ HasGap block)
    {rule : String × List (Expansion Decimal)} :
    readRule block = .ok rule ↔
      ∃ tokens, IsRule block rule.1 tokens ∧ List.Forall₂ Reads tokens rule.2 := by
  constructor
  · intro h
    rw [readRule] at h
    split at h
    next => cases h
    next name rest hsplit =>
        obtain ⟨expansions, hexpansions, hrule⟩ := bind_eq_ok_iff.mp h
        obtain rfl := Except.ok.inj hrule
        obtain ⟨hne, hname, blanks, hblanks, hwritten⟩ := splitName?_eq_some_iff.mp hsplit
        have hrest : Separated rest (words rest) := words_eq_iff.mp rfl
        have hreads := hrest.readExpansions_eq_ok_iff.mp hexpansions
        have htokens : ∀ token ∈ words rest, IsToken token := fun token htoken =>
          exists_reads_iff.mp (exists_forall₂_iff.mp ⟨expansions, hreads⟩ token htoken)
        exact ⟨words rest, ⟨by simpa using hne, by simpa using hname,
          ⟨blanks, rest, hblanks, hrest, by simpa using hwritten⟩, htokens, hblock⟩, hreads⟩
  · rintro ⟨tokens, ⟨hne, hname, ⟨blanks, body, hblanks, hbody, hwritten⟩, -, -⟩, hreads⟩
    have hsplit : splitName? block = some (rule.1.toList, body) :=
      splitName?_eq_some_iff.mpr
        ⟨mt String.toList_eq_nil_iff.mp hne, hname, blanks, hblanks, hwritten⟩
    rw [readRule, hsplit]
    dsimp only
    rw [hbody.words_eq, hbody.readExpansions_eq_ok_iff.mpr hreads, ok_bind, String.ofList_toList]

/-! ### Reading rules between gaps -/

theorem IsCut.not_hasGap {cs : List Char} {pieces : List (List Char)} (h : IsCut cs pieces) :
    ∀ piece ∈ pieces, ¬ HasGap piece := by
  induction h with
  | whole hpiece => exact List.forall_mem_singleton.mpr hpiece
  | cut hpiece _ _ _ _ ih => exact List.forall_mem_cons.mpr ⟨hpiece, ih⟩

theorem pieceTexts_eq_map (pieces : List (List Char)) :
    pieceTexts pieces = (contentful pieces).map (strip isBlank) := by
  have hblank : ∀ piece : List Char,
      (!(strip isBlank piece).isEmpty) = !piece.all isBlank := by
    intro piece
    rw [Bool.eq_iff_iff]
    simp [strip_eq_nil_iff]
  rw [pieceTexts, contentful, List.filter_map]
  exact congrArg _ (List.filter_congr fun piece _ => hblank piece)

theorem readRule_strip_eq_ok_iff {piece : List Char} (hpiece : ¬ HasGap piece)
    {rule : String × List (Expansion Decimal)} :
    readRule (strip isBlank piece) = .ok rule ↔ ReadsRule piece rule := by
  obtain ⟨before, after, hsplit, -, -⟩ := exists_strip piece
  have hstrip : ¬ HasGap (strip isBlank piece) := fun hgap =>
    hpiece (hgap.of_infix ⟨before, after, hsplit⟩)
  rw [readRule_eq_ok_iff hstrip, ReadsRule]
  simp only [holdsRule_iff]

theorem exists_readsRule_iff {piece : List Char} :
    (∃ rule, ReadsRule piece rule) ↔ ∃ name tokens, HoldsRule piece name tokens := by
  constructor
  · rintro ⟨rule, tokens, hholds, -⟩
    exact ⟨rule.1, tokens, hholds⟩
  · rintro ⟨name, tokens, hholds⟩
    have htokens := (holdsRule_iff.mp hholds).tokens_read
    obtain ⟨expansions, hreads⟩ := exists_forall₂_iff.mpr fun token htoken =>
      exists_reads_iff.mpr (htokens token htoken)
    exact ⟨(name, expansions), tokens, hholds, hreads⟩

theorem IsCut.parse_eq_ok_iff {raw : String} {pieces : List (List Char)}
    (h : IsCut raw.toList pieces) {rules : Rules Decimal} :
    parse raw = .ok rules ↔
      ∃ pairs, List.Forall₂ ReadsRule (contentful pieces) pairs ∧ rules = .ofList pairs := by
  have hrow : ∀ {pairs}, readRules ((contentful pieces).map (strip isBlank)) = .ok pairs ↔
      List.Forall₂ ReadsRule (contentful pieces) pairs :=
    readAll_eq_ok_iff (fun piece => readRule (strip isBlank piece))
      (fun pieces => readRules (pieces.map (strip isBlank))) rfl (fun _ _ => rfl)
      fun piece hpiece _ =>
        readRule_strip_eq_ok_iff (h.not_hasGap piece (List.mem_of_mem_filter hpiece))
  rw [parse, blocks_eq_of_isCut h, pieceTexts_eq_map, bind_eq_ok_iff]
  simp only [hrow, Except.ok.injEq, eq_comm]

/-- Generator rules are accepted exactly if every piece between gaps that is not blank holds a rule.
Each name is returned where it first occurs, with what the tokens of its last rule are read as; as
machine numbers the weights are those nearest to the numbers that are written. -/
theorem parse_accepts_rules_between_gaps (raw : String) :
    (∃ pieces, IsCut raw.toList pieces) ∧ ∀ pieces, IsCut raw.toList pieces →
      ((∃ rules, parse raw = .ok rules) ↔
        ∀ piece ∈ contentful pieces, ∃ name tokens, HoldsRule piece name tokens) ∧
      ∀ rules, parse raw = .ok rules →
        (∃ pairs, List.Forall₂ ReadsRule (contentful pieces) pairs ∧
          rules.keys = (pairs.map Prod.fst).eraseDups ∧
          ∀ name, rules.get? name = pairs.reverse.lookup name) ∧
        rules.toFloat.keys = rules.keys ∧
        ∀ name, rules.toFloat.get? name = (rules.get? name).map (List.map fun expansion =>
          ⟨expansion.weight.toFloat, expansion.parts⟩) := by
  refine ⟨exists_isCut _, fun pieces hcut => ⟨?_, fun rules hrules => ⟨?_, ?_, ?_⟩⟩⟩
  · simp only [hcut.parse_eq_ok_iff, ← exists_readsRule_iff, ← exists_forall₂_iff]
    constructor
    · rintro ⟨_, pairs, hpairs, -⟩
      exact ⟨pairs, hpairs⟩
    · rintro ⟨pairs, hpairs⟩
      exact ⟨_, pairs, hpairs, rfl⟩
  · obtain ⟨pairs, hpairs, hrules⟩ := hcut.parse_eq_ok_iff.mp hrules
    exact ⟨pairs, hpairs, Dictionary.eq_ofList_iff.mp hrules⟩
  · exact rules.keys_map _
  · exact rules.get?_map _

/-- The first rule comes again behind the second gap. -/
def syllableText : String :=
  "c: t\n \r\nv:a\n\n\t\nc : m 2.5*[v]n\n"

def syllablePieces : List (List Char) :=
  ["c: t".toList, "v:a".toList, "c : m 2.5*[v]n\n".toList]

theorem isCut_syllableText : IsCut syllableText.toList syllablePieces := by
  have htext : syllableText.toList = "c: t".toList ++ "\n \r\n".toList ++
      ("v:a".toList ++ "\n\n\t\n".toList ++ "c : m 2.5*[v]n\n".toList) := by decide
  have hfirstGap : IsGap "\n \r\n".toList :=
    ⟨[[], [' ', '\r']], le_rfl, by simp [isBlankLine], rfl⟩
  have hsecondGap : IsGap "\n\n\t\n".toList :=
    ⟨[[], [], ['\t']], by decide, by simp [isBlankLine], rfl⟩
  rw [htext]
  refine .cut_between (not_hasGap_of_count (by decide)) hfirstGap (by simp; rfl) (by simp; rfl) ?_
  refine .cut_between (not_hasGap_of_count (by decide)) hsecondGap (by simp; rfl) (by simp; rfl) ?_
  exact .whole (not_hasGap_of_count (by decide))

theorem parse_accepts_rules_between_gaps_syllables :
    IsCut syllableText.toList syllablePieces ∧
      (∀ piece ∈ contentful syllablePieces, ∃ name tokens, HoldsRule piece name tokens) ∧
      ∃ rules, parse syllableText = .ok rules ∧ rules.toFloat.keys = ["c", "v"] ∧
        rules.get? "c" = some [⟨.one, [.text "m"]⟩, ⟨⟨25, 1⟩, [.reference "v", .text "n"]⟩] := by
  obtain ⟨haccepts, hreturns⟩ :=
    (parse_accepts_rules_between_gaps syllableText).2 syllablePieces isCut_syllableText
  have hrules : parse syllableText =
      .ok ⟨[("c", [⟨.one, [.text "m"]⟩, ⟨⟨25, 1⟩, [.reference "v", .text "n"]⟩]),
        ("v", [⟨.one, [.text "a"]⟩])]⟩ := rfl
  obtain ⟨-, hkeys, -⟩ := hreturns _ hrules
  exact ⟨isCut_syllableText, haccepts.mp ⟨_, hrules⟩, _, hrules, hkeys, rfl⟩

end Interlinear.Generator
