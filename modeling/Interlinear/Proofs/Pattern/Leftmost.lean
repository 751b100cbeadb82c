import Interlinear.Pattern.Template
import Interlinear.Proofs.Outcome

/-!
# The leftmost match

A search tries the places of a text from left to right, so what it finds is the match at the first
place that has one.  A match is a stretch of the text.  Whatever is matched goes on to what comes
after it from its own place or a later one, and never beyond the end, so that this holds of
sequences and repetitions if it holds of their parts, and of lookarounds because they go on from
where they stand.

Replacing one match searches the text once more from its start.  It meets the same match, and the
expanded template takes the place of that stretch while the text before and after it is kept.
-/

namespace Interlinear.Pattern

open Outcome

/-! ## Matches are stretches of the text -/

/-- The second place is in a text of this size and not before the first. -/
def LeadsTo (size : Nat) (place after : Place) : Prop :=
  place.position ≤ after.position ∧ after.position ≤ size

theorem LeadsTo.refl {size : Nat} {place : Place} (h : place.position ≤ size) :
    LeadsTo size place place :=
  ⟨Nat.le_refl _, h⟩

theorem LeadsTo.trans {size : Nat} {place between after : Place}
    (h : LeadsTo size place between) (hafter : LeadsTo size between after) :
    LeadsTo size place after :=
  ⟨Nat.le_trans h.1 hafter.1, hafter.2⟩

theorem LeadsTo.moved {size count : Nat} {place : Place} (h : place.position + count ≤ size) :
    LeadsTo size place (place.moved count) :=
  ⟨Nat.le_add_right _ _, h⟩

/-- What is matched here succeeds only by what comes after it, from a place it leads to. -/
def Advances (size : Nat) (run : Continuation → Continuation) : Prop :=
  ∀ (next : Continuation) {place result : Place}, place.position ≤ size →
    run next place = some result → ∃ after, LeadsTo size place after ∧ next after = some result

theorem Advances.leadsTo {size : Nat} {run : Continuation → Continuation}
    (h : Advances size run) {place result : Place} (hplace : place.position ≤ size)
    (hrun : run some place = some result) : LeadsTo size place result := by
  obtain ⟨after, hafter, hsome⟩ := h some hplace hrun
  obtain rfl := Option.some.inj hsome
  exact hafter

variable {text : Array Char}

theorem lt_size_of_testAt {test : CharTest} {position : Nat}
    (h : testAt text test position = true) : position < text.size := by
  unfold testAt at h
  split at h
  next c hc => exact (Array.getElem?_eq_some_iff.mp hc).1
  next => cases h

theorem runLength_le (test : CharTest) (limit : Nat) {position : Nat}
    (hposition : position ≤ text.size) :
    position + runLength text test limit position ≤ text.size := by
  induction limit generalizing position with
  | zero => exact hposition
  | succ limit ih =>
      rw [runLength]
      split
      next htest =>
          have hnext : position + 1 ≤ text.size := lt_size_of_testAt htest
          have hrest := ih hnext
          omega
      next => exact hposition

theorem sameText_le {folding : Folding} {start position length : Nat}
    (hposition : position ≤ text.size)
    (h : sameText text folding start position length = true) : position + length ≤ text.size := by
  induction length generalizing start position with
  | zero => exact hposition
  | succ length ih =>
      rw [sameText] at h
      split at h
      next a b _ hb =>
          have hnext : position + 1 ≤ text.size := (Array.getElem?_eq_some_iff.mp hb).1
          have hrest := ih hnext (Bool.and_eq_true_iff.mp h).2
          omega
      next => cases h

theorem exists_of_tryDown {next : Continuation} {place result : Place} {least extra : Nat}
    (h : tryDown next place least extra = some result) :
    ∃ length ≤ least + extra, next (place.moved length) = some result := by
  induction extra with
  | zero => exact ⟨least, Nat.le_refl _, h⟩
  | succ extra ih =>
      rw [tryDown] at h
      split at h
      next found hfound =>
          obtain rfl := Option.some.inj h
          exact ⟨_, Nat.le_refl _, hfound⟩
      next =>
          obtain ⟨length, hlength, hnext⟩ := ih h
          exact ⟨length, by omega, hnext⟩

theorem exists_of_tryUp {next : Continuation} {place result : Place} {least extra : Nat}
    (h : tryUp next place least extra = some result) :
    ∃ length ≤ least + extra, next (place.moved length) = some result := by
  induction extra generalizing least with
  | zero => exact ⟨least, Nat.le_refl _, h⟩
  | succ extra ih =>
      rw [tryUp] at h
      split at h
      next found hfound =>
          obtain rfl := Option.some.inj h
          exact ⟨least, Nat.le_add_right _ _, hfound⟩
      next =>
          obtain ⟨length, hlength, hnext⟩ := ih h
          exact ⟨length, by omega, hnext⟩

theorem advances_repeatTest (greed : Greed) (least : Nat) (most : Option Nat) (test : CharTest) :
    Advances text.size (repeatTest text greed least most test) := by
  intro next place result hplace h
  unfold repeatTest at h
  dsimp only at h
  have hrun := runLength_le test
    (min (most.getD (text.size - place.position)) (text.size - place.position)) hplace
  generalize runLength text test
    (min (most.getD (text.size - place.position)) (text.size - place.position))
    place.position = run at h hrun
  by_cases hleast : run < least
  · rw [if_pos hleast] at h
    cases h
  · rw [if_neg hleast] at h
    have hlength : ∃ length ≤ run, next (place.moved length) = some result := by
      cases greed with
      | greedy =>
          obtain ⟨length, hle, hnext⟩ := exists_of_tryDown h
          exact ⟨length, by omega, hnext⟩
      | lazy =>
          obtain ⟨length, hle, hnext⟩ := exists_of_tryUp h
          exact ⟨length, by omega, hnext⟩
      | possessive => exact ⟨run, Nat.le_refl _, h⟩
    obtain ⟨length, hle, hnext⟩ := hlength
    exact ⟨_, .moved (by omega), hnext⟩

section Rounds

variable {size : Nat} {body : Continuation → Continuation} (hbody : Advances size body)
include hbody

/-- A round of the body and what comes after it. -/
theorem Advances.round {run : Continuation → Continuation} (hrun : Advances size run)
    (next : Continuation) {place result : Place} (hplace : place.position ≤ size)
    (h : body (run next) place = some result) :
    ∃ after, LeadsTo size place after ∧ next after = some result := by
  obtain ⟨between, hbetween, hrest⟩ := hbody (run next) hplace h
  obtain ⟨after, hafter, hnext⟩ := hrun next hbetween.2 hrest
  exact ⟨after, hbetween.trans hafter, hnext⟩

theorem advances_greedyRounds (least : Nat) (most : Option Nat) (fuel count : Nat)
    (last : Option Nat) :
    Advances size fun next => greedyRounds body least most next fuel count last := by
  induction fuel generalizing count last with
  | zero =>
      intro next place result _ h
      cases h
  | succ fuel ih =>
      intro next place result hplace h
      simp only [greedyRounds] at h
      split at h
      next => exact hbody.round (ih (count + 1) last) next hplace h
      next =>
          split at h
          next =>
              split at h
              next found hfound =>
                  obtain rfl := Option.some.inj h
                  exact hbody.round (ih (count + 1) (some place.position)) next hplace hfound
              next => exact ⟨place, .refl hplace, h⟩
          next => exact ⟨place, .refl hplace, h⟩

theorem advances_lazyRounds (least : Nat) (most : Option Nat) (fuel count : Nat)
    (last : Option Nat) :
    Advances size fun next => lazyRounds body least most next fuel count last := by
  induction fuel generalizing count last with
  | zero =>
      intro next place result _ h
      cases h
  | succ fuel ih =>
      intro next place result hplace h
      simp only [lazyRounds] at h
      split at h
      next => exact hbody.round (ih (count + 1) last) next hplace h
      next =>
          split at h
          next found hfound =>
              obtain rfl := Option.some.inj h
              exact ⟨place, .refl hplace, hfound⟩
          next =>
              split at h
              next => exact hbody.round (ih (count + 1) (some place.position)) next hplace h
              next => cases h

theorem leadsTo_possessiveRounds {least : Nat} {most : Option Nat} {fuel count : Nat}
    {last : Option Nat} {place result : Place} (hplace : place.position ≤ size)
    (h : possessiveRounds (body some) least most fuel count last place = some result) :
    LeadsTo size place result := by
  induction fuel generalizing count last place with
  | zero => cases h
  | succ fuel ih =>
      rw [possessiveRounds] at h
      split at h
      next =>
          split at h
          next after hafter =>
              have hround := hbody.leadsTo hplace hafter
              exact hround.trans (ih hround.2 h)
          next => cases h
      next =>
          split at h
          next =>
              split at h
              next after hafter =>
                  have hround := hbody.leadsTo hplace hafter
                  exact hround.trans (ih hround.2 h)
              next =>
                  obtain rfl := Option.some.inj h
                  exact .refl hplace
          next =>
              obtain rfl := Option.some.inj h
              exact .refl hplace

theorem advances_repeatBody (greed : Greed) (least : Nat) (most : Option Nat) :
    Advances size (repeatBody size greed least most body) := by
  intro next place result hplace h
  cases greed with
  | greedy => exact advances_greedyRounds hbody least most _ 0 none next hplace h
  | lazy => exact advances_lazyRounds hbody least most _ 0 none next hplace h
  | possessive =>
      simp only [repeatBody] at h
      split at h
      next after hafter => exact ⟨after, leadsTo_possessiveRounds hbody hplace hafter, h⟩
      next => cases h

end Rounds

theorem Node.advances_matchAt (text : Array Char) (node : Node) :
    Advances text.size (node.matchAt text) := by
  induction node with
  | empty =>
      intro next place result hplace h
      exact ⟨place, .refl hplace, h⟩
  | char test =>
      intro next place result hplace h
      rw [matchAt] at h
      split at h
      next htest => exact ⟨_, .moved (Nat.succ_le_of_lt (lt_size_of_testAt htest)), h⟩
      next => cases h
  | anchor condition =>
      intro next place result hplace h
      rw [matchAt] at h
      split at h
      next => exact ⟨place, .refl hplace, h⟩
      next => cases h
  | reference index folding =>
      intro next place result hplace h
      rw [matchAt] at h
      split at h
      next => cases h
      next start stop _ =>
          split at h
          next hsame => exact ⟨_, .moved (sameText_le hplace hsame), h⟩
          next => cases h
  | seq first second hfirst hsecond =>
      intro next place result hplace h
      rw [matchAt] at h
      exact hfirst.round hsecond next hplace h
  | either first second hfirst hsecond =>
      intro next place result hplace h
      rw [matchAt] at h
      split at h
      next found hfound =>
          obtain rfl := Option.some.inj h
          exact hfirst next hplace hfound
      next => exact hsecond next hplace h
  | group index body hbody =>
      intro next place result hplace h
      rw [matchAt] at h
      have hopened : (place.opened index).position ≤ text.size := hplace
      obtain ⟨after, hafter, hnext⟩ := hbody _ hopened h
      exact ⟨after.closed index, hafter, hnext⟩
  | flagged body hbody =>
      intro next place result hplace h
      rw [matchAt] at h
      exact hbody next hplace h
  | atomic body hbody =>
      intro next place result hplace h
      rw [matchAt] at h
      split at h
      next after hafter => exact ⟨after, hbody.leadsTo hplace hafter, h⟩
      next => cases h
  | ahead negated body hbody =>
      intro next place result hplace h
      unfold matchAt at h
      split at h
      next after _ => exact ⟨{ after with position := place.position }, .refl hplace, h⟩
      next => exact ⟨place, .refl hplace, h⟩
      next => cases h
  | behind width negated body hbody =>
      intro next place result hplace h
      unfold matchAt at h
      split at h
      next =>
          split at h
          next => exact ⟨place, .refl hplace, h⟩
          next => cases h
      next =>
          split at h
          next after _ => exact ⟨{ after with position := place.position }, .refl hplace, h⟩
          next => exact ⟨place, .refl hplace, h⟩
          next => cases h
  | conditional index yes no hyes hno =>
      intro next place result hplace h
      unfold matchAt at h
      split at h
      next => exact hyes next hplace h
      next => exact hno next hplace h
  | repeated greed least most body hbody =>
      intro next place result hplace h
      unfold matchAt at h
      split at h
      next test => exact advances_repeatTest greed least most test next hplace h
      next => exact advances_repeatBody hbody greed least most next hplace h

variable {pattern : Pattern}

theorem start_of_matchAt? {nonempty : Bool} {position : Nat} {m : Match}
    (h : pattern.matchAt? text nonempty position = some m) : m.start = position := by
  obtain ⟨place, -, rfl⟩ := Option.map_eq_some_iff.mp h
  rfl

theorem bounds_of_matchAt? {nonempty : Bool} {position : Nat} {m : Match}
    (hposition : position ≤ text.size)
    (h : pattern.matchAt? text nonempty position = some m) :
    m.start ≤ m.stop ∧ m.stop ≤ text.size := by
  obtain ⟨place, hplace, rfl⟩ := Option.map_eq_some_iff.mp h
  have hstart : (Place.start position).position ≤ text.size := hposition
  obtain ⟨after, hafter, haccept⟩ := pattern.root.advances_matchAt text _ hstart hplace
  split at haccept
  next => cases haccept
  next =>
      obtain rfl := Option.some.inj haccept
      exact hafter

/-! ## Searching -/

/-- The match stands at the first place of the text at which the pattern matches. -/
structure IsLeftmost (pattern : Pattern) (text : Array Char) (m : Match) : Prop where
  matches_at : pattern.matchAt? text false m.start = some m
  earlier : ∀ position < m.start, pattern.matchAt? text false position = none
  start_le_stop : m.start ≤ m.stop
  stop_le_size : m.stop ≤ text.size

theorem searchFrom_eq_none_iff {count position : Nat} :
    pattern.searchFrom text count false position = none ↔
      ∀ further ≤ count, pattern.matchAt? text false (position + further) = none := by
  induction count generalizing position with
  | zero => simp [searchFrom]
  | succ count ih =>
      rw [searchFrom]
      constructor
      · intro h further hfurther
        split at h
        next => cases h
        next hfirst =>
            cases further with
            | zero => exact hfirst
            | succ further =>
                have hrest := ih.mp h further (Nat.le_of_succ_le_succ hfurther)
                rwa [Nat.add_assoc, Nat.add_comm 1 further] at hrest
      · intro h
        have hfirst := h 0 (Nat.zero_le _)
        rw [Nat.add_zero] at hfirst
        rw [hfirst]
        refine ih.mpr fun further hfurther => ?_
        rw [Nat.add_assoc, Nat.add_comm 1 further]
        exact h (further + 1) (Nat.succ_le_succ hfurther)

theorem searchFrom_eq_some {count position : Nat} {m : Match}
    (h : pattern.searchFrom text count false position = some m) :
    ∃ further ≤ count, pattern.matchAt? text false (position + further) = some m ∧
      ∀ less < further, pattern.matchAt? text false (position + less) = none := by
  induction count generalizing position with
  | zero => exact ⟨0, Nat.le_refl _, h, by simp⟩
  | succ count ih =>
      rw [searchFrom] at h
      split at h
      next found hfound =>
          obtain rfl := Option.some.inj h
          exact ⟨0, Nat.zero_le _, hfound, by simp⟩
      next hfirst =>
          obtain ⟨further, hfurther, hmatch, hnone⟩ := ih h
          rw [Nat.add_assoc, Nat.add_comm 1 further] at hmatch
          refine ⟨further + 1, Nat.succ_le_succ hfurther, hmatch, fun less hless => ?_⟩
          cases less with
          | zero => exact hfirst
          | succ less =>
              have hearlier := hnone less (Nat.lt_of_succ_lt_succ hless)
              rwa [Nat.add_assoc, Nat.add_comm 1 less] at hearlier

theorem isLeftmost_of_search {m : Match} (h : pattern.search text = some m) :
    pattern.IsLeftmost text m := by
  obtain ⟨further, hfurther, hmatch, hnone⟩ := searchFrom_eq_some h
  simp only [Nat.zero_add] at hmatch hnone
  obtain ⟨hstart, hstop⟩ := bounds_of_matchAt? hfurther hmatch
  obtain rfl := start_of_matchAt? hmatch
  exact ⟨hmatch, hnone, hstart, hstop⟩

theorem IsLeftmost.search {m : Match} (h : pattern.IsLeftmost text m) :
    pattern.search text = some m := by
  have hin : m.start ≤ text.size := Nat.le_trans h.start_le_stop h.stop_le_size
  cases hsearch : pattern.search text with
  | none =>
      have hnone := searchFrom_eq_none_iff.mp hsearch m.start hin
      rw [Nat.zero_add, h.matches_at] at hnone
      cases hnone
  | some other =>
      have hother := isLeftmost_of_search hsearch
      have hstart : other.start = m.start := by
        rcases Nat.lt_trichotomy other.start m.start with hlt | heq | hlt
        · have hnone := h.earlier other.start hlt
          rw [hother.matches_at] at hnone
          cases hnone
        · exact heq
        · have hnone := hother.earlier m.start hlt
          rw [h.matches_at] at hnone
          cases hnone
      have hmatch := hother.matches_at
      rw [hstart, h.matches_at] at hmatch
      rw [Option.some.inj hmatch]

/-- A search finds the leftmost match. -/
theorem search_eq_some_iff {m : Match} : pattern.search text = some m ↔ pattern.IsLeftmost text m :=
  ⟨isLeftmost_of_search, IsLeftmost.search⟩

theorem isFound_iff {pattern : Pattern} {source : String} :
    pattern.isFound source = true ↔ ∃ m, pattern.IsLeftmost source.toList.toArray m := by
  rw [isFound, Option.isSome_iff_exists]
  simp only [search_eq_some_iff]

/-! ## Replacing one match -/

/-- The text with the expanded template in the place of a match. -/
def rewritten (source : String) (m : Match) (parts : List TemplatePart) : String :=
  String.ofList (source.toList.take m.start ++ Template.expand source.toList.toArray m parts ++
    source.toList.drop m.stop)

theorem slice_zero (cs : List Char) (stop : Nat) :
    Template.slice cs.toArray 0 stop = cs.take stop := by
  simp [Template.slice]

theorem slice_size (cs : List Char) (start : Nat) :
    Template.slice cs.toArray start cs.toArray.size = cs.drop start := by
  rw [Template.slice, Array.toList_extract, List.extract_eq_take_drop, List.size_toArray]
  exact List.take_of_length_le (Nat.le_of_eq List.length_drop)

/-- Replacing one match replaces the leftmost, once the template has been read. -/
theorem IsLeftmost.replace_one {source : String} {m : Match}
    (h : pattern.IsLeftmost source.toList.toArray m) (template : String) :
    pattern.replace template 1 source =
      (Template.parse pattern template).map (rewritten source m) := by
  have hfound : pattern.matchesFrom source.toList.toArray
      (matchLimit 1 source.toList.toArray.size) false 0 = [m] := by
    have hsearch := h.search
    rw [Pattern.search] at hsearch
    rw [show matchLimit 1 source.toList.toArray.size = 1 from rfl, matchesFrom, Nat.sub_zero,
      hsearch]
    rfl
  rw [replace]
  cases Template.parse pattern template with
  | error error => rfl
  | ok parts =>
      rw [ok_bind]
      dsimp only
      rw [hfound, replaceFrom, replaceFrom, slice_zero, slice_size]
      rfl

end Interlinear.Pattern
