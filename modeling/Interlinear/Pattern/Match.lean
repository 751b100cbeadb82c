import Interlinear.Pattern.Parser

/-!
# Matching

A pattern is matched at a place of a text by backtracking.  Every node is given what has to match
after it; it tries its own ways in order and takes the first after which the rest matches.  Captures
are kept with the place, so that going back restores them.

A repetition counts its rounds.  Once it has its least number, a round may only start at a place
where the round before did not start, which bounds the rounds by the least number and the length of
the text. A repetition of one character scans its run and then tries the lengths of the run in
order.

The rounds of a possessive repetition, the bodies of lookarounds and atomic groups are matched once
and not gone back into.
-/

namespace Interlinear.Pattern

/-- A place in a text, with the starts and the ends of groups, latest first. -/
structure Place where
  position : Nat
  starts : List (Nat × Nat)
  ends : List (Nat × Nat)

namespace Place

def start (position : Nat) : Place :=
  ⟨position, [], []⟩

def opened (place : Place) (group : Nat) : Place :=
  { place with starts := (group, place.position) :: place.starts }

def closed (place : Place) (group : Nat) : Place :=
  { place with ends := (group, place.position) :: place.ends }

/-- The bounds of a group that took part. -/
def span? (place : Place) (group : Nat) : Option (Nat × Nat) :=
  match place.starts.lookup group, place.ends.lookup group with
  | some start, some stop => if start ≤ stop then some (start, stop) else none
  | _, _ => none

def moved (place : Place) (count : Nat) : Place :=
  { place with position := place.position + count }

end Place

abbrev Continuation := Place → Option Place

def isWordAt (text : Array Char) (ascii : Bool) (position : Nat) : Bool :=
  match text[position]? with
  | some c => Category.word.holds ascii c.toNat
  | none => false

def Anchor.holds (anchor : Anchor) (text : Array Char) (position : Nat) : Bool :=
  match anchor with
  | textStart => position == 0
  | lineStart => position == 0 || text[position - 1]? == some '\n'
  | textEnd => position == text.size
  | lastEnd =>
      position == text.size || (position + 1 == text.size && text[position]? == some '\n')
  | lineEnd => position == text.size || text[position]? == some '\n'
  | boundary negated ascii =>
      text.size != 0 &&
        ((0 < position && isWordAt text ascii (position - 1)) != isWordAt text ascii position)
          != negated

def testAt (text : Array Char) (test : CharTest) (position : Nat) : Bool :=
  match text[position]? with
  | some c => test.holds c
  | none => false

/-- The length of the run of characters that pass a test, up to a limit. -/
def runLength (text : Array Char) (test : CharTest) : (limit : Nat) → (position : Nat) → Nat
  | 0, _ => 0
  | limit + 1, position =>
      if testAt text test position then runLength text test limit (position + 1) + 1 else 0

/-- Tries lengths from `least + extra` down to `least`. -/
def tryDown (next : Continuation) (place : Place) (least : Nat) : (extra : Nat) → Option Place
  | 0 => next (place.moved least)
  | extra + 1 =>
      match next (place.moved (least + extra + 1)) with
      | some result => some result
      | none => tryDown next place least extra

/-- Tries lengths from `length` up, `extra` further ones. -/
def tryUp (next : Continuation) (place : Place) : (length extra : Nat) → Option Place
  | length, 0 => next (place.moved length)
  | length, extra + 1 =>
      match next (place.moved length) with
      | some result => some result
      | none => tryUp next place (length + 1) extra

/-- Repeats a test of one character. -/
def repeatTest (text : Array Char) (greed : Greed) (least : Nat) (most : Option Nat)
    (test : CharTest) (next : Continuation) (place : Place) : Option Place :=
  let available := text.size - place.position
  let run := runLength text test (min (most.getD available) available) place.position
  if run < least then
    none
  else
    match greed with
    | .greedy => tryDown next place least (run - least)
    | .lazy => tryUp next place least (run - least)
    | .possessive => next (place.moved run)

def mayRepeat (most : Option Nat) (count : Nat) : Bool :=
  match most with
  | some most => count < most
  | none => true

/-- Rounds of a greedy repetition.  `last` is where the latest round beyond the least number began.
-/
def greedyRounds (body : Continuation → Continuation) (least : Nat) (most : Option Nat)
    (next : Continuation) : (fuel : Nat) → (count : Nat) → (last : Option Nat) → Continuation
  | 0, _, _, _ => none
  | fuel + 1, count, last, place =>
      if count < least then
        body (greedyRounds body least most next fuel (count + 1) last) place
      else if mayRepeat most count && last != some place.position then
        match body (greedyRounds body least most next fuel (count + 1) (some place.position))
            place with
        | some result => some result
        | none => next place
      else
        next place

def lazyRounds (body : Continuation → Continuation) (least : Nat) (most : Option Nat)
    (next : Continuation) : (fuel : Nat) → (count : Nat) → (last : Option Nat) → Continuation
  | 0, _, _, _ => none
  | fuel + 1, count, last, place =>
      if count < least then
        body (lazyRounds body least most next fuel (count + 1) last) place
      else
        match next place with
        | some result => some result
        | none =>
            if mayRepeat most count && last != some place.position then
              body (lazyRounds body least most next fuel (count + 1) (some place.position)) place
            else
              none

/-- The place after the rounds of a possessive repetition. -/
def possessiveRounds (body : Continuation) (least : Nat) (most : Option Nat) :
    (fuel : Nat) → (count : Nat) → (last : Option Nat) → Continuation
  | 0, _, _, _ => none
  | fuel + 1, count, last, place =>
      if count < least then
        match body place with
        | some after => possessiveRounds body least most fuel (count + 1) last after
        | none => none
      else if mayRepeat most count && last != some place.position then
        match body place with
        | some after =>
            possessiveRounds body least most fuel (count + 1) (some place.position) after
        | none => some place
      else
        some place

/-- Repeats a body that is matched by `body`. -/
def repeatBody (size : Nat) (greed : Greed) (least : Nat) (most : Option Nat)
    (body : Continuation → Continuation) (next : Continuation) (place : Place) : Option Place :=
  let fuel := least + (size - place.position) + 2
  match greed with
  | .greedy => greedyRounds body least most next fuel 0 none place
  | .lazy => lazyRounds body least most next fuel 0 none place
  | .possessive =>
      match possessiveRounds (body some) least most fuel 0 none place with
      | some after => next after
      | none => none

/-- Compares the captured text with that from the place on, character by character. -/
def sameText (text : Array Char) (folding : Folding) (start position : Nat) :
    (length : Nat) → Bool
  | 0 => true
  | length + 1 =>
      match text[start]?, text[position]? with
      | some a, some b =>
          folding.lower a.toNat == folding.lower b.toNat &&
            sameText text folding (start + 1) (position + 1) length
      | _, _ => false

def Node.matchAt (text : Array Char) : Node → Continuation → Continuation
  | empty, next, place => next place
  | char test, next, place =>
      if testAt text test place.position then next (place.moved 1) else none
  | anchor condition, next, place =>
      if condition.holds text place.position then next place else none
  | reference index folding, next, place =>
      match place.span? index with
      | none => none
      | some (start, stop) =>
          if sameText text folding start place.position (stop - start) then
            next (place.moved (stop - start))
          else
            none
  | seq first second, next, place => first.matchAt text (second.matchAt text next) place
  | either first second, next, place =>
      match first.matchAt text next place with
      | some result => some result
      | none => second.matchAt text next place
  | group index body, next, place =>
      body.matchAt text (fun after => next (after.closed index)) (place.opened index)
  | flagged body, next, place => body.matchAt text next place
  | atomic body, next, place =>
      match body.matchAt text some place with
      | some after => next after
      | none => none
  | ahead negated body, next, place =>
      match body.matchAt text some place, negated with
      | some after, false => next { after with position := place.position }
      | none, true => next place
      | _, _ => none
  | behind width negated body, next, place =>
      if place.position < width.least then
        if negated then next place else none
      else
        match body.matchAt text some { place with position := place.position - width.least },
            negated with
        | some after, false => next { after with position := place.position }
        | none, true => next place
        | _, _ => none
  | conditional index yes no, next, place =>
      if (place.span? index).isSome then yes.matchAt text next place
      else no.matchAt text next place
  | repeated greed least most body, next, place =>
      match body with
      | .char test => repeatTest text greed least most test next place
      | _ => repeatBody text.size greed least most (body.matchAt text) next place

/-- A match: where it begins, and the place where it ends. -/
structure Match where
  start : Nat
  place : Place

def Match.stop (m : Match) : Nat :=
  m.place.position

/-- The match at one place.  With `nonempty`, an empty match does not count. -/
def matchAt? (pattern : Pattern) (text : Array Char) (nonempty : Bool) (position : Nat) :
    Option Match :=
  let accept : Continuation := fun place =>
    if nonempty && place.position == position then none else some place
  (pattern.root.matchAt text accept (.start position)).map (⟨position, ·⟩)

/-- The leftmost match from a place on, `count` places further at most.  With `nonempty`, an empty
match at the first place does not count. -/
def searchFrom (pattern : Pattern) (text : Array Char) :
    (count : Nat) → (nonempty : Bool) → (position : Nat) → Option Match
  | 0, nonempty, position => pattern.matchAt? text nonempty position
  | count + 1, nonempty, position =>
      match pattern.matchAt? text nonempty position with
      | some m => some m
      | none => searchFrom pattern text count false (position + 1)

/-- The leftmost match in a text. -/
def search (pattern : Pattern) (text : Array Char) : Option Match :=
  pattern.searchFrom text text.size false 0

/-- At most `limit` matches from left to right, each from the end of the one before; an empty match
may not stand at that end. -/
def matchesFrom (pattern : Pattern) (text : Array Char) :
    (limit : Nat) → (nonempty : Bool) → (position : Nat) → List Match
  | 0, _, _ => []
  | limit + 1, nonempty, position =>
      match pattern.searchFrom text (text.size - position) nonempty position with
      | none => []
      | some m => m :: matchesFrom pattern text limit (m.stop == m.start) m.stop

end Interlinear.Pattern
