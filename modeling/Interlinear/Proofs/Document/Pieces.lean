import Interlinear.Document.Render
import Interlinear.Proofs.Document.Layout
import Interlinear.Proofs.Outcome

/-!
# Translating documents in pieces

A document may be cut in two and each piece translated by itself, where the first piece holds an
even number of markers and the cut does not part the signs of a marker.  Then the markers of the
document are those of the first piece followed by those of the second, and the text around the cut
is prose: the two stretches that meet there are one stretch of the document.

So the segments of the document are those of the pieces, apart from the passage around the cut, and
a document that does not read has the fault of its first piece that does not read.
-/

namespace Interlinear.Document

open Outcome

/-- The stretches before each marker of a text, found from left to right, and the text after the last
marker. -/
inductive MarkedOff : List Char → List (List Char) → List Char → Prop
  | last {cs : List Char} (hfree : ¬ marker.toList <:+: cs) : MarkedOff cs [] cs
  | marked {stretch rest : List Char} {before : List (List Char)} {last : List Char}
      (hfirst : ¬ marker.toList <:+: stretch ++ ['_']) (hrest : MarkedOff rest before last) :
      MarkedOff (stretch ++ marker.toList ++ rest) (stretch :: before) last

theorem exists_markedOff (cs : List Char) : ∃ before last, MarkedOff cs before last := by
  induction hlength : cs.length using Nat.strong_induction_on generalizing cs with
  | h length ih =>
      rcases free_or_marked cs with hfree | ⟨stretch, rest, rfl, hfirst⟩
      · exact ⟨[], cs, .last hfree⟩
      · have hshorter : rest.length < length := by
          rw [← hlength]
          simp [toList_marker]
          omega
        obtain ⟨before, last, hrest⟩ := ih rest.length hshorter rest rfl
        exact ⟨stretch :: before, last, .marked hfirst hrest⟩

theorem MarkedOff.stretches_eq {cs : List Char} {before : List (List Char)} {last : List Char}
    (h : MarkedOff cs before last) : stretches cs = before ++ [last] := by
  induction h with
  | last hfree => exact stretches_eq_of_free hfree
  | marked hfirst _ ih => rw [stretches_marked hfirst, ih, List.cons_append]

theorem MarkedOff.eq {cs : List Char} {before others : List (List Char)} {last after : List Char}
    (h : MarkedOff cs before last) (hother : MarkedOff cs others after) :
    others = before ∧ after = last := by
  have hsame : others ++ [after] = before ++ [last] := hother.stretches_eq.symm.trans h.stretches_eq
  simpa using hsame

/-! ### Markers at a cut -/

/-- The cut stands between the two signs of what would be a marker. -/
def PartsMarker (last rest : List Char) : Prop :=
  last.getLast? = some '_' ∧ rest.head? = some '_'

theorem free_append {cs rest : List Char} (hcs : ¬ marker.toList <:+: cs)
    (hrest : ¬ marker.toList <:+: rest) (hcut : ¬ PartsMarker cs rest) :
    ¬ marker.toList <:+: cs ++ rest := by
  induction cs with
  | nil => exact hrest
  | cons c cs ih =>
      rw [marker_infix_cons_iff, not_or] at hcs
      obtain ⟨hhead, htail⟩ := hcs
      rw [List.cons_append, marker_infix_cons_iff, not_or]
      cases cs with
      | nil =>
          refine ⟨?_, hrest⟩
          rintro ⟨rfl, hnext⟩
          exact hcut ⟨rfl, hnext⟩
      | cons d ds =>
          refine ⟨hhead, ih htail ?_⟩
          rintro ⟨hlast, hnext⟩
          exact hcut ⟨by rwa [List.getLast?_cons_cons], hnext⟩

/-- The stretches that meet at a cut are one. -/
theorem stretches_append_of_free {last rest : List Char} (hlast : ¬ marker.toList <:+: last)
    (hcut : ¬ PartsMarker last rest) :
    ∃ first others, stretches rest = first :: others ∧
      stretches (last ++ rest) = (last ++ first) :: others := by
  rcases free_or_marked rest with hfree | ⟨stretch, after, rfl, hfirst⟩
  · exact ⟨rest, [], stretches_eq_of_free hfree,
      stretches_eq_of_free (free_append hlast hfree hcut)⟩
  · have hsign : ¬ PartsMarker last (stretch ++ ['_']) := by
      -- The stretch and the marker after it begin alike.
      have hhead : (stretch ++ marker.toList ++ after).head? = (stretch ++ ['_']).head? := by
        cases stretch <;> rfl
      rwa [PartsMarker, hhead] at hcut
    have hjoined : ¬ marker.toList <:+: (last ++ stretch) ++ ['_'] := by
      rw [List.append_assoc]
      exact free_append hlast hfirst hsign
    refine ⟨stretch, stretches after, stretches_marked hfirst after, ?_⟩
    rw [← stretches_marked hjoined, List.append_assoc, List.append_assoc, List.append_assoc]

theorem MarkedOff.stretches_append {cs : List Char} {before : List (List Char)} {last : List Char}
    (h : MarkedOff cs before last) {rest : List Char} (hcut : ¬ PartsMarker last rest) :
    ∃ first others, stretches rest = first :: others ∧
      stretches (cs ++ rest) = before ++ (last ++ first) :: others := by
  induction h with
  | last hfree => exact stretches_append_of_free hfree hcut
  | marked hfirst _ ih =>
      obtain ⟨first, others, hrest, happend⟩ := ih hcut
      refine ⟨first, others, hrest, ?_⟩
      rw [List.append_assoc, stretches_marked hfirst, happend, List.cons_append]

/-! ### Segments at a cut -/

/-- Behind an even number of markers reading goes on in prose. -/
theorem exists_readProse_append {before : List (List Char)} (heven : Even before.length) :
    ∃ outcome : Except Gloss.ParseError (List Segment), ∀ rest ≠ [],
      readProse (before ++ rest) = (do
        let segments ← outcome
        let others ← readProse rest
        .ok (segments ++ others)) := by
  induction hlength : before.length using Nat.strong_induction_on generalizing before with
  | h length ih =>
      match before with
      | [] =>
          refine ⟨.ok [], fun rest _ => ?_⟩
          rw [ok_bind, List.nil_append]
          cases readProse rest <;> rfl
      | [prose] => simp at heven
      | prose :: region :: before =>
          have heven : Even before.length := by
            simpa [Nat.even_add_one] using heven
          obtain ⟨outcome, houtcome⟩ := ih before.length (by simp [← hlength]) heven rfl
          refine ⟨do
            let segments ← readRegion region
            let others ← outcome
            .ok (.passthrough (String.ofList prose) :: .passthrough marker ::
              segments ++ .passthrough marker :: others), fun rest hrest => ?_⟩
          have hmore : before ++ rest ≠ [] := by simp [hrest]
          rw [List.cons_append, List.cons_append, readProse, readRegions, houtcome rest hrest]
          · cases readRegion region with
            | error fault => rfl
            | ok segments =>
                cases outcome with
                | error fault => rfl
                | ok others => cases readProse rest <;> simp
          · exact hmore
          · simp

/-- What follows a stretch of prose does not depend on it. -/
theorem exists_readProse_cons (others : List (List Char)) :
    ∃ outcome : Except Gloss.ParseError (List Segment), ∀ prose,
      readProse (prose :: others) =
        outcome.map (.passthrough (String.ofList prose) :: ·) := by
  cases others with
  | nil => exact ⟨.ok [], fun prose => by rw [readProse]; rfl⟩
  | cons region others =>
      refine ⟨(readRegions (region :: others)).map (.passthrough marker :: ·), fun prose => ?_⟩
      rw [readProse]
      · cases readRegions (region :: others) <;> rfl
      · simp

/-- The pieces of a document and the document itself are read alike, apart from the passage around
the cut. -/
theorem exists_parse_append {a b : String} {before : List (List Char)} {last : List Char}
    (h : MarkedOff a.toList before last) (heven : Even before.length)
    (hcut : ¬ PartsMarker last b.toList) :
    ∃ (start finish : Except Gloss.ParseError (List Segment)) (passage next : String),
      parse a = (do
        let segments ← start
        .ok (segments ++ [.passthrough passage])) ∧
      parse b = finish.map (.passthrough next :: ·) ∧
      parse (a ++ b) = (do
        let segments ← start
        let more ← finish
        .ok (segments ++ .passthrough (passage ++ next) :: more)) := by
  obtain ⟨first, others, hrest, happend⟩ := h.stretches_append hcut
  obtain ⟨start, hstart⟩ := exists_readProse_append heven
  obtain ⟨finish, hfinish⟩ := exists_readProse_cons others
  refine ⟨start, finish, String.ofList last, String.ofList first, ?_, ?_, ?_⟩
  · rw [parse, h.stretches_eq, hstart _ (by simp), readProse]
    rfl
  · rw [parse, hrest, hfinish]
  · rw [parse, String.toList_append, happend, hstart _ (by simp), hfinish, String.ofList_append]
    cases start with
    | error fault => rfl
    | ok segments => cases finish <;> rfl

/-! ### Rendering -/

variable {ε : Type} {translate : Gloss → Except ε String} {sources : Bool}

theorem render_append (segments others : List Segment) :
    render translate sources (segments ++ others) = (do
      let text ← render translate sources segments
      let more ← render translate sources others
      .ok (text ++ more)) := by
  induction segments with
  | nil =>
      rw [List.nil_append, render, ok_bind]
      cases render translate sources others <;> simp
  | cons segment segments ih =>
      rw [List.cons_append, render, render, ih]
      cases renderSegment translate sources segment with
      | error e => rfl
      | ok first =>
          cases render translate sources segments with
          | error e => rfl
          | ok text => cases render translate sources others <;> simp [String.append_assoc]

theorem render_passthrough (text : String) (segments : List Segment) :
    render translate sources (.passthrough text :: segments) =
      (render translate sources segments).map (text ++ ·) := by
  rw [render, renderSegment, ok_bind]
  cases render translate sources segments <;> rfl

/-- Two texts are rendered as one where a passage stands around the place at which they meet. -/
theorem render_joined (segments more : List Segment) (passage next : String) :
    render translate sources (segments ++ .passthrough (passage ++ next) :: more) = (do
      let text ← render translate sources (segments ++ [.passthrough passage])
      let others ← render translate sources (.passthrough next :: more)
      .ok (text ++ others)) := by
  rw [render_append, render_append, render_passthrough, render_passthrough, render_passthrough]
  cases render translate sources segments with
  | error e => rfl
  | ok text =>
      cases render translate sources more with
      | error e => rfl
      | ok others => simp [render, Except.map, String.append_assoc]

/-- Where the first piece of a document holds an even number of markers and the cut parts no marker,
the document has the fault of its first piece that does not read, and otherwise it is translated as
its pieces are, one after the other. -/
theorem translate_append (a b : String) :
    ∃ before last, MarkedOff a.toList before last ∧
      (∀ others after, MarkedOff a.toList others after → others = before ∧ after = last) ∧
      (Even before.length → ¬ PartsMarker last b.toList →
        ∀ (ε : Type) (translate : Gloss → Except ε String) (sources : Bool),
          (∀ fault, parse a = .error fault →
            Document.translate translate sources (a ++ b) = .error (.parse fault)) ∧
          (∀ segments fault, parse a = .ok segments → parse b = .error fault →
            Document.translate translate sources (a ++ b) = .error (.parse fault)) ∧
          ∀ segments others, parse a = .ok segments → parse b = .ok others →
            Document.translate translate sources (a ++ b) = (do
              let text ← Document.translate translate sources a
              let more ← Document.translate translate sources b
              .ok (text ++ more))) := by
  obtain ⟨before, last, hmarked⟩ := exists_markedOff a.toList
  refine ⟨before, last, hmarked, fun others after hother => hmarked.eq hother, ?_⟩
  intro heven hcut ε translate sources
  obtain ⟨start, finish, passage, next, ha, hb, hab⟩ := exists_parse_append hmarked heven hcut
  rw [Document.translate, Document.translate, Document.translate, ha, hb, hab]
  cases start with
  | error fault => simp
  | ok segments =>
      cases finish with
      | error fault => simp [Except.map]
      | ok more =>
          refine ⟨by simp, by simp [Except.map], ?_⟩
          intro _ _ _ _
          simp only [ok_bind, mapError_ok, Except.map]
          rw [render_joined]
          cases render translate sources (segments ++ [.passthrough passage]) with
          | error e => rfl
          | ok text => cases render translate sources (.passthrough next :: more) <;> rfl

/-- A closing marker and a sign that belongs to none meet at the cut. -/
theorem translate_append_bears :
    MarkedOff "__bear#PL__".toList ["".toList, "bear#PL".toList] [] ∧
      ¬ PartsMarker [] "_ two __see".toList ∧
      Document.translate (fun _ => (.ok "arth" : Except Empty String)) true
          ("__bear#PL__" ++ "_ two __see") =
        .ok ("__<x-out>arth<x-src>bear#PL</x-src></x-out>___ two " ++
          "__<x-out>arth<x-src>see</x-src></x-out>") := by
  have hregion : MarkedOff "bear#PL__".toList ["bear#PL".toList] [] :=
    @MarkedOff.marked "bear#PL".toList [] [] [] (by decide) (.last (by decide))
  have hmarked : MarkedOff "__bear#PL__".toList ["".toList, "bear#PL".toList] [] :=
    @MarkedOff.marked [] "bear#PL__".toList _ _ (by decide) hregion
  have hcut : ¬ PartsMarker [] "_ two __see".toList := by simp [PartsMarker]
  have hfirst : parse "__bear#PL__" = .ok [.passthrough "", .passthrough marker,
      .glossed (.inflection (.pointer "bear") ["PL"]), .passthrough marker, .passthrough ""] := by
    cbv
  have hsecond : parse "_ two __see" = .ok [.passthrough "_ two ", .passthrough marker,
      .glossed (.pointer "see")] := by
    cbv
  obtain ⟨before, last, -, hunique, happend⟩ := translate_append "__bear#PL__" "_ two __see"
  obtain ⟨rfl, rfl⟩ := hunique _ _ hmarked
  refine ⟨hmarked, hcut, ?_⟩
  obtain ⟨-, -, hpieces⟩ := happend (by decide) hcut Empty (fun _ => .ok "arth") true
  rw [hpieces _ _ hfirst hsecond, Document.translate, Document.translate, hfirst, hsecond]
  cbv

end Interlinear.Document
