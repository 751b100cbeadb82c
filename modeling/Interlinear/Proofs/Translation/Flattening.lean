import Interlinear.Proofs.Translation.DepthLimit
import Interlinear.Proofs.Translation.Plain

/-!
# Flattening glosses

Inflections of an inflection can be one inflection, an inflection without names is its stem, a
compound of one element is that element, and a compound that begins with a compound can be one
compound.  None of this changes a translation: names apply from left to right, and elements are
joined from left to right, so that the same texts are inflected and joined in the same order.  The
inner compound has to be the first element, since boundary rules look at the whole text joined so
far, and it must not be empty, since its text is joined to the next one.

What does change is the depth at which pointers are met, which can only fall.  So pointers are first
taken to have one translation at all depths.  They have it if the limit leaves room: as many lexemes
as are not on the path can still be followed, and each takes at most one level more than the height
of the tallest.  Then a pointer is followed whether it is met at a greater depth or at a smaller one,
and by induction on the number of these lexemes its lexeme, flattened or not, has one translation.
-/

namespace Interlinear

open Outcome

theorem Morphology.inflect_append (morphology : Morphology) (text : String)
    (names others : List String) :
    morphology.inflect text (names ++ others) =
      morphology.inflect text names >>= fun text => morphology.inflect text others := by
  simp only [← foldlM_inflectOnce, List.foldlM_append]

namespace Gloss

/-- One nested form of a gloss is made flat, at any place in it. -/
inductive Flattens : Gloss → Gloss → Prop
  | nested {stem : Gloss} {inner outer : List String} :
      Flattens (.inflection (.inflection stem inner) outer) (.inflection stem (inner ++ outer))
  | unnamed {stem : Gloss} : Flattens (.inflection stem []) stem
  | single {element : Gloss} : Flattens (.compound [element]) element
  | leading {first : Gloss} {inner outer : List Gloss} :
      Flattens (.compound (.compound (first :: inner) :: outer))
        (.compound (first :: (inner ++ outer)))
  | inStem {stem flat : Gloss} {names : List String} (hstem : Flattens stem flat) :
      Flattens (.inflection stem names) (.inflection flat names)
  | inElement {element flat : Gloss} {before after : List Gloss} (helement : Flattens element flat) :
      Flattens (.compound (before ++ element :: after)) (.compound (before ++ flat :: after))

def FlattensTo : Gloss → Gloss → Prop :=
  Relation.ReflTransGen Flattens

/-! ### Heights -/

theorem heightOfAll_append (rank : String → Nat) (before after : List Gloss) :
    heightOfAll rank (before ++ after) =
      max (heightOfAll rank before) (heightOfAll rank after) := by
  induction before with
  | nil => simp [heightOfAll]
  | cons gloss before ih => rw [List.cons_append, heightOfAll, heightOfAll, ih, max_assoc]

theorem Flattens.heightOver_le {gloss flat : Gloss} (h : gloss.Flattens flat)
    (rank : String → Nat) : flat.heightOver rank ≤ gloss.heightOver rank := by
  induction h with
  | nested =>
      simp only [heightOver]
      omega
  | unnamed =>
      simp only [heightOver]
      omega
  | single =>
      simp only [heightOver, heightOfAll]
      omega
  | leading =>
      simp only [heightOver, heightOfAll, heightOfAll_append]
      omega
  | inStem _ ih =>
      simp only [heightOver]
      omega
  | inElement _ ih =>
      simp only [heightOver, heightOfAll, heightOfAll_append]
      omega

theorem FlattensTo.height_le {gloss flat : Gloss} (h : gloss.FlattensTo flat) :
    flat.height ≤ gloss.height := by
  induction h with
  | refl => exact Nat.le_refl _
  | tail _ hstep ih => exact (hstep.heightOver_le fun _ => 0).trans ih

/-! ### Pointers with one translation at all depths -/

variable (morphology : Morphology)

mutual
/-- If pointers translate alike at all depths of a gloss, the depth plays no part. -/
theorem evaluate_uniform {resolve : Nat → String → Except TranslationError String}
    {uniform : String → Except TranslationError String} :
    (gloss : Gloss) → (depth other : Nat) →
    (∀ level ≤ gloss.height, ∀ id, resolve (depth + level) id = uniform id) →
    gloss.evaluate morphology resolve depth = gloss.evaluate morphology (fun _ => uniform) other
  | literal _, _, _, _ => by rw [evaluate, evaluate]
  | pointer id, depth, other, h => by
      rw [evaluate, evaluate]
      exact h 0 (Nat.zero_le _) id
  | inflection stem names, depth, other, h => by
      have hstem := evaluate_uniform stem (depth + 1) (other + 1) fun level hlevel id => by
        rw [Nat.add_assoc, Nat.add_comm 1 level]
        exact h (level + 1) (Nat.succ_le_succ hlevel) id
      rw [evaluate, evaluate, hstem]
  | compound [], _, _, _ => by rw [evaluate, evaluate]
  | compound (first :: others), depth, other, h => by
      have hlevels : ∀ level < heightOfAll (fun _ => 0) (first :: others), ∀ id,
          resolve (depth + 1 + level) id = uniform id := by
        intro level hlevel id
        rw [Nat.add_assoc, Nat.add_comm 1 level]
        exact h (level + 1) hlevel id
      rw [heightOfAll] at hlevels
      have hfirst := evaluate_uniform first (depth + 1) (other + 1) fun level hlevel =>
        hlevels level (lt_max_of_lt_left (Nat.lt_succ_of_le hlevel))
      have hothers := evaluateOthers_uniform others (depth + 1) (other + 1) fun level hlevel =>
        hlevels level (lt_max_of_lt_right hlevel)
      rw [evaluate, evaluate, hfirst]
      simp only [hothers]
  | stray _, _, _, _ => by rw [evaluate, evaluate]
theorem evaluateOthers_uniform {resolve : Nat → String → Except TranslationError String}
    {uniform : String → Except TranslationError String} :
    (glosses : List Gloss) → (depth other : Nat) →
    (∀ level < heightOfAll (fun _ => 0) glosses, ∀ id, resolve (depth + level) id = uniform id) →
    ∀ joined, evaluateOthers morphology resolve depth joined glosses =
      evaluateOthers morphology (fun _ => uniform) other joined glosses
  | [], _, _, _, joined => by rw [evaluateOthers, evaluateOthers]
  | gloss :: glosses, depth, other, h, joined => by
      rw [heightOfAll] at h
      have hgloss := evaluate_uniform gloss depth other fun level hlevel =>
        h level (lt_max_of_lt_left (Nat.lt_succ_of_le hlevel))
      have hglosses := evaluateOthers_uniform glosses depth other fun level hlevel =>
        h level (lt_max_of_lt_right hlevel)
      rw [evaluateOthers, evaluateOthers, hgloss]
      simp only [hglosses]
end

variable (uniform : String → Except TranslationError String)

theorem evaluate_depth (gloss : Gloss) (depth other : Nat) :
    gloss.evaluate morphology (fun _ => uniform) depth =
      gloss.evaluate morphology (fun _ => uniform) other :=
  evaluate_uniform morphology gloss depth other fun _ _ _ => rfl

theorem evaluateOthers_depth (glosses : List Gloss) (depth other : Nat) (joined : String) :
    evaluateOthers morphology (fun _ => uniform) depth joined glosses =
      evaluateOthers morphology (fun _ => uniform) other joined glosses :=
  evaluateOthers_uniform morphology glosses depth other (fun _ _ _ => rfl) joined

theorem Flattens.evaluate_eq {gloss flat : Gloss} (h : gloss.Flattens flat) (depth : Nat) :
    gloss.evaluate morphology (fun _ => uniform) depth =
      flat.evaluate morphology (fun _ => uniform) depth := by
  induction h generalizing depth with
  | @nested stem inner outer =>
      rw [evaluate, evaluate, evaluate,
        evaluate_depth morphology uniform stem (depth + 1 + 1) (depth + 1), bind_assoc]
      simp only [Morphology.inflect_append]
  | @unnamed stem =>
      rw [evaluate, evaluate_depth morphology uniform stem (depth + 1) depth]
      exact bind_pure _
  | @single element =>
      rw [evaluate, evaluate_depth morphology uniform element (depth + 1) depth]
      simp only [evaluateOthers]
      exact bind_pure _
  | @leading first inner outer =>
      rw [evaluate, evaluate, evaluate,
        evaluate_depth morphology uniform first (depth + 1 + 1) (depth + 1), bind_assoc]
      simp only [evaluateOthers_append,
        evaluateOthers_depth morphology uniform inner (depth + 1 + 1) (depth + 1)]
  | inStem _ ih => rw [evaluate, evaluate, ih]
  | @inElement element flat before after _ ih =>
      cases before with
      | nil => rw [List.nil_append, List.nil_append, evaluate, evaluate, ih]
      | cons first before =>
          rw [List.cons_append, List.cons_append, evaluate, evaluate]
          simp only [evaluateOthers_append, evaluateOthers, ih]

theorem FlattensTo.evaluate_eq {gloss flat : Gloss} (h : gloss.FlattensTo flat) (depth : Nat) :
    gloss.evaluate morphology (fun _ => uniform) depth =
      flat.evaluate morphology (fun _ => uniform) depth := by
  induction h with
  | refl => rfl
  | tail _ hstep ih => exact ih.trans (hstep.evaluate_eq morphology uniform depth)

/-- Where pointers translate alike at all depths that are met, a gloss and a flattening of it
translate alike. -/
theorem FlattensTo.evaluate_eq_of_uniform {gloss flat : Gloss} (h : gloss.FlattensTo flat)
    {resolve other : Nat → String → Except TranslationError String} {depth otherDepth : Nat}
    (hresolve : ∀ level ≤ gloss.height, ∀ id, resolve (depth + level) id = uniform id)
    (hother : ∀ level ≤ gloss.height, ∀ id, other (otherDepth + level) id = uniform id) :
    gloss.evaluate morphology resolve depth = flat.evaluate morphology other otherDepth :=
  calc gloss.evaluate morphology resolve depth
    _ = gloss.evaluate morphology (fun _ => uniform) 0 :=
        evaluate_uniform morphology gloss depth 0 hresolve
    _ = flat.evaluate morphology (fun _ => uniform) 0 := h.evaluate_eq morphology uniform 0
    _ = flat.evaluate morphology other otherDepth := by
        refine (evaluate_uniform morphology flat otherDepth 0 fun level hlevel => ?_).symm
        exact hother level (hlevel.trans h.height_le)

end Gloss

/-- Each lexeme of an index is a flattening of the lexeme with the same id. -/
def Index.FlattensTo (index other : Index) : Prop :=
  ∀ id, Option.Rel Gloss.FlattensTo (index.get? id) (other.get? id)

theorem Index.flattensTo_of_entries {index other : Index}
    (h : List.Forall₂ (fun entry flat => entry.1 = flat.1 ∧ entry.2.FlattensTo flat.2)
      index.glosses.entries other.glosses.entries) : index.FlattensTo other :=
  fun id => lookup_rel h id

namespace Translator

variable {translator other : Translator}

theorem translateAt_pointer (translator : Translator) (path : List String) (depth : Nat)
    (id : String) : translator.translateAt path depth (.pointer id) =
      translator.resolve translator.maxDepth path depth id := by
  rw [translateAt, Gloss.evaluate]

/-- From a depth on, as many lexemes can be followed one below the other. -/
def HasRoom (translator : Translator) (tallest lexemes depth : Nat) : Prop :=
  depth + lexemes * (tallest + 1) ≤ translator.maxDepth

theorem HasRoom.of_le {tallest lexemes depth below : Nat}
    (h : translator.HasRoom tallest lexemes depth) (hbelow : below ≤ depth) :
    translator.HasRoom tallest lexemes below :=
  (Nat.add_le_add_right hbelow _).trans h

theorem HasRoom.depth_lt {tallest lexemes depth : Nat}
    (h : translator.HasRoom tallest (lexemes + 1) depth) : depth < translator.maxDepth := by
  unfold HasRoom at h
  rw [Nat.succ_mul] at h
  omega

theorem HasRoom.follow {tallest lexemes depth height : Nat}
    (h : translator.HasRoom tallest (lexemes + 1) depth) (hheight : height ≤ tallest) :
    translator.HasRoom tallest lexemes (depth + 1 + height) := by
  unfold HasRoom at h ⊢
  rw [Nat.succ_mul] at h
  omega

/-- Pointers below a path translate alike at all depths from which there is room. -/
def AgreesOnPointers (translator other : Translator) (tallest lexemes : Nat)
    (path : List String) : Prop :=
  ∀ depth otherDepth, translator.HasRoom tallest lexemes depth →
    other.HasRoom tallest lexemes otherDepth → ∀ id,
      translator.translateAt path depth (.pointer id) =
        other.translateAt path otherDepth (.pointer id)

theorem AgreesOnPointers.translateAt_eq {tallest lexemes : Nat} {path : List String}
    (h : translator.AgreesOnPointers other tallest lexemes path)
    (hmorphology : translator.morphology = other.morphology) {gloss flat : Gloss}
    (hgloss : gloss.FlattensTo flat) {depth otherDepth : Nat}
    (hroom : translator.HasRoom tallest lexemes (depth + gloss.height))
    (hotherRoom : other.HasRoom tallest lexemes (otherDepth + gloss.height)) :
    translator.translateAt path depth gloss = other.translateAt path otherDepth flat := by
  have hstart := hroom.of_le (Nat.le_add_right depth gloss.height)
  have hotherStart := hotherRoom.of_le (Nat.le_add_right otherDepth gloss.height)
  rw [translateAt, translateAt, ← hmorphology]
  refine hgloss.evaluate_eq_of_uniform translator.morphology
    (fun id => translator.translateAt path depth (.pointer id)) ?_ ?_
  · intro level hlevel id
    have hlower := hroom.of_le (Nat.add_le_add_left hlevel depth)
    rw [← translateAt_pointer, h _ _ hlower hotherStart, h _ _ hstart hotherStart]
  · intro level hlevel id
    have hlower := hotherRoom.of_le (Nat.add_le_add_left hlevel otherDepth)
    rw [← translateAt_pointer, h _ _ hstart hlower]

theorem agreesOnPointers_of_flattensTo (hmorphology : translator.morphology = other.morphology)
    (hindex : translator.index.FlattensTo other.index) {tallest : Nat}
    (htallest : ∀ id gloss, translator.index.get? id = some gloss → gloss.height ≤ tallest)
    {lexemes : Nat} {path : List String} (hpath : translator.index.IsPath path)
    (hlexemes : translator.index.size = path.length + lexemes) :
    translator.AgreesOnPointers other tallest lexemes path := by
  induction lexemes using Nat.strong_induction_on generalizing path with
  | h lexemes ih =>
      intro depth otherDepth hroom hotherRoom id
      have hid := hindex id
      generalize hfound : translator.index.get? id = found at hid
      generalize hflat : other.index.get? id = otherFound at hid
      cases hid with
      | none => rw [translateAt_missing _ hfound, translateAt_missing _ hflat]
      | @some gloss flat hgloss =>
          by_cases hmem : id ∈ path
          · rw [translateAt_cyclic _ hfound hmem, translateAt_cyclic _ hflat hmem]
          · -- A lexeme that is not on the path is one of those that can still be followed.
            have hlonger : translator.index.IsPath (path ++ [id]) :=
              hpath.concat (by simp [hfound]) hmem
            have hlength := hlonger.length_le_size
            rw [hlexemes, List.length_append, List.length_singleton] at hlength
            obtain ⟨rest, rfl⟩ : ∃ rest, lexemes = rest + 1 := ⟨lexemes - 1, by omega⟩
            have hrest : translator.index.size = (path ++ [id]).length + rest := by
              rw [hlexemes, List.length_append, List.length_singleton]
              omega
            have hheight := htallest id gloss hfound
            rw [translateAt_followed _ hfound hmem hroom.depth_lt,
              translateAt_followed _ hflat hmem hotherRoom.depth_lt]
            exact (ih rest (Nat.lt_succ_self rest) hlonger hrest).translateAt_eq hmorphology hgloss
              (hroom.follow hheight) (hotherRoom.follow hheight)

/-- If no lexeme is taller than `tallest`, then flattening a gloss and the lexemes of an index leaves
the translation as it is, with every limit from the height of the gloss and one level more than
`tallest` for each entry on. -/
theorem translate_eq_of_flattensTo (index otherIndex : Index) (morphology : Morphology)
    (gloss flat : Gloss) (tallest : Nat) (limit : Int) (hindex : index.FlattensTo otherIndex)
    (hgloss : gloss.FlattensTo flat)
    (htallest : ∀ id referent, index.get? id = some referent → referent.height ≤ tallest)
    (hlimit : ((gloss.height + index.size * (tallest + 1) : Nat) : Int) ≤ limit) :
    (make index morphology limit).map (fun translator => translator.translate gloss) =
      (make otherIndex morphology limit).map (fun translator => translator.translate flat) := by
  apply map_make_congr
  intro hpos
  have hagrees : AgreesOnPointers ⟨index, morphology, limit.toNat, hpos⟩
      ⟨otherIndex, morphology, limit.toNat, hpos⟩ tallest index.size [] := by
    apply agreesOnPointers_of_flattensTo
    · rfl
    · exact hindex
    · exact htallest
    · exact Index.isPath_nil index
    · exact (Nat.zero_add index.size).symm
  have hroom : 0 + gloss.height + index.size * (tallest + 1) ≤ limit.toNat := by
    rw [Nat.zero_add, Int.le_toNat (by omega)]
    exact hlimit
  exact hagrees.translateAt_eq rfl hgloss hroom hroom

/-- Two lexemes that refer to each other, with nested forms in both. -/
def nestedSeesaw : Index :=
  .mk (.mk [("a", .compound [.compound [.pointer "b", .literal "x"], .literal "z"]),
    ("b", .inflection (.inflection (.compound [.literal "y", .pointer "a"]) ["CAP"]) [])])

def flatSeesaw : Index :=
  .mk (.mk [("a", .compound [.pointer "b", .literal "x", .literal "z"]),
    ("b", .inflection (.compound [.literal "y", .pointer "a"]) ["CAP"])])

theorem nestedSeesaw_flattensTo : nestedSeesaw.FlattensTo flatSeesaw :=
  Index.flattensTo_of_entries
    (.cons ⟨rfl, .single .leading⟩ (.cons ⟨rfl, .single .unnamed⟩ .nil))

theorem nestedSeesaw_height_le (id : String) (referent : Gloss)
    (hfound : nestedSeesaw.get? id = some referent) : referent.height ≤ 3 := by
  have hentries : ∀ entry ∈ nestedSeesaw.glosses.entries, entry.2.height ≤ 3 := by decide +kernel
  exact hentries (id, referent) (mem_of_lookup hfound)

theorem translate_eq_of_flattensTo_seesaw :
    (make nestedSeesaw ⟨⟨[("CAP", .capitalize)]⟩, []⟩ 9).map
        (fun translator => translator.translate (.compound [.pointer "a"])) =
      .ok (.ok "Y(a#CYCLE??)xz") ∧
    (make nestedSeesaw ⟨⟨[("CAP", .capitalize)]⟩, []⟩ 9).map
        (fun translator => translator.translate (.compound [.pointer "a"])) =
      (make flatSeesaw ⟨⟨[("CAP", .capitalize)]⟩, []⟩ 9).map
        (fun translator => translator.translate (.pointer "a")) := by
  constructor
  · cbv
  · exact translate_eq_of_flattensTo nestedSeesaw flatSeesaw _ _ _ 3 9 nestedSeesaw_flattensTo
      (.single .single) nestedSeesaw_height_le (by decide +kernel)

end Translator

end Interlinear
