import Interlinear.Proofs.Translation.Reachability

/-!
# What a translation depends on

A translation looks up the lexemes that are reachable from its gloss and the inflection names that
occur in the gloss or in one of these lexemes, and nothing else.  So two indexes that agree on these
lexemes and two morphologies that agree on these names and on the boundaries of compounds give the
same outcome.  A lexeme or a rule that has nothing to do with a word cannot change it.

The invariant is inherited: what is reachable from the gloss of a call, and the names that occur
there, are reachable and occur for the caller.  Both translations then make the same calls, with the
same paths and depths, and stop at the same pointers.
-/

namespace Interlinear

open Outcome

mutual
def Gloss.names : Gloss → List String
  | .literal _ => []
  | .pointer _ => []
  | .inflection stem names => stem.names ++ names
  | .compound elements => namesOfAll elements
  | .stray _ => []
def Gloss.namesOfAll : List Gloss → List String
  | [] => []
  | gloss :: glosses => gloss.names ++ namesOfAll glosses
end

theorem Gloss.mem_namesOfAll (name : String) (glosses : List Gloss) :
    name ∈ namesOfAll glosses ↔ ∃ gloss ∈ glosses, name ∈ gloss.names := by
  induction glosses with
  | nil => simp [namesOfAll]
  | cons gloss glosses ih => simp [namesOfAll, ih]

/-- The name stands in the gloss or in a lexeme that is reachable from it. -/
def Index.NameOccurs (index : Index) (gloss : Gloss) (name : String) : Prop :=
  name ∈ gloss.names ∨
    ∃ id referent, index.ReachableFrom gloss id ∧ index.get? id = some referent ∧
      name ∈ referent.names

theorem Morphology.inflect_congr {morphology other : Morphology} {names : List String}
    (h : ∀ name ∈ names, morphology.inflector? name = other.inflector? name) (text : String) :
    morphology.inflect text names = other.inflect text names := by
  induction names generalizing text with
  | nil => rfl
  | cons name names ih =>
      obtain ⟨hname, hnames⟩ := List.forall_mem_cons.mp h
      rw [inflect, inflect, ← hname]
      cases morphology.inflector? name with
      | none => exact ih hnames _
      | some rule =>
          dsimp only
          cases rule.apply text with
          | error error => rfl
          | ok changed => exact ih hnames _

/-- What holds of the pointers of a gloss and passes from lexemes to those they refer to holds of all
that is reachable. -/
theorem Index.ReachableFrom.of_closed {index : Index} {gloss : Gloss} {P : String → Prop}
    (hgloss : ∀ id ∈ gloss.pointers, P id)
    (hlexeme : ∀ id referent, P id → index.get? id = some referent →
      ∀ target ∈ referent.pointers, P target)
    {id : String} (h : index.ReachableFrom gloss id) : P id := by
  obtain ⟨start, hstart, hchain⟩ := h
  induction hchain with
  | refl => exact hgloss start hstart
  | tail _ hrefers ih =>
      obtain ⟨referent, hfound, htarget⟩ := hrefers
      exact hlexeme _ referent ih hfound _ htarget

namespace Translator

variable {translator other : Translator}

theorem Calls.reachableFrom {caller callee : Call} (h : translator.Calls caller callee) {id : String}
    (hid : translator.index.ReachableFrom callee.gloss id) :
    translator.index.ReachableFrom caller.gloss id := by
  obtain ⟨start, hstart, hchain⟩ := hid
  rcases h.part_or_followed with ⟨-, hpointers⟩ | ⟨target, hgloss, -, hfound⟩
  · exact ⟨start, hpointers start hstart, hchain⟩
  · have hrefers : translator.index.Refers target start := ⟨callee.gloss, hfound, hstart⟩
    refine ⟨target, ?_, .head hrefers hchain⟩
    rw [hgloss]
    exact List.mem_singleton.mpr rfl

theorem Calls.nameOccurs {caller callee : Call} (h : translator.Calls caller callee) {name : String}
    (hname : translator.index.NameOccurs callee.gloss name) :
    translator.index.NameOccurs caller.gloss name := by
  rcases hname with hname | ⟨id, referent, hid, hfound, hname⟩
  · cases h with
    | @followed id gloss path depth hfound hpath hdepth =>
        exact .inr ⟨id, gloss, ⟨id, List.mem_singleton.mpr rfl, .refl⟩, hfound, hname⟩
    | stem => exact .inl (List.mem_append_left _ hname)
    | @first first others path depth =>
        exact .inl ((Gloss.mem_namesOfAll name _).mpr ⟨first, by simp, hname⟩)
    | @next first gloss before after joined path depth hjoined =>
        exact .inl ((Gloss.mem_namesOfAll name _).mpr ⟨gloss, by simp, hname⟩)
  · exact .inr ⟨id, referent, h.reachableFrom hid, hfound, hname⟩

structure AgreesBelow (translator other : Translator) (gloss : Gloss) : Prop where
  lexemes : ∀ id, translator.index.ReachableFrom gloss id →
    translator.index.get? id = other.index.get? id
  rules : ∀ name, translator.index.NameOccurs gloss name →
    translator.morphology.inflector? name = other.morphology.inflector? name

theorem AgreesBelow.callee {caller callee : Call}
    (hcaller : translator.AgreesBelow other caller.gloss) (h : translator.Calls caller callee) :
    translator.AgreesBelow other callee.gloss where
  lexemes := fun id hid => hcaller.lexemes id (h.reachableFrom hid)
  rules := fun name hname => hcaller.rules name (h.nameOccurs hname)

theorem AgreesBelow.translateAt_eq (call : Call) (h : translator.AgreesBelow other call.gloss)
    (hboundaries : translator.morphology.boundaries = other.morphology.boundaries)
    (hlimit : translator.maxDepth = other.maxDepth) :
    translator.translateAt call.path call.depth call.gloss =
      other.translateAt call.path call.depth call.gloss := by
  have hjoin : translator.morphology.join = other.morphology.join := by
    funext left right
    rw [Morphology.join, Morphology.join, hboundaries]
  -- The other translation makes the same calls, at the same paths and depths.
  refine translateAt_eq_of_related translator hjoin
    (fun call path depth =>
      translator.AgreesBelow other call.gloss ∧ call.path = path ∧ call.depth = depth)
    ?_ ?_ ?_ call ⟨h, rfl, rfl⟩
  · rintro gloss part path _ depth _ ⟨hagrees, rfl, rfl⟩ hcalls
    exact ⟨hagrees.callee hcalls, rfl, rfl⟩
  · rintro stem names path _ depth _ ⟨hagrees, -, -⟩
    refine Morphology.inflect_congr fun name hname => ?_
    exact hagrees.rules name (.inl (List.mem_append_right stem.names hname))
  · rintro id path _ depth _ ⟨hagrees, rfl, rfl⟩ hbelow
    have hfind := hagrees.lexemes id ⟨id, List.mem_singleton.mpr rfl, .refl⟩
    refine translateAt_pointer_congr translator hfind (fun _ _ => by rw [hlimit]) ?_
    intro referent hcalls
    exact hbelow hcalls ⟨hagrees.callee hcalls, rfl, rfl⟩

/-- Lexemes that are not reachable from a gloss and names that do not occur below it have no
influence on its translation, whatever the depth limit. -/
theorem translate_eq_of_agree (index otherIndex : Index) (morphology otherMorphology : Morphology)
    (gloss : Gloss) (limit : Int)
    (hboundaries : morphology.boundaries = otherMorphology.boundaries)
    (hlexemes : ∀ id, index.ReachableFrom gloss id → index.get? id = otherIndex.get? id)
    (hrules : ∀ name, index.NameOccurs gloss name →
      morphology.inflector? name = otherMorphology.inflector? name) :
    (make index morphology limit).map (fun translator => translator.translate gloss) =
      (make otherIndex otherMorphology limit).map (fun translator => translator.translate gloss) := by
  apply map_make_congr
  intro hpos
  have hagrees : AgreesBelow ⟨index, morphology, limit.toNat, hpos⟩
      ⟨otherIndex, otherMorphology, limit.toNat, hpos⟩ gloss := ⟨hlexemes, hrules⟩
  exact hagrees.translateAt_eq ⟨gloss, [], 0⟩ hboundaries rfl

def loneBear : Index :=
  .mk (.mk [("bear", .compound [.literal "arth", .pointer "bear"])])

/-- The same lexeme among others, which have nothing to do with it. -/
def crowdedBear : Index :=
  .mk (.mk [("stone", .inflection (.pointer "bear") ["NEG"]),
    ("bear", .compound [.literal "arth", .pointer "bear"])])

theorem loneBear_reachable {id : String}
    (h : loneBear.ReachableFrom (.inflection (.pointer "bear") ["PL"]) id) : id = "bear" := by
  refine h.of_closed (P := fun id => id = "bear") ?_ ?_
  · intro id hid
    exact List.mem_singleton.mp hid
  · rintro _ referent rfl hfound target htarget
    obtain rfl := Option.some.inj hfound
    exact List.mem_singleton.mp htarget

theorem translate_eq_of_agree_bear :
    (make loneBear ⟨⟨[("PL", .capitalize)]⟩, []⟩ 3).map
        (fun translator => translator.translate (.inflection (.pointer "bear") ["PL"])) =
      .ok (.ok "Arth(bear#CYCLE??)") ∧
    (make loneBear ⟨⟨[("PL", .capitalize)]⟩, []⟩ 3).map
        (fun translator => translator.translate (.inflection (.pointer "bear") ["PL"])) =
      (make crowdedBear ⟨⟨[("NEG", .first []), ("PL", .capitalize)]⟩, []⟩ 3).map
        (fun translator => translator.translate (.inflection (.pointer "bear") ["PL"])) := by
  constructor
  · cbv
  · refine translate_eq_of_agree loneBear crowdedBear _ _ _ 3 rfl ?_ ?_
    · intro id hid
      obtain rfl := loneBear_reachable hid
      rfl
    · intro name hname
      have hplural : name = "PL" := by
        rcases hname with hname | ⟨id, referent, hid, hfound, hname⟩
        · exact List.mem_singleton.mp hname
        · obtain rfl := loneBear_reachable hid
          obtain rfl := Option.some.inj hfound
          simp [Gloss.names, Gloss.namesOfAll] at hname
      subst hplural
      rfl

end Translator

end Interlinear
