import Interlinear.Proofs.Translation.Calls

/-!
# Lexemes reachable through pointers

A lexeme refers to the ids of the pointers in its gloss, and the lexemes reachable from a gloss are
those at the end of a chain of references that starts at one of its pointers.  These notions belong
to the index alone.

A translation stays among them: every pointer that is met is reachable from the gloss that was
translated first, and every lexeme on the path leads to it through references.  So a lexeme that is
met below itself leads to itself.

An index whose lexemes can be ranked, each above the lexemes it refers to, has no lexeme that reaches
itself.  If every rank also exceeds the height of its lexeme's gloss, where the height counts a
pointer with its rank, then the depth of a call is bounded by the height of the first gloss.
-/

namespace Interlinear

mutual
/-- The ids of the pointers in a gloss, from left to right. -/
def Gloss.pointers : Gloss → List String
  | .literal _ => []
  | .pointer id => [id]
  | .inflection stem _ => stem.pointers
  | .compound elements => pointersOfAll elements
  | .stray _ => []
def Gloss.pointersOfAll : List Gloss → List String
  | [] => []
  | gloss :: glosses => gloss.pointers ++ pointersOfAll glosses
end

theorem Gloss.mem_pointersOfAll (id : String) (glosses : List Gloss) :
    id ∈ pointersOfAll glosses ↔ ∃ gloss ∈ glosses, id ∈ gloss.pointers := by
  induction glosses with
  | nil => simp [pointersOfAll]
  | cons gloss glosses ih => simp [pointersOfAll, ih]

mutual
/-- The height of a gloss above its leaves, where a pointer is as high as the rank of its id. -/
def Gloss.heightOver (rank : String → Nat) : Gloss → Nat
  | .literal _ => 0
  | .pointer id => rank id
  | .inflection stem _ => stem.heightOver rank + 1
  | .compound elements => heightOfAll rank elements
  | .stray _ => 0
def Gloss.heightOfAll (rank : String → Nat) : List Gloss → Nat
  | [] => 0
  | gloss :: glosses => max (gloss.heightOver rank + 1) (heightOfAll rank glosses)
end

theorem Gloss.height_lt_heightOfAll (rank : String → Nat) {gloss : Gloss} {glosses : List Gloss}
    (hmem : gloss ∈ glosses) : gloss.heightOver rank < heightOfAll rank glosses := by
  induction glosses with
  | nil => simp at hmem
  | cons other glosses ih =>
      rw [heightOfAll]
      rcases List.mem_cons.mp hmem with rfl | hmem
      · omega
      · have := ih hmem
        omega

mutual
theorem Gloss.rank_le_heightOver (rank : String → Nat) :
    (gloss : Gloss) → ∀ id ∈ gloss.pointers, rank id ≤ gloss.heightOver rank
  | .literal _ => by simp [pointers]
  | .pointer name => by simp [pointers, heightOver]
  | .inflection stem _ => by
      intro id hid
      have hstem := stem.rank_le_heightOver rank id hid
      rw [heightOver]
      omega
  | .compound elements => by
      intro id hid
      rw [heightOver]
      exact rank_le_heightOfAll rank elements id hid
  | .stray _ => by simp [pointers]
theorem Gloss.rank_le_heightOfAll (rank : String → Nat) :
    (glosses : List Gloss) → ∀ id ∈ pointersOfAll glosses, rank id ≤ heightOfAll rank glosses
  | [] => by simp [pointersOfAll]
  | gloss :: glosses => by
      intro id hid
      rw [heightOfAll]
      rcases List.mem_append.mp hid with hid | hid
      · have hgloss := gloss.rank_le_heightOver rank id hid
        omega
      · have hglosses := rank_le_heightOfAll rank glosses id hid
        omega
end

namespace Index

/-- A lexeme with one id has a pointer to another id in its gloss. -/
def Refers (index : Index) (id target : String) : Prop :=
  ∃ gloss, index.get? id = some gloss ∧ target ∈ gloss.pointers

def ReachableFrom (index : Index) (gloss : Gloss) (id : String) : Prop :=
  ∃ start ∈ gloss.pointers, Relation.ReflTransGen index.Refers start id

/-- A lexeme that a chain of references leads back to. -/
def ReachesItself (index : Index) (id : String) : Prop :=
  Relation.TransGen index.Refers id id

/-- Each lexeme ranks above the height of its gloss. -/
def RankedBy (index : Index) (rank : String → Nat) : Prop :=
  ∀ id gloss, index.get? id = some gloss → gloss.heightOver rank < rank id

variable {index : Index} {rank : String → Nat}

theorem RankedBy.lt_of_refers (hranked : index.RankedBy rank) {id target : String}
    (h : index.Refers id target) : rank target < rank id := by
  obtain ⟨gloss, hfound, htarget⟩ := h
  have hheight := gloss.rank_le_heightOver rank target htarget
  have hrank := hranked id gloss hfound
  omega

theorem RankedBy.not_reachesItself (hranked : index.RankedBy rank) (id : String) :
    ¬ index.ReachesItself id := by
  have hlt : ∀ target, Relation.TransGen index.Refers id target → rank target < rank id := by
    intro target h
    induction h with
    | single hrefers => exact hranked.lt_of_refers hrefers
    | tail _ hrefers ih => exact (hranked.lt_of_refers hrefers).trans ih
  exact fun h => Nat.lt_irrefl _ (hlt id h)

end Index

namespace Translator

variable {translator : Translator}

/-- A call is for a part of the gloss at hand, or for the gloss of the lexeme that a pointer names. -/
theorem Calls.part_or_followed {caller callee : Call} (h : translator.Calls caller callee) :
    (callee.path = caller.path ∧ ∀ id ∈ callee.gloss.pointers, id ∈ caller.gloss.pointers) ∨
      ∃ id, caller.gloss = .pointer id ∧ callee.path = caller.path ++ [id] ∧
        translator.index.get? id = some callee.gloss := by
  cases h with
  | followed hfound hpath hdepth => exact .inr ⟨_, rfl, rfl, hfound⟩
  | stem => exact .inl ⟨rfl, fun id hid => hid⟩
  | @first first others path depth =>
      refine .inl ⟨rfl, fun id hid => ?_⟩
      exact (Gloss.mem_pointersOfAll id _).mpr ⟨first, by simp, hid⟩
  | @next first gloss before after joined path depth hjoined =>
      refine .inl ⟨rfl, fun id hid => ?_⟩
      exact (Gloss.mem_pointersOfAll id _).mpr ⟨gloss, by simp, hid⟩

/-- The pointers of a call are reachable from a gloss, and its path leads to them. -/
structure Call.DescendsFrom (index : Index) (start : Gloss) (call : Call) : Prop where
  reachable : ∀ id ∈ call.gloss.pointers, index.ReachableFrom start id
  path_leads : ∀ above ∈ call.path, ∀ id ∈ call.gloss.pointers,
    Relation.TransGen index.Refers above id

theorem Call.descendsFrom_initial (index : Index) (start : Gloss) :
    Call.DescendsFrom index start ⟨start, [], 0⟩ where
  reachable := fun id hid => ⟨id, hid, .refl⟩
  path_leads := by simp

theorem Call.DescendsFrom.step {start : Gloss} {caller callee : Call}
    (hcaller : caller.DescendsFrom translator.index start)
    (h : translator.Calls caller callee) : callee.DescendsFrom translator.index start := by
  rcases h.part_or_followed with ⟨hpath, hpointers⟩ | ⟨id, hgloss, hpath, hfound⟩
  · constructor
    · intro id hid
      exact hcaller.reachable id (hpointers id hid)
    · intro above habove id hid
      rw [hpath] at habove
      exact hcaller.path_leads above habove id (hpointers id hid)
  · have hpointer : id ∈ caller.gloss.pointers := by
      rw [hgloss]
      exact List.mem_singleton.mpr rfl
    constructor
    · intro target htarget
      obtain ⟨first, hfirst, hchain⟩ := hcaller.reachable id hpointer
      exact ⟨first, hfirst, hchain.tail ⟨callee.gloss, hfound, htarget⟩⟩
    · intro above habove target htarget
      have hrefers : translator.index.Refers id target := ⟨callee.gloss, hfound, htarget⟩
      rw [hpath, List.mem_append, List.mem_singleton] at habove
      rcases habove with habove | rfl
      · exact (hcaller.path_leads above habove id hpointer).tail hrefers
      · exact .single hrefers

theorem Call.DescendsFrom.run {start : Gloss} {caller callee : Call}
    (hcaller : caller.DescendsFrom translator.index start)
    (h : translator.Reaches caller callee) : callee.DescendsFrom translator.index start := by
  induction h with
  | refl => exact hcaller
  | tail _ hcalls ih => exact ih.step hcalls

/-- Where no reachable lexeme reaches itself, a pointer that is met is never on its own path. -/
theorem not_mem_path_of_reaches {gloss : Gloss}
    (hacyclic : ∀ id, translator.index.ReachableFrom gloss id → ¬ translator.index.ReachesItself id)
    {id : String} {path : List String} {depth : Nat}
    (h : translator.Reaches ⟨gloss, [], 0⟩ ⟨.pointer id, path, depth⟩) : id ∉ path := by
  intro hmem
  have hdescends := (Call.descendsFrom_initial translator.index gloss).run h
  have hpointer : id ∈ (Gloss.pointer id).pointers := List.mem_singleton.mpr rfl
  exact hacyclic id (hdescends.reachable id hpointer) (hdescends.path_leads id hmem id hpointer)

theorem Calls.heightOver_le {rank : String → Nat} (hranked : translator.index.RankedBy rank)
    {caller callee : Call} (h : translator.Calls caller callee) :
    callee.depth + callee.gloss.heightOver rank ≤ caller.depth + caller.gloss.heightOver rank := by
  cases h with
  | followed hfound hpath hdepth =>
      have hrank := hranked _ _ hfound
      simp only [Gloss.heightOver]
      omega
  | stem =>
      simp only [Gloss.heightOver]
      omega
  | @first first others path depth =>
      have hheight := Gloss.height_lt_heightOfAll rank (List.mem_cons_self (a := first) (l := others))
      simp only [Gloss.heightOver]
      omega
  | @next first gloss before after joined path depth hjoined =>
      have hmem : gloss ∈ first :: (before ++ gloss :: after) := by simp
      have hheight := Gloss.height_lt_heightOfAll rank hmem
      simp only [Gloss.heightOver]
      omega

theorem Reaches.heightOver_le {rank : String → Nat} (hranked : translator.index.RankedBy rank)
    {caller callee : Call} (h : translator.Reaches caller callee) :
    callee.depth + callee.gloss.heightOver rank ≤ caller.depth + caller.gloss.heightOver rank := by
  induction h with
  | refl => exact Nat.le_refl _
  | tail _ hcalls ih => exact (hcalls.heightOver_le hranked).trans ih

/-- On a ranked index, pointers to lexemes are met at depths below the height of the gloss. -/
theorem depth_lt_of_rankedBy {rank : String → Nat} (hranked : translator.index.RankedBy rank)
    {gloss referent : Gloss} {id : String} {path : List String} {depth : Nat}
    (h : translator.Reaches ⟨gloss, [], 0⟩ ⟨.pointer id, path, depth⟩)
    (hfound : translator.index.get? id = some referent) : depth < gloss.heightOver rank := by
  have hheight := Reaches.heightOver_le hranked h
  have hrank := hranked id referent hfound
  simp only [Gloss.heightOver] at hheight
  omega

end Translator

end Interlinear
