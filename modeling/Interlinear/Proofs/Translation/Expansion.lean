import Interlinear.Proofs.Translation.Calls

/-!
# Expansion before evaluation

Which pointers are followed does not depend on the morphology.  So a translation can be cut in two:
the pointers of a gloss are expanded first, with the index alone, and the resulting tree is
evaluated with the morphology alone.

In the tree a pointer that is followed is a node over the expansion of what it refers to, and any
other pointer is a literal.  Which of the two it is depends on the ids of the pointers above it and
on the number of all nodes above it.  A missing lexeme comes before a cycle, and a cycle before the
depth limit.
-/

namespace Interlinear

open Outcome

/-- A gloss in which every pointer stands over what it refers to or has become a literal. -/
inductive Expansion where
  | literal (text : String)
  | pointer (id : String) (referent : Expansion)
  | inflection (stem : Expansion) (names : List String)
  | compound (elements : List Expansion)
  | stray (text : String)

namespace Expansion

mutual
def evaluate (morphology : Morphology) : Expansion → Except TranslationError String
  | literal text => .ok text
  | pointer _ referent => referent.evaluate morphology
  | inflection stem names => do
      let text ← stem.evaluate morphology
      morphology.inflect text names
  | compound [] => .ok ""
  | compound (first :: others) => do
      let text ← first.evaluate morphology
      evaluateOthers morphology text others
  | stray text => .error (.notGloss text)
def evaluateOthers (morphology : Morphology) :
    (joined : String) → List Expansion → Except TranslationError String
  | joined, [] => .ok joined
  | joined, tree :: trees => do
      let text ← tree.evaluate morphology
      let joined ← morphology.join joined text
      evaluateOthers morphology joined trees
end

/-- A tree has a subtree under these pointers, from the root down, and below so many nodes. -/
inductive HasAt : Expansion → (path : List String) → (depth : Nat) → Expansion → Prop
  | root (tree : Expansion) : HasAt tree [] 0 tree
  | referent {tree below : Expansion} {path : List String} {depth : Nat} (id : String)
      (h : HasAt tree path depth below) : HasAt (.pointer id tree) (id :: path) (depth + 1) below
  | stem {tree below : Expansion} {path : List String} {depth : Nat} (names : List String)
      (h : HasAt tree path depth below) : HasAt (.inflection tree names) path (depth + 1) below
  | element {tree below : Expansion} {path : List String} {depth : Nat} {trees : List Expansion}
      (hmem : tree ∈ trees) (h : HasAt tree path depth below) :
      HasAt (.compound trees) path (depth + 1) below

end Expansion

mutual
/-- The expansion of a gloss below the pointers of `path` and at a depth, where pointers from the
depth `limit` on are not followed. -/
inductive Gloss.ExpandsTo (index : Index) (limit : Nat) :
    (path : List String) → (depth : Nat) → Gloss → Expansion → Prop
  | literal {path : List String} {depth : Nat} (text : String) :
      ExpandsTo index limit path depth (.literal text) (.literal text)
  | missing {path : List String} {depth : Nat} {id : String} (hmissing : index.get? id = none) :
      ExpandsTo index limit path depth (.pointer id) (.literal (Diagnostic.missing id))
  | cyclic {path : List String} {depth : Nat} {id : String} {referent : Gloss}
      (hfound : index.get? id = some referent) (hpath : id ∈ path) :
      ExpandsTo index limit path depth (.pointer id) (.literal (Diagnostic.cyclic id))
  | tooDeep {path : List String} {depth : Nat} {id : String} {referent : Gloss}
      (hfound : index.get? id = some referent) (hpath : id ∉ path) (hdepth : limit ≤ depth) :
      ExpandsTo index limit path depth (.pointer id) (.literal (Diagnostic.tooDeep id))
  | followed {path : List String} {depth : Nat} {id : String} {referent : Gloss} {tree : Expansion}
      (hfound : index.get? id = some referent) (hpath : id ∉ path) (hdepth : depth < limit)
      (hreferent : ExpandsTo index limit (path ++ [id]) (depth + 1) referent tree) :
      ExpandsTo index limit path depth (.pointer id) (.pointer id tree)
  | inflection {path : List String} {depth : Nat} {stem : Gloss} {names : List String}
      {tree : Expansion} (hstem : ExpandsTo index limit path (depth + 1) stem tree) :
      ExpandsTo index limit path depth (.inflection stem names) (.inflection tree names)
  | compound {path : List String} {depth : Nat} {elements : List Gloss} {trees : List Expansion}
      (helements : AllExpandTo index limit path (depth + 1) elements trees) :
      ExpandsTo index limit path depth (.compound elements) (.compound trees)
  | stray {path : List String} {depth : Nat} (text : String) :
      ExpandsTo index limit path depth (.stray text) (.stray text)
inductive Gloss.AllExpandTo (index : Index) (limit : Nat) :
    (path : List String) → (depth : Nat) → List Gloss → List Expansion → Prop
  | nil {path : List String} {depth : Nat} : AllExpandTo index limit path depth [] []
  | cons {path : List String} {depth : Nat} {gloss : Gloss} {glosses : List Gloss}
      {tree : Expansion} {trees : List Expansion}
      (hfirst : ExpandsTo index limit path depth gloss tree)
      (hothers : AllExpandTo index limit path depth glosses trees) :
      AllExpandTo index limit path depth (gloss :: glosses) (tree :: trees)
end

theorem Gloss.AllExpandTo.exists_of_mem {index : Index} {limit : Nat} {path : List String}
    {depth : Nat} {glosses : List Gloss} {trees : List Expansion} {tree : Expansion}
    (h : AllExpandTo index limit path depth glosses trees) (hmem : tree ∈ trees) :
    ∃ gloss : Gloss, gloss.ExpandsTo index limit path depth tree := by
  induction trees generalizing glosses with
  | nil => simp at hmem
  | cons other trees ih =>
      cases h with
      | cons hfirst hothers =>
          rcases List.mem_cons.mp hmem with rfl | hmem
          · exact ⟨_, hfirst⟩
          · exact ih hothers hmem

theorem Gloss.ExpandsTo.of_hasAt {index : Index} {limit : Nat} {tree below : Expansion}
    {path : List String} {depth : Nat} (h : tree.HasAt path depth below)
    {above : List String} {level : Nat} {gloss : Gloss}
    (hexpands : gloss.ExpandsTo index limit above level tree) :
    ∃ part : Gloss, part.ExpandsTo index limit (above ++ path) (level + depth) below := by
  induction h generalizing above level gloss with
  | root tree => exact ⟨gloss, by simpa using hexpands⟩
  | referent id _ ih =>
      cases hexpands with
      | followed _ _ _ hreferent =>
          obtain ⟨part, hpart⟩ := ih hreferent
          exact ⟨part, by simpa [Nat.add_assoc, Nat.add_comm 1] using hpart⟩
  | stem names _ ih =>
      cases hexpands with
      | inflection hstem =>
          obtain ⟨part, hpart⟩ := ih hstem
          exact ⟨part, by simpa [Nat.add_assoc, Nat.add_comm 1] using hpart⟩
  | element hmem _ ih =>
      cases hexpands with
      | compound helements =>
          obtain ⟨element, helement⟩ := helements.exists_of_mem hmem
          obtain ⟨part, hpart⟩ := ih helement
          exact ⟨part, by simpa [Nat.add_assoc, Nat.add_comm 1] using hpart⟩

namespace Index

/-- The expansion of a gloss below the pointers of `path` and at a depth.  It ends because every
node raises the depth and no pointer is followed from the limit on. -/
def expand (index : Index) (limit : Nat) (path : List String) (depth : Nat) : Gloss → Expansion
  | .literal text => .literal text
  | .pointer id =>
      match index.get? id with
      | none => .literal (Diagnostic.missing id)
      | some referent =>
          if id ∈ path then .literal (Diagnostic.cyclic id)
          else if limit ≤ depth then .literal (Diagnostic.tooDeep id)
          else .pointer id (index.expand limit (path ++ [id]) (depth + 1) referent)
  | .inflection stem names => .inflection (index.expand limit path (depth + 1) stem) names
  | .compound elements =>
      .compound (elements.map fun element => index.expand limit path (depth + 1) element)
  | .stray text => .stray text
termination_by gloss => (limit - depth, sizeOf gloss)
decreasing_by
  · exact Prod.Lex.left _ _ (by omega)
  · exact Prod.Lex.right' _ (by omega) (by decreasing_tactic)
  · exact Prod.Lex.right' _ (by omega) (by decreasing_tactic)

/-! ### Every gloss has one expansion -/

theorem allExpandTo_map {index : Index} {limit : Nat} {path : List String} {depth : Nat}
    (glosses : List Gloss)
    (h : ∀ gloss ∈ glosses,
      gloss.ExpandsTo index limit path depth (index.expand limit path depth gloss)) :
    Gloss.AllExpandTo index limit path depth glosses
      (glosses.map fun gloss => index.expand limit path depth gloss) := by
  induction glosses with
  | nil => exact .nil
  | cons gloss glosses ih =>
      have hothers := ih fun other hother => h other (List.mem_cons_of_mem gloss hother)
      exact .cons (h gloss (by simp)) hothers

theorem expandsTo_expand (index : Index) (limit : Nat) (path : List String) (depth : Nat)
    (gloss : Gloss) :
    gloss.ExpandsTo index limit path depth (index.expand limit path depth gloss) := by
  induction path, depth, gloss using Index.expand.induct index limit with
  | case1 path depth text =>
      rw [expand]
      exact .literal text
  | case2 path depth id hmissing =>
      rw [expand, hmissing]
      exact .missing hmissing
  | case3 path depth id referent hfound hpath =>
      rw [expand, hfound]
      simp only [hpath, if_true]
      exact .cyclic hfound hpath
  | case4 path depth id referent hfound hpath hdepth =>
      rw [expand, hfound]
      simp only [hpath, hdepth, if_true, if_false]
      exact .tooDeep hfound hpath hdepth
  | case5 path depth id referent hfound hpath hdepth ih =>
      rw [expand, hfound]
      simp only [hpath, hdepth, if_false]
      exact .followed hfound hpath (Nat.lt_of_not_le hdepth) ih
  | case6 path depth stem names ih =>
      rw [expand]
      exact .inflection ih
  | case7 path depth elements ih =>
      rw [expand]
      exact .compound (allExpandTo_map elements ih)
  | case8 path depth text =>
      rw [expand]
      exact .stray text

end Index

namespace Gloss

variable {index : Index} {limit : Nat}

mutual
theorem ExpandsTo.eq_expand {path : List String} {depth : Nat} {gloss : Gloss} {tree : Expansion} :
    gloss.ExpandsTo index limit path depth tree → tree = index.expand limit path depth gloss
  | .literal text => by rw [Index.expand]
  | .missing hmissing => by rw [Index.expand, hmissing]
  | .cyclic hfound hpath => by
      rw [Index.expand, hfound]
      simp only [hpath, if_true]
  | .tooDeep hfound hpath hdepth => by
      rw [Index.expand, hfound]
      simp only [hpath, hdepth, if_true, if_false]
  | .followed hfound hpath hdepth hreferent => by
      rw [Index.expand, hfound, hreferent.eq_expand]
      simp only [hpath, Nat.not_le_of_lt hdepth, if_false]
  | .inflection hstem => by rw [Index.expand, hstem.eq_expand]
  | .compound helements => by rw [Index.expand, helements.eq_map_expand]
  | .stray text => by rw [Index.expand]
theorem AllExpandTo.eq_map_expand {path : List String} {depth : Nat} {glosses : List Gloss}
    {trees : List Expansion} :
    AllExpandTo index limit path depth glosses trees →
      trees = glosses.map fun gloss => index.expand limit path depth gloss
  | .nil => rfl
  | .cons hfirst hothers => by rw [List.map_cons, hfirst.eq_expand, hothers.eq_map_expand]
end

theorem expandsTo_iff_eq_expand {path : List String} {depth : Nat} {gloss : Gloss}
    {tree : Expansion} :
    gloss.ExpandsTo index limit path depth tree ↔ tree = index.expand limit path depth gloss := by
  constructor
  · exact ExpandsTo.eq_expand
  · rintro rfl
    exact Index.expandsTo_expand index limit path depth gloss

end Gloss

namespace Translator

/-! ### Evaluation after expansion -/

theorem evaluateOthers_eq_of_translateAt (translator : Translator) {path : List String}
    {depth : Nat} (expand : Gloss → Expansion) (glosses : List Gloss)
    (h : ∀ gloss ∈ glosses, translator.translateAt path depth gloss =
      (expand gloss).evaluate translator.morphology) (joined : String) :
    Gloss.evaluateOthers translator.morphology (translator.resolve translator.maxDepth path) depth
        joined glosses =
      Expansion.evaluateOthers translator.morphology joined (glosses.map expand) := by
  induction glosses generalizing joined with
  | nil => rw [List.map_nil, Gloss.evaluateOthers, Expansion.evaluateOthers]
  | cons gloss glosses ih =>
      have hgloss := h gloss (by simp)
      have hglosses := ih fun other hother => h other (List.mem_cons_of_mem gloss hother)
      rw [translateAt] at hgloss
      rw [List.map_cons, Gloss.evaluateOthers, Expansion.evaluateOthers, hgloss]
      simp only [hglosses]

theorem translateAt_eq_evaluate_expand (translator : Translator) (path : List String) (depth : Nat)
    (gloss : Gloss) :
    translator.translateAt path depth gloss =
      (translator.index.expand translator.maxDepth path depth gloss).evaluate
        translator.morphology := by
  induction path, depth, gloss using Index.expand.induct translator.index translator.maxDepth with
  | case1 path depth text => rw [translateAt_literal, Index.expand, Expansion.evaluate]
  | case2 path depth id hmissing =>
      rw [translateAt_missing translator hmissing, Index.expand, hmissing, Expansion.evaluate]
  | case3 path depth id referent hfound hpath =>
      rw [translateAt_cyclic translator hfound hpath, Index.expand, hfound]
      simp only [hpath, if_true, Expansion.evaluate]
  | case4 path depth id referent hfound hpath hdepth =>
      rw [translateAt_tooDeep translator hfound hpath hdepth, Index.expand, hfound]
      simp only [hpath, hdepth, if_true, if_false, Expansion.evaluate]
  | case5 path depth id referent hfound hpath hdepth ih =>
      rw [translateAt_followed translator hfound hpath (Nat.lt_of_not_le hdepth), ih, Index.expand,
        hfound]
      simp only [hpath, hdepth, if_false, Expansion.evaluate]
  | case6 path depth stem names ih =>
      rw [translateAt_inflection, ih, Index.expand, Expansion.evaluate]
  | case7 path depth elements ih =>
      rw [Index.expand]
      cases elements with
      | nil => rw [translateAt_compound_nil, List.map_nil, Expansion.evaluate]
      | cons first others =>
          have hfirst := ih first (by simp)
          have hothers := evaluateOthers_eq_of_translateAt translator _ others fun gloss hgloss =>
            ih gloss (List.mem_cons_of_mem first hgloss)
          rw [translateAt] at hfirst ⊢
          rw [List.map_cons, Gloss.evaluate, Expansion.evaluate, hfirst]
          simp only [hothers]
  | case8 path depth text => rw [translateAt_stray, Index.expand, Expansion.evaluate]

/-- A gloss has one expansion, in which pointers are treated by their place in the tree.  It serves
every morphology: the translation is its value. -/
theorem translate_eq_evaluate_expansion (index : Index) (limit : Nat) (hpos : 0 < limit)
    (gloss : Gloss) :
    ∃ tree : Expansion,
      (∀ other, gloss.ExpandsTo index limit [] 0 other ↔ other = tree) ∧
      (∀ path depth below, tree.HasAt path depth below →
        ∃ part : Gloss, part.ExpandsTo index limit path depth below) ∧
      ∀ morphology,
        translate ⟨index, morphology, limit, hpos⟩ gloss = tree.evaluate morphology := by
  refine ⟨index.expand limit [] 0 gloss, fun other => Gloss.expandsTo_iff_eq_expand, ?_, ?_⟩
  · intro path depth below hbelow
    have hexpands := Index.expandsTo_expand index limit [] 0 gloss
    simpa using Gloss.ExpandsTo.of_hasAt hbelow hexpands
  · intro morphology
    exact translateAt_eq_evaluate_expand ⟨index, morphology, limit, hpos⟩ [] 0 gloss

/-- Lexemes of which one is missing, one leads back and one leads on. -/
def thicket : Index :=
  .mk (.mk [("a", .compound [.pointer "b", .pointer "c", .pointer "e"]), ("b", .pointer "a"),
    ("c", .pointer "d"), ("d", .literal "de")])

/-- The cycle closes at the depth limit and still counts as a cycle. -/
def thicketTree : Expansion :=
  .pointer "a" (.compound [.pointer "b" (.literal "(a#CYCLE??)"),
    .pointer "c" (.literal "(d#DEPTH??)"), .literal "(e??)"])

theorem expandsTo_thicketTree : (Gloss.pointer "a").ExpandsTo thicket 3 [] 0 thicketTree := by
  refine .followed rfl (by simp) (by decide) (.compound (.cons ?_ (.cons ?_ (.cons ?_ .nil))))
  · exact .followed rfl (by simp) (by decide) (.cyclic rfl (by simp))
  · exact .followed rfl (by simp) (by decide) (.tooDeep rfl (by simp) (by decide))
  · exact .missing rfl

theorem translate_eq_evaluate_expansion_thicket :
    0 < 3 ∧ ∀ morphology, translate ⟨thicket, morphology, 3, by decide⟩ (.pointer "a") =
      thicketTree.evaluate morphology := by
  obtain ⟨tree, htree, -, hvalue⟩ :=
    translate_eq_evaluate_expansion thicket 3 (by decide) (.pointer "a")
  obtain rfl := (htree _).mp expandsTo_thicketTree
  exact ⟨by decide, hvalue⟩

end Translator

end Interlinear
