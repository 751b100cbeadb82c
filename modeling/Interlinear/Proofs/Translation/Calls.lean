import Interlinear.Proofs.Outcome
import Interlinear.Translation.Translator
import Mathlib

/-!
# The calls of a translation

A translation calls itself for the glosses below the one at hand: for the gloss of a lexeme whose
pointer is followed, for the stem of an inflection, for the first element of a compound, and for a
further element once the elements before it have been joined.  Each call carries the lexemes that
are being translated and a depth.

The hops that bound the recursion never run out before the depth limit is met, so that a call is
described by its gloss, its path and its depth alone, and its outcome satisfies one equation for
each kind of gloss.  Every call raises the depth, and a pointer is followed below the depth limit
only, so that the distance to the limit and then the size of the gloss decrease from call to call.
Hence calls are well-founded, and facts about outcomes are proved by induction on calls.
-/

namespace Interlinear

open Outcome

namespace Gloss

mutual
theorem evaluate_congr (morphology : Morphology)
    {resolve other : Nat → String → Except TranslationError String} :
    (gloss : Gloss) → (depth : Nat) →
    (∀ below, depth ≤ below → ∀ id, resolve below id = other below id) →
    gloss.evaluate morphology resolve depth = gloss.evaluate morphology other depth
  | literal _, _, _ => by rw [evaluate, evaluate]
  | pointer id, depth, h => by rw [evaluate, evaluate, h depth (Nat.le_refl depth) id]
  | inflection stem names, depth, h => by
      have hstem := evaluate_congr morphology stem (depth + 1) fun below hbelow =>
        h below (by omega)
      rw [evaluate, evaluate, hstem]
  | compound [], _, _ => by rw [evaluate, evaluate]
  | compound (first :: others), depth, h => by
      have hbelow : ∀ below, depth + 1 ≤ below → ∀ id, resolve below id = other below id :=
        fun below hle => h below (by omega)
      have hfirst := evaluate_congr morphology first (depth + 1) hbelow
      have hothers := evaluateOthers_congr morphology others (depth + 1) hbelow
      rw [evaluate, evaluate, hfirst]
      simp only [hothers]
  | stray _, _, _ => by rw [evaluate, evaluate]
theorem evaluateOthers_congr (morphology : Morphology)
    {resolve other : Nat → String → Except TranslationError String} :
    (glosses : List Gloss) → (depth : Nat) →
    (∀ below, depth ≤ below → ∀ id, resolve below id = other below id) →
    ∀ joined, evaluateOthers morphology resolve depth joined glosses =
      evaluateOthers morphology other depth joined glosses
  | [], _, _, joined => by rw [evaluateOthers, evaluateOthers]
  | gloss :: glosses, depth, h, joined => by
      have hgloss := evaluate_congr morphology gloss depth h
      have hglosses := evaluateOthers_congr morphology glosses depth h
      rw [evaluateOthers, evaluateOthers, hgloss]
      simp only [hglosses]
end

theorem evaluateOthers_append (morphology : Morphology)
    (resolve : Nat → String → Except TranslationError String) (depth : Nat)
    (joined : String) (before after : List Gloss) :
    evaluateOthers morphology resolve depth joined (before ++ after) =
      evaluateOthers morphology resolve depth joined before >>= fun joined =>
        evaluateOthers morphology resolve depth joined after := by
  induction before generalizing joined with
  | nil =>
      rw [List.nil_append, evaluateOthers, ok_bind]
  | cons gloss before ih =>
      rw [List.cons_append, evaluateOthers, evaluateOthers]
      simp only [ih, bind_assoc]

end Gloss

namespace Translator

/-- A gloss to translate below the lexemes of a path and at a depth. -/
structure Call where
  gloss : Gloss
  path : List String
  depth : Nat

variable (translator : Translator)

/-- Hops that reach from a depth to the limit are enough, and more of them change nothing. -/
theorem resolve_eq_resolve
    (hops others : Nat) (path : List String) (depth : Nat) (id : String)
    (hhops : translator.maxDepth ≤ hops + depth)
    (hothers : translator.maxDepth ≤ others + depth) :
    translator.resolve hops path depth id = translator.resolve others path depth id := by
  induction hops generalizing others path depth id with
  | zero =>
      have hlimit : translator.maxDepth ≤ depth := by omega
      unfold resolve
      simp only [hlimit, if_true]
  | succ hops ih =>
      cases others with
      | zero =>
          have hlimit : translator.maxDepth ≤ depth := by omega
          unfold resolve
          simp only [hlimit, if_true]
      | succ others =>
          unfold resolve
          cases translator.index.get? id with
          | none => rfl
          | some gloss =>
              have hgloss := gloss.evaluate_congr translator.morphology (depth + 1)
                fun below hbelow name =>
                  ih others (path ++ [id]) below name (by omega) (by omega)
              simp only [hgloss]

/-- The translation of a gloss below the lexemes of `path` and at a depth. -/
def translateAt (path : List String) (depth : Nat) (gloss : Gloss) :
    Except TranslationError String :=
  gloss.evaluate translator.morphology (translator.resolve translator.maxDepth path) depth

theorem translate_eq_translateAt (gloss : Gloss) :
    translator.translate gloss = translator.translateAt [] 0 gloss := rfl

@[simp]
theorem translateAt_literal (path : List String) (depth : Nat) (text : String) :
    translator.translateAt path depth (.literal text) = .ok text := by
  rw [translateAt, Gloss.evaluate]

@[simp]
theorem translateAt_stray (path : List String) (depth : Nat) (text : String) :
    translator.translateAt path depth (.stray text) = .error (.notGloss text) := by
  rw [translateAt, Gloss.evaluate]

theorem translateAt_missing
    {id : String} (hmissing : translator.index.get? id = none)
    (path : List String) (depth : Nat) :
    translator.translateAt path depth (.pointer id) = .ok (Diagnostic.missing id) := by
  rw [translateAt, Gloss.evaluate, resolve, hmissing]

theorem translateAt_cyclic
    {id : String} {gloss : Gloss} (hfound : translator.index.get? id = some gloss)
    {path : List String} (hpath : id ∈ path) (depth : Nat) :
    translator.translateAt path depth (.pointer id) = .ok (Diagnostic.cyclic id) := by
  rw [translateAt, Gloss.evaluate, resolve, hfound]
  simp only [List.contains_iff_mem.mpr hpath, if_true]

theorem translateAt_tooDeep
    {id : String} {gloss : Gloss} (hfound : translator.index.get? id = some gloss)
    {path : List String} (hpath : id ∉ path) {depth : Nat}
    (hdepth : translator.maxDepth ≤ depth) :
    translator.translateAt path depth (.pointer id) = .ok (Diagnostic.tooDeep id) := by
  rw [translateAt, Gloss.evaluate, resolve, hfound]
  simp [hpath, hdepth]

theorem translateAt_followed
    {id : String} {gloss : Gloss} (hfound : translator.index.get? id = some gloss)
    {path : List String} (hpath : id ∉ path) {depth : Nat}
    (hdepth : depth < translator.maxDepth) :
    translator.translateAt path depth (.pointer id) =
      translator.translateAt (path ++ [id]) (depth + 1) gloss := by
  obtain ⟨hops, hlimit⟩ : ∃ hops, translator.maxDepth = hops + 1 :=
    ⟨translator.maxDepth - 1, by omega⟩
  have hmore : ∀ below, depth + 1 ≤ below → ∀ name,
      translator.resolve hops (path ++ [id]) below name =
        translator.resolve translator.maxDepth (path ++ [id]) below name :=
    fun below hbelow name => translator.resolve_eq_resolve hops translator.maxDepth
      (path ++ [id]) below name (by omega) (by omega)
  have hcontains : path.contains id = false := by simpa using hpath
  have hnot : ¬ translator.maxDepth ≤ depth := by omega
  have hresolve :
      translator.resolve (hops + 1) path depth id =
        gloss.evaluate translator.morphology (translator.resolve hops (path ++ [id]))
          (depth + 1) := by
    rw [resolve, hfound]
    simp only [hcontains, Bool.false_eq_true, if_false, hnot]
  rw [translateAt, Gloss.evaluate, translateAt, hlimit, hresolve, ← hlimit]
  exact gloss.evaluate_congr translator.morphology (depth + 1) hmore

theorem translateAt_inflection
    (path : List String) (depth : Nat) (stem : Gloss) (names : List String) :
    translator.translateAt path depth (.inflection stem names) =
      translator.translateAt path (depth + 1) stem >>= fun text =>
        translator.morphology.inflect text names := by
  rw [translateAt, Gloss.evaluate, translateAt]

@[simp]
theorem translateAt_compound_nil (path : List String) (depth : Nat) :
    translator.translateAt path depth (.compound []) = .ok "" := by
  rw [translateAt, Gloss.evaluate]

theorem translateAt_compound_singleton (path : List String) (depth : Nat) (first : Gloss) :
    translator.translateAt path depth (.compound [first]) =
      translator.translateAt path (depth + 1) first := by
  rw [translateAt, Gloss.evaluate, translateAt]
  simp only [Gloss.evaluateOthers]
  exact bind_pure _

/-- The last element of a compound is joined to the translation of the elements before it. -/
theorem translateAt_compound_concat
    (path : List String) (depth : Nat) (first last : Gloss) (before : List Gloss) :
    translator.translateAt path depth (.compound (first :: (before ++ [last]))) =
      translator.translateAt path depth (.compound (first :: before)) >>= fun joined =>
        translator.translateAt path (depth + 1) last >>= fun text =>
          translator.morphology.join joined text := by
  simp only [translateAt, Gloss.evaluate, Gloss.evaluateOthers_append, Gloss.evaluateOthers,
    bind_assoc]
  congr 1
  funext text
  congr 1
  funext joined
  congr 1
  funext lastText
  exact bind_pure _

/-- Two translators with one limit do the same if they do when the limit is positive. -/
theorem map_make_congr {index other : Index} {morphology otherMorphology : Morphology}
    {limit : Int} {α : Type} {run otherRun : Translator → α}
    (h : ∀ hpos : 0 < limit.toNat, run ⟨index, morphology, limit.toNat, hpos⟩ =
      otherRun ⟨other, otherMorphology, limit.toNat, hpos⟩) :
    (make index morphology limit).map run = (make other otherMorphology limit).map otherRun := by
  unfold make
  by_cases hlimit : 0 < limit
  · rw [dif_pos hlimit, dif_pos hlimit]
    exact congrArg Except.ok (h (by omega))
  · rw [dif_neg hlimit, dif_neg hlimit]
    rfl

/-! ### Calls -/

/-- The calls that the translation of a gloss makes itself. -/
inductive Calls : Call → Call → Prop
  | followed {id : String} {gloss : Gloss} {path : List String} {depth : Nat}
      (hfound : translator.index.get? id = some gloss) (hpath : id ∉ path)
      (hdepth : depth < translator.maxDepth) :
      Calls ⟨.pointer id, path, depth⟩ ⟨gloss, path ++ [id], depth + 1⟩
  | stem {stem : Gloss} {names : List String} {path : List String} {depth : Nat} :
      Calls ⟨.inflection stem names, path, depth⟩ ⟨stem, path, depth + 1⟩
  | first {first : Gloss} {others : List Gloss} {path : List String} {depth : Nat} :
      Calls ⟨.compound (first :: others), path, depth⟩ ⟨first, path, depth + 1⟩
  | next {first gloss : Gloss} {before after : List Gloss} {joined : String}
      {path : List String} {depth : Nat}
      (hjoined : translator.translateAt path depth (.compound (first :: before)) = .ok joined) :
      Calls ⟨.compound (first :: (before ++ gloss :: after)), path, depth⟩
        ⟨gloss, path, depth + 1⟩

/-- The calls that are made on the way, at any remove. -/
def Reaches : Call → Call → Prop :=
  Relation.ReflTransGen translator.Calls

variable {translator} in
theorem Calls.append {first : Gloss} {before : List Gloss} {path : List String} {depth : Nat}
    {callee : Call} (h : translator.Calls ⟨.compound (first :: before), path, depth⟩ callee)
    (after : List Gloss) :
    translator.Calls ⟨.compound (first :: (before ++ after)), path, depth⟩ callee := by
  cases h with
  | first => exact .first
  | next hjoined =>
      rw [List.append_assoc, List.cons_append]
      exact .next hjoined

/-- What decreases from call to call: the distance to the depth limit, then the gloss. -/
noncomputable def Call.rank (call : Call) : Nat ×ₗ Nat :=
  toLex (translator.maxDepth - call.depth, sizeOf call.gloss)

variable {translator} in
theorem Calls.rank_lt {caller callee : Call} (h : translator.Calls caller callee) :
    callee.rank translator < caller.rank translator := by
  -- Only a followed pointer leads to a gloss that is no part of the one at hand.
  have hsmaller : ∀ {gloss other : Gloss} {path otherPath : List String} {depth : Nat},
      sizeOf gloss < sizeOf other →
      Call.rank translator ⟨gloss, path, depth + 1⟩ <
        Call.rank translator ⟨other, otherPath, depth⟩ := by
    intro gloss other path otherPath depth hsize
    refine Prod.Lex.toLex_lt_toLex.mpr ?_
    rcases Nat.lt_or_ge depth translator.maxDepth with hdepth | hdepth
    · exact .inl (show translator.maxDepth - (depth + 1) < translator.maxDepth - depth by omega)
    · exact .inr ⟨show translator.maxDepth - (depth + 1) = translator.maxDepth - depth by omega,
        hsize⟩
  cases h with
  | followed hfound hpath hdepth =>
      refine Prod.Lex.toLex_lt_toLex.mpr (.inl ?_)
      simp only
      omega
  | stem => exact hsmaller (by simp only [Gloss.inflection.sizeOf_spec]; omega)
  | first => exact hsmaller (by simp only [Gloss.compound.sizeOf_spec, List.cons.sizeOf_spec]; omega)
  | @next first gloss before after joined path depth hjoined =>
      have hmem : gloss ∈ first :: (before ++ gloss :: after) := by simp
      have hsize := List.sizeOf_lt_of_mem hmem
      exact hsmaller (by simp only [Gloss.compound.sizeOf_spec]; omega)

theorem calls_wellFounded :
    WellFounded fun callee caller => translator.Calls caller callee :=
  Subrelation.wf (fun h => Calls.rank_lt h)
    (InvImage.wf (Call.rank translator) wellFounded_lt)

/-- What holds of a first element alone, and of a further element after the elements before it,
holds of a whole compound; the further element is called for once those before it are joined. -/
theorem compound_induction (path : List String) (depth : Nat) (first : Gloss)
    (others : List Gloss) {motive : List Gloss → Prop} (hfirst : motive [])
    (hnext : ∀ before gloss, motive before →
      (∀ joined, translator.translateAt path depth (.compound (first :: before)) = .ok joined →
        translator.Calls ⟨.compound (first :: others), path, depth⟩ ⟨gloss, path, depth + 1⟩) →
      motive (before ++ [gloss])) :
    motive others := by
  have hpart : ∀ before after, others = before ++ after → motive before := by
    intro before
    induction before using List.reverseRecOn with
    | nil =>
        intro after _
        exact hfirst
    | append_singleton before gloss ih =>
        intro after hothers
        have hrow : others = before ++ gloss :: after := by simpa using hothers
        refine hnext before gloss (ih (gloss :: after) hrow) fun joined hjoined => ?_
        rw [hrow]
        exact .next hjoined
  exact hpart others [] (by simp)

/-- Two compounds translate alike if their elements do, as far as elements are called. -/
theorem translateAt_compound_congr
    {other : Translator} (hjoin : translator.morphology.join = other.morphology.join)
    {path otherPath : List String} {depth otherDepth : Nat} {first : Gloss} {others : List Gloss}
    (hcallee : ∀ callee : Gloss,
      translator.Calls ⟨.compound (first :: others), path, depth⟩ ⟨callee, path, depth + 1⟩ →
      translator.translateAt path (depth + 1) callee =
        other.translateAt otherPath (otherDepth + 1) callee) :
    translator.translateAt path depth (.compound (first :: others)) =
      other.translateAt otherPath otherDepth (.compound (first :: others)) := by
  refine translator.compound_induction path depth first others
    (motive := fun before => translator.translateAt path depth (.compound (first :: before)) =
      other.translateAt otherPath otherDepth (.compound (first :: before))) ?_ ?_
  · rw [translateAt_compound_singleton, translateAt_compound_singleton]
    exact hcallee first .first
  · intro before gloss hbefore hcalls
    rw [translateAt_compound_concat, translateAt_compound_concat, ← hbefore, hjoin]
    cases hjoined : translator.translateAt path depth (.compound (first :: before)) with
    | error e => rfl
    | ok joined => rw [ok_bind, ok_bind, hcallee gloss (hcalls joined hjoined)]

/-- Two translations of a gloss agree if they agree on the inflections and pointers below it.
`Related` says at which path and depth the other translation makes a call; for a pointer, the calls
below it may be taken to agree. -/
theorem translateAt_eq_of_related {other : Translator}
    (hjoin : translator.morphology.join = other.morphology.join)
    (Related : Call → List String → Nat → Prop)
    (hpart : ∀ {gloss part : Gloss} {path otherPath : List String} {depth otherDepth : Nat},
      Related ⟨gloss, path, depth⟩ otherPath otherDepth →
      translator.Calls ⟨gloss, path, depth⟩ ⟨part, path, depth + 1⟩ →
      Related ⟨part, path, depth + 1⟩ otherPath (otherDepth + 1))
    (hinflect : ∀ {stem : Gloss} {names path otherPath : List String} {depth otherDepth : Nat},
      Related ⟨.inflection stem names, path, depth⟩ otherPath otherDepth →
      ∀ text, translator.morphology.inflect text names = other.morphology.inflect text names)
    (hpointer : ∀ {id : String} {path otherPath : List String} {depth otherDepth : Nat},
      Related ⟨.pointer id, path, depth⟩ otherPath otherDepth →
      (∀ {callee : Call} {belowPath : List String} {below : Nat},
        translator.Calls ⟨.pointer id, path, depth⟩ callee → Related callee belowPath below →
        translator.translateAt callee.path callee.depth callee.gloss =
          other.translateAt belowPath below callee.gloss) →
      translator.translateAt path depth (.pointer id) =
        other.translateAt otherPath otherDepth (.pointer id))
    (call : Call) {otherPath : List String} {otherDepth : Nat}
    (h : Related call otherPath otherDepth) :
    translator.translateAt call.path call.depth call.gloss =
      other.translateAt otherPath otherDepth call.gloss := by
  induction call using translator.calls_wellFounded.induction generalizing
    otherPath otherDepth with
  | h call ih =>
      obtain ⟨gloss, path, depth⟩ := call
      simp only
      cases gloss with
      | literal text => rw [translateAt_literal, translateAt_literal]
      | stray text => rw [translateAt_stray, translateAt_stray]
      | pointer id => exact hpointer h fun hcalls hrelated => ih _ hcalls hrelated
      | inflection stem names =>
          have hstem := ih _ Calls.stem (hpart h Calls.stem)
          simp only [translateAt_inflection, hstem, hinflect h]
      | compound elements =>
          cases elements with
          | nil => rw [translateAt_compound_nil, translateAt_compound_nil]
          | cons first others =>
              exact translateAt_compound_congr translator hjoin fun part hcalls =>
                ih _ hcalls (hpart h hcalls)

/-- Two translations of a pointer at one place agree if they find the same lexeme, follow it or not,
and agree on the lexeme. -/
theorem translateAt_pointer_congr {other : Translator} {id : String} {path : List String}
    {depth : Nat} (hfind : translator.index.get? id = other.index.get? id)
    (hlimit : (translator.index.get? id).isSome → id ∉ path →
      (translator.maxDepth ≤ depth ↔ other.maxDepth ≤ depth))
    (hreferent : ∀ gloss,
      translator.Calls ⟨.pointer id, path, depth⟩ ⟨gloss, path ++ [id], depth + 1⟩ →
      translator.translateAt (path ++ [id]) (depth + 1) gloss =
        other.translateAt (path ++ [id]) (depth + 1) gloss) :
    translator.translateAt path depth (.pointer id) =
      other.translateAt path depth (.pointer id) := by
  cases hfound : translator.index.get? id with
  | none => rw [translateAt_missing _ hfound, translateAt_missing _ (hfind ▸ hfound)]
  | some gloss =>
      have hother : other.index.get? id = some gloss := hfind ▸ hfound
      by_cases hpath : id ∈ path
      · rw [translateAt_cyclic _ hfound hpath, translateAt_cyclic _ hother hpath]
      have hstop := hlimit (by simp [hfound]) hpath
      by_cases hdepth : translator.maxDepth ≤ depth
      · rw [translateAt_tooDeep _ hfound hpath hdepth,
          translateAt_tooDeep _ hother hpath (hstop.mp hdepth)]
      · have hbelow := Nat.lt_of_not_le hdepth
        have hotherBelow := Nat.lt_of_not_le (mt hstop.mpr hdepth)
        rw [translateAt_followed _ hfound hpath hbelow,
          translateAt_followed _ hother hpath hotherBelow]
        exact hreferent gloss (.followed hfound hpath hbelow)

end Translator

end Interlinear
