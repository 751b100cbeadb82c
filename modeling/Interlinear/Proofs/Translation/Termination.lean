import Interlinear.Proofs.Translation.DepthLimit

/-!
# Termination of translation

A run of a call follows the glosses one by one, with the path and the depth as its only guards and
no bound on its length.  It ends with an outcome and leaves behind the calls that it made, in order.
Every call has a run, whose outcome is that of the translation, since no call leads back to itself
through others.

Three sums stay within bounds on the way.  A hop lengthens the path by one lexeme and the depth by
one level, so that the path is never longer than the call is deep.  Hops start below the depth limit
only, so that it is no longer than the limit either.  And the depth of a call together with the
height of its gloss grows by a hop only, after which it is at most the limit and the height of the
tallest entry.
-/

namespace Interlinear

open Outcome

namespace Translator

variable (translator : Translator)

/-- A call ends with an outcome after these calls, in this order. -/
inductive Runs : Call → Except TranslationError String → List Call → Prop
  | literal {path : List String} {depth : Nat} (text : String) :
      Runs ⟨.literal text, path, depth⟩ (.ok text) []
  | missing {id : String} {path : List String} {depth : Nat}
      (hmissing : translator.index.get? id = none) :
      Runs ⟨.pointer id, path, depth⟩ (.ok (Diagnostic.missing id)) []
  | cyclic {id : String} {gloss : Gloss} {path : List String} {depth : Nat}
      (hfound : translator.index.get? id = some gloss) (hpath : id ∈ path) :
      Runs ⟨.pointer id, path, depth⟩ (.ok (Diagnostic.cyclic id)) []
  | tooDeep {id : String} {gloss : Gloss} {path : List String} {depth : Nat}
      (hfound : translator.index.get? id = some gloss) (hpath : id ∉ path)
      (hdepth : translator.maxDepth ≤ depth) :
      Runs ⟨.pointer id, path, depth⟩ (.ok (Diagnostic.tooDeep id)) []
  | followed {id : String} {gloss : Gloss} {path : List String} {depth : Nat}
      {outcome : Except TranslationError String} {calls : List Call}
      (hfound : translator.index.get? id = some gloss) (hpath : id ∉ path)
      (hdepth : depth < translator.maxDepth)
      (hgloss : Runs ⟨gloss, path ++ [id], depth + 1⟩ outcome calls) :
      Runs ⟨.pointer id, path, depth⟩ outcome (⟨gloss, path ++ [id], depth + 1⟩ :: calls)
  | inflection {stem : Gloss} {names path : List String} {depth : Nat}
      {outcome : Except TranslationError String} {calls : List Call}
      (hstem : Runs ⟨stem, path, depth + 1⟩ outcome calls) :
      Runs ⟨.inflection stem names, path, depth⟩
        (outcome >>= fun text => translator.morphology.inflect text names)
        (⟨stem, path, depth + 1⟩ :: calls)
  | empty {path : List String} {depth : Nat} : Runs ⟨.compound [], path, depth⟩ (.ok "") []
  | first {gloss : Gloss} {path : List String} {depth : Nat}
      {outcome : Except TranslationError String} {calls : List Call}
      (hgloss : Runs ⟨gloss, path, depth + 1⟩ outcome calls) :
      Runs ⟨.compound [gloss], path, depth⟩ outcome (⟨gloss, path, depth + 1⟩ :: calls)
  | joined {first last : Gloss} {before : List Gloss} {path : List String} {depth : Nat}
      {text : String} {outcome : Except TranslationError String} {calls others : List Call}
      (hbefore : Runs ⟨.compound (first :: before), path, depth⟩ (.ok text) calls)
      (hlast : Runs ⟨last, path, depth + 1⟩ outcome others) :
      Runs ⟨.compound (first :: (before ++ [last])), path, depth⟩
        (outcome >>= fun added => translator.morphology.join text added)
        (calls ++ ⟨last, path, depth + 1⟩ :: others)
  | failed {first last : Gloss} {before : List Gloss} {path : List String} {depth : Nat}
      {error : TranslationError} {calls : List Call}
      (hbefore : Runs ⟨.compound (first :: before), path, depth⟩ (.error error) calls) :
      Runs ⟨.compound (first :: (before ++ [last])), path, depth⟩ (.error error) calls
  | stray {path : List String} {depth : Nat} (text : String) :
      Runs ⟨.stray text, path, depth⟩ (.error (.notGloss text)) []

variable {translator}

theorem Runs.outcome_eq {call : Call} {outcome : Except TranslationError String}
    {calls : List Call} (h : translator.Runs call outcome calls) :
    outcome = translator.translateAt call.path call.depth call.gloss := by
  induction h with
  | literal text => rw [translateAt_literal]
  | missing hmissing => rw [translateAt_missing translator hmissing]
  | cyclic hfound hpath => rw [translateAt_cyclic translator hfound hpath]
  | tooDeep hfound hpath hdepth => rw [translateAt_tooDeep translator hfound hpath hdepth]
  | followed hfound hpath hdepth _ ih =>
      rw [ih, translateAt_followed translator hfound hpath hdepth]
  | inflection _ ih => rw [ih, translateAt_inflection]
  | empty => rw [translateAt_compound_nil]
  | first _ ih => rw [ih, translateAt_compound_singleton]
  | joined _ _ ihBefore ihLast => rw [ihLast, translateAt_compound_concat, ← ihBefore, ok_bind]
  | failed _ ih => rw [translateAt_compound_concat, ← ih, error_bind]
  | stray text => rw [translateAt_stray]

theorem exists_runs (translator : Translator) (call : Call) :
    ∃ outcome calls, translator.Runs call outcome calls := by
  induction call using translator.calls_wellFounded.induction with
  | h call ih =>
      obtain ⟨gloss, path, depth⟩ := call
      cases gloss with
      | literal text => exact ⟨_, _, .literal text⟩
      | stray text => exact ⟨_, _, .stray text⟩
      | pointer id =>
          cases hfound : translator.index.get? id with
          | none => exact ⟨_, _, .missing hfound⟩
          | some gloss =>
              by_cases hpath : id ∈ path
              · exact ⟨_, _, .cyclic hfound hpath⟩
              by_cases hdepth : translator.maxDepth ≤ depth
              · exact ⟨_, _, .tooDeep hfound hpath hdepth⟩
              have hbelow : depth < translator.maxDepth := Nat.lt_of_not_le hdepth
              obtain ⟨outcome, calls, hgloss⟩ := ih _ (.followed hfound hpath hbelow)
              exact ⟨_, _, .followed hfound hpath hbelow hgloss⟩
      | inflection stem names =>
          obtain ⟨outcome, calls, hstem⟩ := ih _ .stem
          exact ⟨_, _, .inflection hstem⟩
      | compound elements =>
          cases elements with
          | nil => exact ⟨_, _, .empty⟩
          | cons first others =>
              -- One element after another, as the elements before decide whether it is called.
              refine translator.compound_induction path depth first others
                (motive := fun before => ∃ outcome calls,
                  translator.Runs ⟨.compound (first :: before), path, depth⟩ outcome calls) ?_ ?_
              · obtain ⟨outcome, calls, hfirst⟩ := ih _ .first
                exact ⟨_, _, .first hfirst⟩
              · rintro before last ⟨outcome, calls, hbefore⟩ hcalls
                cases outcome with
                | error error => exact ⟨_, _, .failed hbefore⟩
                | ok text =>
                    have hcall := hcalls text hbefore.outcome_eq.symm
                    obtain ⟨added, others, hlast⟩ := ih _ hcall
                    exact ⟨_, _, .joined hbefore hlast⟩

theorem Runs.exists_callee {call below : Call} {outcome : Except TranslationError String}
    {calls : List Call} (h : translator.Runs call outcome calls) (hbelow : below ∈ calls) :
    ∃ callee, translator.Calls call callee ∧ translator.Reaches callee below := by
  have hrun : ∀ {caller callee : Call} {others : List Call}, translator.Calls caller callee →
      (below ∈ others →
        ∃ next, translator.Calls callee next ∧ translator.Reaches next below) →
      below ∈ callee :: others →
      ∃ next, translator.Calls caller next ∧ translator.Reaches next below := by
    intro caller callee others hcalls hothers hmem
    rcases List.mem_cons.mp hmem with rfl | hmem
    · exact ⟨below, hcalls, .refl⟩
    · obtain ⟨next, hnext, hreaches⟩ := hothers hmem
      exact ⟨callee, hcalls, .head hnext hreaches⟩
  induction h with
  | literal | missing | cyclic | tooDeep | empty | stray => simp at hbelow
  | followed hfound hpath hdepth _ ih => exact hrun (.followed hfound hpath hdepth) ih hbelow
  | inflection _ ih => exact hrun .stem ih hbelow
  | first _ ih => exact hrun .first ih hbelow
  | joined hbefore _ ihBefore ihLast =>
      rcases List.mem_append.mp hbelow with hbelow | hbelow
      · obtain ⟨callee, hcalls, hreaches⟩ := ihBefore hbelow
        exact ⟨callee, hcalls.append _, hreaches⟩
      · exact hrun (.next hbefore.outcome_eq.symm) ihLast hbelow
  | failed _ ih =>
      obtain ⟨callee, hcalls, hreaches⟩ := ih hbelow
      exact ⟨callee, hcalls.append _, hreaches⟩

theorem Runs.reaches {call below : Call} {outcome : Except TranslationError String}
    {calls : List Call} (h : translator.Runs call outcome calls) (hbelow : below ∈ call :: calls) :
    translator.Reaches call below := by
  rcases List.mem_cons.mp hbelow with rfl | hbelow
  · exact .refl
  · obtain ⟨callee, hcalls, hreaches⟩ := h.exists_callee hbelow
    exact .head hcalls hreaches

/-! ### Bounds of a call -/

/-- The path and the depth of a call below a gloss, where no entry is taller than `tallest`. -/
structure Call.Bounded (start : Gloss) (limit tallest : Nat) (call : Call) : Prop where
  length_le_limit : call.path.length ≤ limit
  length_le_depth : call.path.length ≤ call.depth
  depth_add_height_le : call.depth + call.gloss.height ≤ max start.height (limit + tallest)

theorem Call.bounded_initial (start : Gloss) (limit tallest : Nat) :
    Call.Bounded start limit tallest ⟨start, [], 0⟩ where
  length_le_limit := Nat.zero_le limit
  length_le_depth := Nat.le_refl 0
  depth_add_height_le := by
    rw [Nat.zero_add]
    exact Nat.le_max_left _ _

theorem Call.Bounded.step {start : Gloss} {tallest : Nat} {caller callee : Call}
    (htallest : ∀ id gloss, translator.index.get? id = some gloss → gloss.height ≤ tallest)
    (hcaller : caller.Bounded start translator.maxDepth tallest)
    (h : translator.Calls caller callee) :
    callee.Bounded start translator.maxDepth tallest := by
  have hlimit := hcaller.length_le_limit
  have hlength := hcaller.length_le_depth
  have hsum := hcaller.depth_add_height_le
  obtain ⟨hdepth, ⟨hpath, hlower⟩ | ⟨id, -, hpath, hfound, -, hbelow⟩⟩ := h.lower_or_hop
  · constructor
    · rw [hpath]
      exact hlimit
    · rw [hpath, hdepth]
      omega
    · rw [hdepth]
      omega
  · have hheight : callee.gloss.height ≤ tallest := htallest id callee.gloss hfound
    have hhop : callee.path.length = caller.path.length + 1 := by simp [hpath]
    constructor
    · omega
    · omega
    · apply Nat.le_trans _ (Nat.le_max_right _ _)
      omega

theorem Call.Bounded.run {start : Gloss} {tallest : Nat} {caller callee : Call}
    (htallest : ∀ id gloss, translator.index.get? id = some gloss → gloss.height ≤ tallest)
    (hcaller : caller.Bounded start translator.maxDepth tallest)
    (h : translator.Reaches caller callee) :
    callee.Bounded start translator.maxDepth tallest := by
  induction h with
  | refl => exact hcaller
  | tail _ hcalls ih => exact ih.step htallest hcalls

/-- Every gloss has a run, all its runs end like its translation, and every call made on the way has
distinct lexemes of the index on its path, at most as many as there are entries, as the limit and as
its depth, which exceeds neither the height of the gloss nor the limit by more than the height of
the tallest entry. -/
theorem runs_translate_bounded (index : Index) (morphology : Morphology) (limit : Nat)
    (hpos : 0 < limit) (gloss : Gloss) (tallest : Nat)
    (htallest : ∀ id referent, index.get? id = some referent → referent.height ≤ tallest) :
    (∃ outcome calls,
        Runs ⟨index, morphology, limit, hpos⟩ ⟨gloss, [], 0⟩ outcome calls) ∧
      ∀ outcome calls, Runs ⟨index, morphology, limit, hpos⟩ ⟨gloss, [], 0⟩ outcome calls →
        outcome = translate ⟨index, morphology, limit, hpos⟩ gloss ∧
          ∀ call ∈ (⟨gloss, [], 0⟩ : Call) :: calls,
            call.path.Nodup ∧ (∀ id ∈ call.path, (index.get? id).isSome) ∧
              call.path.length ≤ min index.size limit ∧ call.path.length ≤ call.depth ∧
              call.depth ≤ max gloss.height (limit + tallest) := by
  refine ⟨exists_runs _ _, fun outcome calls hruns => ⟨hruns.outcome_eq, ?_⟩⟩
  intro call hcall
  have hreaches := hruns.reaches hcall
  have hpath := hreaches.isPath (Index.isPath_nil index)
  have hbounded := (Call.bounded_initial gloss limit tallest).run htallest hreaches
  have hlength : call.path.length ≤ min index.size limit :=
    Nat.le_min.mpr ⟨hpath.length_le_size, hbounded.length_le_limit⟩
  have hdepth : call.depth ≤ max gloss.height (limit + tallest) :=
    Nat.le_trans (Nat.le_add_right _ _) hbounded.depth_add_height_le
  exact ⟨hpath.nodup, hpath.present, hlength, hbounded.length_le_depth, hdepth⟩

def shallowSeesaw : Translator :=
  ⟨seesaw, ⟨⟨[]⟩, []⟩, 1, by decide⟩

def shallowCalls : List Call :=
  [⟨.compound [.pointer "b", .literal "x"], ["a"], 1⟩, ⟨.pointer "b", ["a"], 2⟩,
    ⟨.literal "x", ["a"], 2⟩]

theorem runs_shallowSeesaw :
    shallowSeesaw.Runs ⟨.pointer "a", [], 0⟩ (.ok "(b#DEPTH??)x") shallowCalls := by
  have hfirst : shallowSeesaw.index.get? "a" =
      some (.compound ([.pointer "b"] ++ [.literal "x"])) := rfl
  have hsecond : shallowSeesaw.index.get? "b" =
      some (.compound [.literal "y", .pointer "a"]) := rfl
  have htooDeep : shallowSeesaw.Runs ⟨.pointer "b", ["a"], 2⟩ (.ok "(b#DEPTH??)") [] :=
    .tooDeep hsecond (by decide) (by decide)
  have hjoined := Runs.joined (.first htooDeep) (.literal "x")
  exact .followed hfirst (by simp) (by decide) hjoined

/-- The limit cuts the second hop off.  Both bounds are met: one lexeme is on the path of each call
made on the way, and the last two are two levels deep. -/
theorem runs_translate_bounded_seesaw :
    (∀ id referent, seesaw.get? id = some referent → referent.height ≤ 1) ∧
      shallowSeesaw.Runs ⟨.pointer "a", [], 0⟩ (shallowSeesaw.translate (.pointer "a"))
        shallowCalls ∧
      ∀ call ∈ (⟨.pointer "a", [], 0⟩ : Call) :: shallowCalls,
        call.path.Nodup ∧ (∀ id ∈ call.path, (seesaw.get? id).isSome) ∧
          call.path.length ≤ min seesaw.size 1 ∧ call.path.length ≤ call.depth ∧
          call.depth ≤ max (Gloss.pointer "a").height (1 + 1) := by
  obtain ⟨-, hall⟩ := runs_translate_bounded seesaw ⟨⟨[]⟩, []⟩ 1 (by decide) (.pointer "a") 1
    seesaw_height_le
  obtain ⟨houtcome, hbounds⟩ := hall _ _ runs_shallowSeesaw
  have hruns := runs_shallowSeesaw
  rw [houtcome] at hruns
  exact ⟨seesaw_height_le, hruns, hbounds⟩

end Translator

end Interlinear
