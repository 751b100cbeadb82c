import Interlinear.Proofs.Translation.Reachability

/-!
# Translation by plain recursion

Plain translation follows every pointer and keeps neither the lexemes that are being translated nor
a depth.  On a cyclic index it need not end, so it is a relation: a gloss is translated to an outcome
in finitely many steps, if at all.  Where no lexeme reachable from a gloss reaches itself and no
pointer to a lexeme is met at the depth limit, it has one outcome, that of the guarded translation.

The invariant is that no guard stops a pointer below a call.  Cycles are excluded by the path, all
of whose lexemes lead to the pointer at hand.  Given the invariant, every plain translation has the
guarded outcome by induction on its steps, and there is one by induction on calls.  Neither the path
nor the depth of a call matters then: a shorter path and a smaller depth give the same outcome.
-/

namespace Interlinear

open Outcome

/-- Changes a text by the rule with a name, or marks it where no rule has the name. -/
def Morphology.inflectOnce (morphology : Morphology) (text name : String) :
    Except TranslationError String :=
  match morphology.inflector? name with
  | none => .ok (Diagnostic.unknownInflection text name)
  | some rule =>
      match rule.apply text with
      | .ok (changed, _) => .ok changed
      | .error error => .error (.template error)

theorem Morphology.foldlM_inflectOnce (morphology : Morphology) (text : String)
    (names : List String) :
    names.foldlM morphology.inflectOnce text = morphology.inflect text names := by
  induction names generalizing text with
  | nil => rfl
  | cons name names ih =>
      rw [List.foldlM_cons, inflectOnce, inflect]
      cases morphology.inflector? name with
      | none => exact ih _
      | some rule =>
          simp only
          cases rule.apply text with
          | error error => rfl
          | ok changed => exact ih changed.1

/-- The outcome of translating a gloss by recursion on what it refers to, without guards.  A compound
is joined from the left, and the first error ends it. -/
inductive Gloss.TranslatesTo (index : Index) (morphology : Morphology) :
    Gloss → Except TranslationError String → Prop
  | literal (text : String) : TranslatesTo index morphology (.literal text) (.ok text)
  | missing {id : String} (hmissing : index.get? id = none) :
      TranslatesTo index morphology (.pointer id) (.ok (Diagnostic.missing id))
  | pointer {id : String} {gloss : Gloss} {outcome : Except TranslationError String}
      (hfound : index.get? id = some gloss) (hgloss : TranslatesTo index morphology gloss outcome) :
      TranslatesTo index morphology (.pointer id) outcome
  | inflection {stem : Gloss} {names : List String} {outcome : Except TranslationError String}
      (hstem : TranslatesTo index morphology stem outcome) :
      TranslatesTo index morphology (.inflection stem names)
        (outcome >>= fun text => names.foldlM morphology.inflectOnce text)
  | empty : TranslatesTo index morphology (.compound []) (.ok "")
  | first {gloss : Gloss} {outcome : Except TranslationError String}
      (hgloss : TranslatesTo index morphology gloss outcome) :
      TranslatesTo index morphology (.compound [gloss]) outcome
  | joined {first last : Gloss} {before : List Gloss} {text : String}
      {outcome : Except TranslationError String}
      (hbefore : TranslatesTo index morphology (.compound (first :: before)) (.ok text))
      (hlast : TranslatesTo index morphology last outcome) :
      TranslatesTo index morphology (.compound (first :: (before ++ [last])))
        (outcome >>= fun added => morphology.join text added)
  | failed {first last : Gloss} {before : List Gloss} {error : TranslationError}
      (hbefore : TranslatesTo index morphology (.compound (first :: before)) (.error error)) :
      TranslatesTo index morphology (.compound (first :: (before ++ [last]))) (.error error)
  | stray (text : String) : TranslatesTo index morphology (.stray text) (.error (.notGloss text))

namespace Translator

variable (translator : Translator)

/-- No guard stops a pointer that is met below a call. -/
def Unhindered (call : Call) : Prop :=
  ∀ id path depth, translator.Reaches call ⟨.pointer id, path, depth⟩ →
    (translator.index.get? id).isSome → id ∉ path ∧ depth < translator.maxDepth

variable {translator}

theorem Unhindered.callee {caller callee : Call} (hcaller : translator.Unhindered caller)
    (h : translator.Calls caller callee) : translator.Unhindered callee :=
  fun id path depth hreaches hfound =>
    hcaller id path depth (Relation.ReflTransGen.head h hreaches) hfound

theorem Unhindered.run {caller callee : Call} (hcaller : translator.Unhindered caller)
    (h : translator.Reaches caller callee) : translator.Unhindered callee :=
  fun id path depth hreaches hfound => hcaller id path depth (h.trans hreaches) hfound

theorem Unhindered.pointer {id : String} {gloss : Gloss} {path : List String} {depth : Nat}
    (h : translator.Unhindered ⟨.pointer id, path, depth⟩)
    (hfound : translator.index.get? id = some gloss) :
    id ∉ path ∧ depth < translator.maxDepth :=
  h id path depth .refl (by simp [hfound])

theorem Unhindered.before {first : Gloss} {before after : List Gloss} {path : List String}
    {depth : Nat} (h : translator.Unhindered ⟨.compound (first :: (before ++ after)), path, depth⟩) :
    translator.Unhindered ⟨.compound (first :: before), path, depth⟩ := by
  intro id otherPath otherDepth hreaches hfound
  -- The compound itself is no pointer, so the pointer is met below one of the elements.
  rcases Relation.ReflTransGen.cases_head hreaches with heq | ⟨callee, hcalls, hreaches⟩
  · cases heq
  · exact h.callee (hcalls.append after) id otherPath otherDepth hreaches hfound

/-- Where no guard stops a pointer, every plain translation has the guarded outcome. -/
theorem translateAt_of_translatesTo {gloss : Gloss} {outcome : Except TranslationError String}
    (htranslates : gloss.TranslatesTo translator.index translator.morphology outcome)
    {path : List String} {depth : Nat} (h : translator.Unhindered ⟨gloss, path, depth⟩) :
    translator.translateAt path depth gloss = outcome := by
  induction htranslates generalizing path depth with
  | literal text => exact translateAt_literal translator path depth text
  | missing hmissing => exact translateAt_missing translator hmissing path depth
  | pointer hfound _ ih =>
      obtain ⟨hpath, hdepth⟩ := h.pointer hfound
      rw [translateAt_followed translator hfound hpath hdepth]
      exact ih (h.callee (.followed hfound hpath hdepth))
  | inflection _ ih =>
      rw [translateAt_inflection, ih (h.callee .stem)]
      simp only [Morphology.foldlM_inflectOnce]
  | empty => exact translateAt_compound_nil translator path depth
  | first _ ih =>
      rw [translateAt_compound_singleton]
      exact ih (h.callee .first)
  | joined _ _ ihBefore ihLast =>
      have hbefore := ihBefore h.before
      have hlast := ihLast (h.callee (.next hbefore))
      rw [translateAt_compound_concat, hbefore, ok_bind, hlast]
  | failed _ ih =>
      rw [translateAt_compound_concat, ih h.before, error_bind]
  | stray text => exact translateAt_stray translator path depth text

theorem translatesTo_translateAt (call : Call) (h : translator.Unhindered call) :
    call.gloss.TranslatesTo translator.index translator.morphology
      (translator.translateAt call.path call.depth call.gloss) := by
  induction call using translator.calls_wellFounded.induction with
  | h call ih =>
      obtain ⟨gloss, path, depth⟩ := call
      simp only
      cases gloss with
      | literal text =>
          rw [translateAt_literal]
          exact .literal text
      | stray text =>
          rw [translateAt_stray]
          exact .stray text
      | pointer id =>
          cases hfound : translator.index.get? id with
          | none =>
              rw [translateAt_missing translator hfound]
              exact .missing hfound
          | some referent =>
              obtain ⟨hpath, hdepth⟩ := h.pointer hfound
              have hcalls := Calls.followed hfound hpath hdepth
              rw [translateAt_followed translator hfound hpath hdepth]
              exact .pointer hfound (ih _ hcalls (h.callee hcalls))
      | inflection stem names =>
          have hstem := ih _ Calls.stem (h.callee Calls.stem)
          simp only [translateAt_inflection, ← Morphology.foldlM_inflectOnce]
          exact .inflection hstem
      | compound elements =>
          cases elements with
          | nil =>
              rw [translateAt_compound_nil]
              exact .empty
          | cons first others =>
              refine translator.compound_induction path depth first others
                (motive := fun before =>
                  (Gloss.compound (first :: before)).TranslatesTo translator.index
                    translator.morphology
                    (translator.translateAt path depth (.compound (first :: before)))) ?_ ?_
              · rw [translateAt_compound_singleton]
                exact .first (ih _ Calls.first (h.callee Calls.first))
              · intro before gloss hbefore hcalls
                rw [translateAt_compound_concat]
                cases hjoined : translator.translateAt path depth (.compound (first :: before)) with
                | error error =>
                    rw [hjoined] at hbefore
                    exact .failed hbefore
                | ok text =>
                    rw [hjoined] at hbefore
                    have hcall := hcalls text hjoined
                    exact .joined hbefore (ih _ hcall (h.callee hcall))

/-- Where no guard stops a pointer, a shorter path and a smaller depth give the same outcome. -/
theorem Unhindered.translateAt_eq {path otherPath : List String} {depth otherDepth : Nat}
    {gloss : Gloss} (h : translator.Unhindered ⟨gloss, path, depth⟩)
    (hpath : otherPath ⊆ path) (hdepth : otherDepth ≤ depth) :
    translator.translateAt path depth gloss =
      translator.translateAt otherPath otherDepth gloss := by
  refine translateAt_eq_of_related translator rfl
    (fun call otherPath otherDepth =>
      translator.Unhindered call ∧ otherPath ⊆ call.path ∧ otherDepth ≤ call.depth)
    ?_ (fun _ _ => rfl) ?_ ⟨gloss, path, depth⟩ ⟨h, hpath, hdepth⟩
  · rintro gloss part path otherPath depth otherDepth ⟨hcaller, hpath, hdepth⟩ hcalls
    exact ⟨hcaller.callee hcalls, hpath, Nat.add_le_add_right hdepth 1⟩
  · rintro id path otherPath depth otherDepth ⟨hcaller, hpath, hdepth⟩ hbelow
    cases hfound : translator.index.get? id with
    | none => rw [translateAt_missing _ hfound, translateAt_missing _ hfound]
    | some referent =>
        obtain ⟨hnot, hlimit⟩ := hcaller.pointer hfound
        have hcalls := Calls.followed hfound hnot hlimit
        have hotherNot : id ∉ otherPath := fun hid => hnot (hpath hid)
        rw [translateAt_followed _ hfound hnot hlimit,
          translateAt_followed _ hfound hotherNot (Nat.lt_of_le_of_lt hdepth hlimit)]
        have hsubset : otherPath ++ [id] ⊆ path ++ [id] :=
          List.append_subset_of_subset_of_subset
            (List.subset_append_of_subset_left [id] hpath) (List.subset_append_right path [id])
        exact hbelow hcalls ⟨hcaller.callee hcalls, hsubset, Nat.add_le_add_right hdepth 1⟩

theorem Unhindered.translate_pointer {id : String} {referent : Gloss} {path : List String}
    {depth : Nat} (h : translator.Unhindered ⟨.pointer id, path, depth⟩)
    (hfound : translator.index.get? id = some referent) :
    translator.translate (.pointer id) = translator.translate referent := by
  obtain ⟨hpath, hdepth⟩ := h.pointer hfound
  have hcalls := Calls.followed hfound hpath hdepth
  have hpointer := h.translateAt_eq (List.nil_subset path) (Nat.zero_le depth)
  have hreferent := (h.callee hcalls).translateAt_eq
    (List.nil_subset (path ++ [id])) (Nat.zero_le (depth + 1))
  rw [translate_eq_translateAt, translate_eq_translateAt, ← hpointer, ← hreferent]
  exact translateAt_followed translator hfound hpath hdepth

theorem unhindered_of_acyclic {gloss : Gloss}
    (hacyclic : ∀ id, translator.index.ReachableFrom gloss id →
      ¬ translator.index.ReachesItself id)
    (hdepth : ∀ id path depth, translator.Reaches ⟨gloss, [], 0⟩ ⟨.pointer id, path, depth⟩ →
      (translator.index.get? id).isSome → depth < translator.maxDepth) :
    translator.Unhindered ⟨gloss, [], 0⟩ :=
  fun id path depth hreaches hfound =>
    ⟨not_mem_path_of_reaches hacyclic hreaches, hdepth id path depth hreaches hfound⟩

variable (translator)

/-- If no lexeme reachable from a gloss reaches itself and no pointer to a lexeme is met at the depth
limit, then plain translation ends with the outcome of translation and no other, no pointer that is
met is taken for a cycle, and each translates as its referent does. -/
theorem translatesTo_iff_translate (gloss : Gloss)
    (hacyclic : ∀ id, translator.index.ReachableFrom gloss id →
      ¬ translator.index.ReachesItself id)
    (hdepth : ∀ id path depth, translator.Reaches ⟨gloss, [], 0⟩ ⟨.pointer id, path, depth⟩ →
      (translator.index.get? id).isSome → depth < translator.maxDepth) :
    (∀ outcome, gloss.TranslatesTo translator.index translator.morphology outcome ↔
        translator.translate gloss = outcome) ∧
      ∀ id path depth, translator.Reaches ⟨gloss, [], 0⟩ ⟨.pointer id, path, depth⟩ →
        id ∉ path ∧
          ∀ referent, translator.index.get? id = some referent →
            translator.translate (.pointer id) = translator.translate referent := by
  have hstart := unhindered_of_acyclic hacyclic hdepth
  constructor
  · intro outcome
    constructor
    · intro htranslates
      exact translateAt_of_translatesTo htranslates hstart
    · rintro rfl
      exact translatesTo_translateAt _ hstart
  · intro id path depth hreaches
    have hpointer := hstart.run hreaches
    exact ⟨not_mem_path_of_reaches hacyclic hreaches,
      fun referent hfound => hpointer.translate_pointer hfound⟩

/-- Two lexemes, of which the second is a compound that has the first one twice. -/
def doubling : Translator where
  index := .mk (.mk [("a", .literal "ka"), ("aa", .compound [.pointer "a", .pointer "a"])])
  morphology := ⟨⟨[]⟩, []⟩
  maxDepth := 4
  maxDepth_pos := by decide

def doublingRank (id : String) : Nat :=
  if id = "aa" then 3 else 1

theorem doubling_rankedBy : doubling.index.RankedBy doublingRank := by
  intro id gloss hfound
  simp only [Index.get?, Dictionary.get?, doubling, List.lookup_cons, List.lookup_nil] at hfound
  split at hfound
  · obtain rfl := Option.some.inj hfound
    simp only [Gloss.heightOver, doublingRank]
    split <;> omega
  · split at hfound
    · next heq =>
        obtain rfl := Option.some.inj hfound
        obtain rfl := eq_of_beq heq
        decide +kernel
    · cases hfound

theorem translatesTo_iff_translate_doubling :
    (Gloss.compound [.pointer "aa", .pointer "a"]).TranslatesTo doubling.index doubling.morphology
        (.ok "kakaka") ∧
      doubling.translate (.pointer "aa") =
        doubling.translate (.compound [.pointer "a", .pointer "a"]) := by
  have htwice : doubling.Reaches ⟨.compound [.pointer "aa", .pointer "a"], [], 0⟩
      ⟨.pointer "aa", [], 1⟩ := .single .first
  have hvalue : doubling.translate (.compound [.pointer "aa", .pointer "a"]) = .ok "kakaka" := by
    cbv
  obtain ⟨htranslates, hpointers⟩ := translatesTo_iff_translate doubling
    (.compound [.pointer "aa", .pointer "a"])
    (fun id _ => doubling_rankedBy.not_reachesItself id)
    (fun id path depth hreaches hfound => by
      obtain ⟨referent, hreferent⟩ := Option.isSome_iff_exists.mp hfound
      exact depth_lt_of_rankedBy doubling_rankedBy hreaches hreferent)
  constructor
  · exact (htranslates _).mpr hvalue
  · exact (hpointers "aa" [] 1 htwice).2 _ rfl

end Translator

end Interlinear
