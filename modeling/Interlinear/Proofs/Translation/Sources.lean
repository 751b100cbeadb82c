import Interlinear.Proofs.Dictionary
import Interlinear.Proofs.Morphology.Leaves
import Interlinear.Proofs.Pattern.TemplateGrammar
import Interlinear.Proofs.Translation.Plain

/-!
# Where the errors of translations come from

A translation of a well-typed gloss fails in one place only.  Some call on the way runs a text
through a rule whose pattern is found in it, or joins two texts by a boundary whose patterns are
found in them, and the template of the rule cannot be expanded.  The error of the translation is the
error of this template.  Missing, cyclic and too deep lexemes and unknown names never are a reason.

An error is handed on by every call above the one it arises in, and a call that fails without one
below it fails at a rule of its own.  So the place is found by induction on calls.  For compounds the
elements before the place have been joined already, and for inflections the names before it have
been applied, so that the texts at the place are known too.
-/

namespace Interlinear

open Outcome

/-! ## Rules that fail -/

/-- The first leaf of a rule that meets the text is a replacement, and its template cannot be
expanded. -/
inductive Rule.FailsOn (rule : Rule) (text : String) (error : Pattern.TemplateError) : Prop
  | intro {earlier later : List Rule} {pattern : Pattern} {template : String} {count : Int}
      (hleaves : rule.leaves = earlier ++ .replace pattern template count :: later)
      (hearlier : ∀ leaf ∈ earlier, leaf.meets text = false)
      (hfound : pattern.isFound text = true)
      (hexpand : pattern.replace template count text = .error error) : FailsOn rule text error

theorem Rule.apply_eq_error_iff_failsOn {rule : Rule} {text : String}
    {error : Pattern.TemplateError} : rule.apply text = .error error ↔ rule.FailsOn text error := by
  rw [apply_eq_error_iff]
  constructor
  · rintro ⟨pattern, template, count, hfind, hparse⟩
    obtain ⟨hfound, earlier, later, hleaves, hearlier⟩ := List.find?_eq_some_iff_append.mp hfind
    refine .intro hleaves (by simpa using hearlier) hfound ?_
    rwa [Pattern.replace_eq_error_iff]
  · rintro ⟨hleaves, hearlier, hfound, hexpand⟩
    rw [Pattern.replace_eq_error_iff] at hexpand
    refine ⟨_, _, _, List.find?_eq_some_iff_append.mpr ⟨hfound, _, _, hleaves, ?_⟩, hexpand⟩
    simpa using hearlier

/-- Reads the template of a leaf. -/
def Rule.readsTemplate : Rule → Bool
  | .replace pattern template _ => (Pattern.Template.parse pattern template).toBool
  | _ => true

/-- The first boundary that applies to the two texts has a template that cannot be expanded. -/
inductive Boundary.FailsOn (boundaries : List Boundary) (left right : String)
    (error : Pattern.TemplateError) : Prop
  | left {earlier later : List Boundary} {boundary : Boundary}
      (hboundaries : boundaries = earlier ++ boundary :: later)
      (hearlier : ∀ other ∈ earlier, other.applies left right = false)
      (hleft : boundary.leftPattern.isFound left = true)
      (hright : boundary.rightPattern.isFound right = true)
      (hexpand : boundary.leftPattern.replace boundary.leftTemplate 1 left = .error error) :
      FailsOn boundaries left right error
  | right {earlier later : List Boundary} {boundary : Boundary} {changed : String}
      (hboundaries : boundaries = earlier ++ boundary :: later)
      (hearlier : ∀ other ∈ earlier, other.applies left right = false)
      (hleft : boundary.leftPattern.isFound left = true)
      (hright : boundary.rightPattern.isFound right = true)
      (hchanged : boundary.leftPattern.replace boundary.leftTemplate 1 left = .ok changed)
      (hexpand : boundary.rightPattern.replace boundary.rightTemplate 1 right = .error error) :
      FailsOn boundaries left right error

theorem Boundary.joinFirst_eq_error_iff_failsOn {boundaries : List Boundary} {left right : String}
    {error : Pattern.TemplateError} :
    joinFirst boundaries left right = .error error ↔ FailsOn boundaries left right error := by
  unfold joinFirst
  constructor
  · intro h
    cases hfind : boundaries.find? fun boundary => boundary.applies left right with
    | none =>
        rw [hfind] at h
        cases h
    | some boundary =>
        rw [hfind] at h
        obtain ⟨happlies, earlier, later, hboundaries, hearlier⟩ :=
          List.find?_eq_some_iff_append.mp hfind
        obtain ⟨hleft, hright⟩ := Bool.and_eq_true_iff.mp happlies
        have hnone : ∀ other ∈ earlier, other.applies left right = false := by
          simpa using hearlier
        rcases bind_eq_error_iff.mp h with hexpand | ⟨changed, hchanged, h⟩
        · exact .left hboundaries hnone hleft hright hexpand
        · rcases bind_eq_error_iff.mp h with hexpand | ⟨_, _, h⟩
          · exact .right hboundaries hnone hleft hright hchanged hexpand
          · cases h
  · have hfind : ∀ {earlier later : List Boundary} {boundary : Boundary},
        boundaries = earlier ++ boundary :: later →
        (∀ other ∈ earlier, other.applies left right = false) →
        boundary.leftPattern.isFound left = true → boundary.rightPattern.isFound right = true →
        boundaries.find? (fun boundary => boundary.applies left right) = some boundary := by
      intro earlier later boundary hboundaries hearlier hleft hright
      refine List.find?_eq_some_iff_append.mpr
        ⟨Bool.and_eq_true_iff.mpr ⟨hleft, hright⟩, earlier, later, hboundaries, ?_⟩
      simpa using hearlier
    intro h
    cases h with
    | left hboundaries hearlier hleft hright hexpand =>
        rw [hfind hboundaries hearlier hleft hright]
        exact bind_eq_error_iff.mpr (.inl hexpand)
    | right hboundaries hearlier hleft hright hchanged hexpand =>
        rw [hfind hboundaries hearlier hleft hright]
        exact bind_eq_error_iff.mpr
          (.inr ⟨_, hchanged, bind_eq_error_iff.mpr (.inl hexpand)⟩)

namespace Morphology

variable {morphology : Morphology} {e : TranslationError}

theorem inflectOnce_eq_error_iff {text name : String} :
    morphology.inflectOnce text name = .error e ↔
      ∃ rule error, morphology.inflector? name = some rule ∧ rule.FailsOn text error ∧
        e = .template error := by
  unfold inflectOnce
  simp only [← Rule.apply_eq_error_iff_failsOn]
  cases morphology.inflector? name with
  | none => simp
  | some rule =>
      cases happly : rule.apply text with
      | error error => simp [happly, eq_comm]
      | ok changed => simp [happly]

/-- An inflection fails at the first of its names whose rule fails on the text so far. -/
theorem inflect_eq_error_iff {text : String} {names : List String} :
    morphology.inflect text names = .error e ↔
      ∃ before name after changed rule error, names = before ++ name :: after ∧
        morphology.inflect text before = .ok changed ∧ morphology.inflector? name = some rule ∧
          rule.FailsOn changed error ∧ e = .template error := by
  simp only [← foldlM_inflectOnce, foldlM_eq_error_iff, inflectOnce_eq_error_iff]
  constructor
  · rintro ⟨before, name, after, changed, hnames, hbefore, rule, error, hrule, hfails, he⟩
    exact ⟨before, name, after, changed, rule, error, hnames, hbefore, hrule, hfails, he⟩
  · rintro ⟨before, name, after, changed, rule, error, hnames, hbefore, hrule, hfails, he⟩
    exact ⟨before, name, after, changed, hnames, hbefore, rule, error, hrule, hfails, he⟩

theorem join_eq_error_iff {left right : String} :
    morphology.join left right = .error e ↔
      ∃ error, Boundary.FailsOn morphology.boundaries left right error ∧ e = .template error := by
  unfold join
  simp only [← Boundary.joinFirst_eq_error_iff_failsOn]
  cases Boundary.joinFirst morphology.boundaries left right with
  | ok joined => simp
  | error error => simp [eq_comm]

/-- Every template is a row of characters and escapes for the pattern it belongs to. -/
structure TemplatesWellFormed (morphology : Morphology) : Prop where
  replacements : ∀ {name : String} {rule : Rule} {pattern : Pattern} {template : String}
    {count : Int}, morphology.inflector? name = some rule →
      .replace pattern template count ∈ rule.leaves →
        Pattern.Template.WellFormed pattern template.toList
  boundaries : ∀ boundary ∈ morphology.boundaries,
    Pattern.Template.WellFormed boundary.leftPattern boundary.leftTemplate.toList ∧
      Pattern.Template.WellFormed boundary.rightPattern boundary.rightTemplate.toList

/-- Reads every template. -/
def readsTemplates (morphology : Morphology) : Bool :=
  (morphology.inflections.entries.all fun entry => entry.2.leaves.all Rule.readsTemplate) &&
    morphology.boundaries.all fun boundary =>
      (Pattern.Template.parse boundary.leftPattern boundary.leftTemplate).toBool &&
        (Pattern.Template.parse boundary.rightPattern boundary.rightTemplate).toBool

theorem templatesWellFormed_of_readsTemplates (h : morphology.readsTemplates = true) :
    morphology.TemplatesWellFormed := by
  have hwritten : ∀ {pattern : Pattern} {template : String},
      (Pattern.Template.parse pattern template).toBool = true →
        Pattern.Template.WellFormed pattern template.toList := by
    intro pattern template hbool
    rw [← Pattern.reads_iff_wellFormed, Pattern.reads_iff]
    intro error herror
    rw [herror] at hbool
    cases hbool
  simp only [readsTemplates, Bool.and_eq_true, List.all_eq_true] at h
  obtain ⟨hinflections, hboundaries⟩ := h
  constructor
  · intro name rule pattern template count hrule hleaf
    have hentry : (name, rule) ∈ morphology.inflections.entries := mem_of_lookup hrule
    exact hwritten (hinflections _ hentry _ hleaf)
  · intro boundary hboundary
    obtain ⟨hleft, hright⟩ := hboundaries boundary hboundary
    exact ⟨hwritten hleft, hwritten hright⟩

end Morphology

/-- No lexeme has a text where a gloss is due. -/
def Index.WellTyped (index : Index) : Prop :=
  ∀ id gloss, index.get? id = some gloss → gloss.WellTyped

namespace Translator

variable {translator : Translator}

theorem Calls.wellTyped {caller callee : Call} (h : translator.Calls caller callee)
    (hindex : translator.index.WellTyped) (hcaller : caller.gloss.WellTyped) :
    callee.gloss.WellTyped := by
  cases h with
  | followed hfound _ _ => exact hindex _ _ hfound
  | stem => exact hcaller
  | first => exact (Gloss.allWellTyped_iff _).mp hcaller _ (by simp)
  | next _ => exact (Gloss.allWellTyped_iff _).mp hcaller _ (by simp)

def Fails (translator : Translator) (call : Call) (e : TranslationError) : Prop :=
  translator.translateAt call.path call.depth call.gloss = .error e

/-! ## Compounds as folds -/

/-- Joins the translation of one more element of a compound. -/
def joinNext (translator : Translator) (path : List String) (depth : Nat) (joined : String)
    (gloss : Gloss) : Except TranslationError String :=
  translator.translateAt path (depth + 1) gloss >>= fun text =>
    translator.morphology.join joined text

theorem translateAt_compound_eq_foldlM (path : List String) (depth : Nat) (first : Gloss)
    (others : List Gloss) :
    translator.translateAt path depth (.compound (first :: others)) =
      translator.translateAt path (depth + 1) first >>= fun text =>
        others.foldlM (translator.joinNext path depth) text := by
  induction others using List.reverseRecOn with
  | nil =>
      rw [translateAt_compound_singleton]
      exact (bind_pure _).symm
  | append_singleton before gloss ih =>
      rw [translateAt_compound_concat, ih, bind_assoc]
      congr 1
      funext text
      rw [List.foldlM_append]
      congr 1
      funext joined
      exact (bind_pure _).symm

/-- A compound fails at its first element, or after the elements before it are joined at a further
one or at the joining of this one. -/
theorem fails_compound_iff {first : Gloss} {others : List Gloss} {path : List String}
    {depth : Nat} {e : TranslationError} :
    translator.Fails ⟨.compound (first :: others), path, depth⟩ e ↔
      translator.Fails ⟨first, path, depth + 1⟩ e ∨
        ∃ before gloss after left, others = before ++ gloss :: after ∧
          translator.translateAt path depth (.compound (first :: before)) = .ok left ∧
            (translator.Fails ⟨gloss, path, depth + 1⟩ e ∨
              ∃ right, translator.translateAt path (depth + 1) gloss = .ok right ∧
                translator.morphology.join left right = .error e) := by
  unfold Fails
  simp only [translateAt_compound_eq_foldlM]
  constructor
  · intro h
    rcases bind_eq_error_iff.mp h with hfirst | ⟨text, hfirst, h⟩
    · exact .inl hfirst
    · obtain ⟨before, gloss, after, left, hothers, hleft, h⟩ := foldlM_eq_error_iff.mp h
      refine .inr ⟨before, gloss, after, left, hothers, ?_, bind_eq_error_iff.mp h⟩
      rw [hfirst, ok_bind, hleft]
  · rintro (hfirst | ⟨before, gloss, after, left, hothers, hleft, h⟩)
    · exact bind_eq_error_iff.mpr (.inl hfirst)
    · obtain ⟨text, hfirst, hleft⟩ := bind_eq_ok_iff.mp hleft
      have hnext := foldlM_eq_error_iff.mpr
        ⟨before, gloss, after, left, hothers, hleft, bind_eq_error_iff.mpr h⟩
      exact bind_eq_error_iff.mpr (.inr ⟨text, hfirst, hnext⟩)

theorem fails_inflection_iff {stem : Gloss} {names path : List String} {depth : Nat}
    {e : TranslationError} :
    translator.Fails ⟨.inflection stem names, path, depth⟩ e ↔
      translator.Fails ⟨stem, path, depth + 1⟩ e ∨
        ∃ error, e = .template error ∧
          ∃ before name after text rule, names = before ++ name :: after ∧
            translator.translateAt path depth (.inflection stem before) = .ok text ∧
              translator.morphology.inflector? name = some rule ∧ rule.FailsOn text error := by
  unfold Fails
  simp only [translateAt_inflection]
  constructor
  · intro h
    rcases bind_eq_error_iff.mp h with hstem | ⟨text, hstem, h⟩
    · exact .inl hstem
    · obtain ⟨before, name, after, changed, rule, error, hnames, hbefore, hrule, hfails, he⟩ :=
        Morphology.inflect_eq_error_iff.mp h
      refine .inr ⟨error, he, before, name, after, changed, rule, hnames, ?_, hrule, hfails⟩
      rw [hstem, ok_bind, hbefore]
  · rintro (hstem | ⟨error, he, before, name, after, changed, rule, hnames, htext, hrule, hfails⟩)
    · exact bind_eq_error_iff.mpr (.inl hstem)
    · obtain ⟨text, hstem, hbefore⟩ := bind_eq_ok_iff.mp htext
      have hinflect := Morphology.inflect_eq_error_iff.mpr
        ⟨before, name, after, changed, rule, error, hnames, hbefore, hrule, hfails, he⟩
      exact bind_eq_error_iff.mpr (.inr ⟨text, hstem, hinflect⟩)

/-- A pointer fails only where it is followed. -/
theorem fails_pointer_iff {id : String} {path : List String} {depth : Nat}
    {e : TranslationError} :
    translator.Fails ⟨.pointer id, path, depth⟩ e ↔
      ∃ callee, translator.Calls ⟨.pointer id, path, depth⟩ callee ∧ translator.Fails callee e := by
  constructor
  · intro h
    unfold Fails at h
    cases hfound : translator.index.get? id with
    | none => simp [translateAt_missing _ hfound] at h
    | some referent =>
        by_cases hpath : id ∈ path
        · simp [translateAt_cyclic _ hfound hpath] at h
        by_cases hdepth : translator.maxDepth ≤ depth
        · simp [translateAt_tooDeep _ hfound hpath hdepth] at h
        have hbelow := Nat.lt_of_not_le hdepth
        rw [translateAt_followed _ hfound hpath hbelow] at h
        exact ⟨⟨referent, path ++ [id], depth + 1⟩, .followed hfound hpath hbelow, h⟩
  · rintro ⟨callee, hcalls, hfails⟩
    cases hcalls with
    | followed hfound hpath hdepth =>
        unfold Fails
        rw [translateAt_followed _ hfound hpath hdepth]
        exact hfails

/-! ## Calls that fail -/

/-- A call at which the template of a rule cannot be expanded: that of an inflection at one of its
names, and that of a compound at one of its elements. -/
inductive RaisesAt (translator : Translator) : Call → Pattern.TemplateError → Prop
  | inflected {stem : Gloss} {before after : List String} {name text : String} {rule : Rule}
      {path : List String} {depth : Nat} {error : Pattern.TemplateError}
      (htext : translator.translateAt path depth (.inflection stem before) = .ok text)
      (hrule : translator.morphology.inflector? name = some rule)
      (hfails : rule.FailsOn text error) :
      RaisesAt translator ⟨.inflection stem (before ++ name :: after), path, depth⟩ error
  | joined {first gloss : Gloss} {before after : List Gloss} {left right : String}
      {path : List String} {depth : Nat} {error : Pattern.TemplateError}
      (hleft : translator.translateAt path depth (.compound (first :: before)) = .ok left)
      (hright : translator.translateAt path (depth + 1) gloss = .ok right)
      (hfails : Boundary.FailsOn translator.morphology.boundaries left right error) :
      RaisesAt translator ⟨.compound (first :: (before ++ gloss :: after)), path, depth⟩ error

theorem RaisesAt.fails {call : Call} {error : Pattern.TemplateError}
    (h : translator.RaisesAt call error) : translator.Fails call (.template error) := by
  cases h with
  | inflected htext hrule hfails =>
      exact fails_inflection_iff.mpr (.inr ⟨error, rfl, _, _, _, _, _, rfl, htext, hrule, hfails⟩)
  | joined hleft hright hfails =>
      have hjoin := Morphology.join_eq_error_iff.mpr ⟨error, hfails, rfl⟩
      exact fails_compound_iff.mpr
        (.inr ⟨_, _, _, _, rfl, hleft, .inr ⟨_, hright, hjoin⟩⟩)

/-- The error of a callee is that of its caller. -/
theorem Calls.fails {caller callee : Call} (h : translator.Calls caller callee)
    {e : TranslationError} (hfails : translator.Fails callee e) : translator.Fails caller e := by
  cases h with
  | followed hfound hpath hdepth =>
      exact fails_pointer_iff.mpr ⟨_, .followed hfound hpath hdepth, hfails⟩
  | stem => exact fails_inflection_iff.mpr (.inl hfails)
  | first => exact fails_compound_iff.mpr (.inl hfails)
  | next hjoined => exact fails_compound_iff.mpr (.inr ⟨_, _, _, _, rfl, hjoined, .inl hfails⟩)

theorem Reaches.fails {caller callee : Call} (h : translator.Reaches caller callee)
    {e : TranslationError} (hfails : translator.Fails callee e) : translator.Fails caller e := by
  induction h using Relation.ReflTransGen.head_induction_on with
  | refl => exact hfails
  | head hcalls _ ih => exact hcalls.fails ih

/-- A call that fails raises the error itself, or one that it makes fails. -/
theorem Fails.step {call : Call} {e : TranslationError} (h : translator.Fails call e)
    (hgloss : call.gloss.WellTyped) :
    (∃ error, e = .template error ∧ translator.RaisesAt call error) ∨
      ∃ callee, translator.Calls call callee ∧ translator.Fails callee e := by
  obtain ⟨gloss, path, depth⟩ := call
  cases gloss with
  | literal text => simp [Fails] at h
  | stray text => exact hgloss.elim
  | pointer id => exact .inr (fails_pointer_iff.mp h)
  | inflection stem names =>
      rcases fails_inflection_iff.mp h with hstem |
        ⟨error, he, before, name, after, text, rule, rfl, htext, hrule, hfails⟩
      · exact .inr ⟨⟨stem, path, depth + 1⟩, .stem, hstem⟩
      · exact .inl ⟨error, he, .inflected htext hrule hfails⟩
  | compound elements =>
      cases elements with
      | nil => simp [Fails] at h
      | cons first others =>
          rcases fails_compound_iff.mp h with hfirst |
            ⟨before, gloss, after, left, rfl, hleft, hgloss | ⟨right, hright, hjoin⟩⟩
          · exact .inr ⟨⟨first, path, depth + 1⟩, .first, hfirst⟩
          · exact .inr ⟨⟨gloss, path, depth + 1⟩, .next hleft, hgloss⟩
          · obtain ⟨error, hfails, he⟩ := Morphology.join_eq_error_iff.mp hjoin
            exact .inl ⟨error, he, .joined hleft hright hfails⟩

/-- A call fails if and only if a call on the way raises the error. -/
theorem fails_iff (hindex : translator.index.WellTyped) {call : Call}
    (hgloss : call.gloss.WellTyped) {e : TranslationError} :
    translator.Fails call e ↔
      ∃ error callee, e = .template error ∧ translator.Reaches call callee ∧
        translator.RaisesAt callee error := by
  constructor
  · intro h
    induction call using translator.calls_wellFounded.induction with
    | h call ih =>
        rcases h.step hgloss with ⟨error, he, hraises⟩ | ⟨callee, hcalls, hfails⟩
        · exact ⟨error, call, he, .refl, hraises⟩
        · obtain ⟨error, last, he, hreaches, hraises⟩ :=
            ih callee hcalls (hcalls.wellTyped hindex hgloss) hfails
          exact ⟨error, last, he, .head hcalls hreaches, hraises⟩
  · rintro ⟨error, callee, rfl, hreaches, hraises⟩
    exact hreaches.fails hraises.fails

theorem RaisesAt.not_wellFormed {call : Call} {error : Pattern.TemplateError}
    (h : translator.RaisesAt call error) : ¬ translator.morphology.TemplatesWellFormed := by
  intro hwellFormed
  have hreads : ∀ {pattern : Pattern} {template text : String} {count : Int},
      Pattern.Template.WellFormed pattern template.toList →
        pattern.replace template count text ≠ .error error := by
    intro pattern template text count hwritten hexpand
    rw [Pattern.replace_eq_error_iff] at hexpand
    exact Pattern.reads_iff.mp ((pattern.reads_iff_wellFormed template).mpr hwritten) error hexpand
  cases h with
  | inflected _ hrule hfails =>
      cases hfails with
      | @intro earlier later pattern template count hleaves _ _ hexpand =>
          have hleaf :
              .replace pattern template count ∈
                earlier ++ .replace pattern template count :: later := by simp
          exact hreads (hwellFormed.replacements hrule (hleaves ▸ hleaf)) hexpand
  | joined _ _ hfails =>
      cases hfails with
      | left hboundaries _ _ _ hexpand =>
          exact hreads (hwellFormed.boundaries _ (by rw [hboundaries]; simp)).1 hexpand
      | right hboundaries _ _ _ _ hexpand =>
          exact hreads (hwellFormed.boundaries _ (by rw [hboundaries]; simp)).2 hexpand

/-- A translation fails if and only if some call on the way runs a rule whose template cannot be
expanded, and its error is that of this template.  So nothing fails when all templates are rows of
characters and escapes. -/
theorem translate_fails_at_templates (translator : Translator)
    (hindex : translator.index.WellTyped) {gloss : Gloss} (hgloss : gloss.WellTyped) :
    (∀ e, translator.translate gloss = .error e ↔
      ∃ error call, e = .template error ∧ translator.Reaches ⟨gloss, [], 0⟩ call ∧
        translator.RaisesAt call error) ∧
      (translator.morphology.TemplatesWellFormed →
        ∃ text, translator.translate gloss = .ok text) := by
  have hfails : ∀ e, translator.translate gloss = .error e ↔
      ∃ error call, e = .template error ∧ translator.Reaches ⟨gloss, [], 0⟩ call ∧
        translator.RaisesAt call error := by
    have hstart : (⟨gloss, [], 0⟩ : Call).gloss.WellTyped := hgloss
    exact fun e => fails_iff hindex hstart
  refine ⟨hfails, ?_⟩
  intro hwellFormed
  cases htranslate : translator.translate gloss with
  | ok text => exact ⟨text, rfl⟩
  | error e =>
      obtain ⟨error, call, -, -, hraises⟩ := (hfails e).mp htranslate
      exact absurd hwellFormed hraises.not_wellFormed

section Doubling

attribute [local instance] Unicode.Names.none

/-- The plural doubles the last character, and a hyphen is put where two parts meet. -/
def doublingTexts : RuleTexts where
  inflections := .ofList [("PL", [⟨"(.)$", "\\1\\g<1>"⟩])]
  boundaries := [⟨"(?P<end>.)$", "^", "\\g<end>-", ""⟩]

/-- A lexeme that refers to itself and to a missing one. -/
def loop : Lexeme :=
  ⟨"loop", .compound [.pointer "loop", .pointer "none"], "", []⟩

theorem translate_fails_at_templates_doubling :
    ∃ morphology, Morphology.build doublingTexts = .ok morphology ∧
      morphology.TemplatesWellFormed ∧ ∃ text,
        translate ⟨.build [loop], morphology, 1, by decide⟩
          (.inflection (.pointer "loop") ["PL", "GEN"]) = .ok text := by
  have hreads : (Morphology.build doublingTexts).toOption.map Morphology.readsTemplates =
      some true := by decide +kernel
  cases hbuild : Morphology.build doublingTexts with
  | error error => simp [hbuild, Except.toOption] at hreads
  | ok morphology =>
      have hwellFormed : morphology.TemplatesWellFormed :=
        Morphology.templatesWellFormed_of_readsTemplates
          (by simpa [hbuild, Except.toOption] using hreads)
      have hindex : Index.WellTyped (.build [loop]) := by
        intro id gloss hfound
        have hmem : (id, gloss) ∈ [(loop.id, loop.translation)] := mem_of_lookup hfound
        obtain ⟨-, rfl⟩ := Prod.mk.inj (List.mem_singleton.mp hmem)
        exact ⟨trivial, trivial, trivial⟩
      have hgloss : (Gloss.inflection (.pointer "loop") ["PL", "GEN"]).WellTyped := trivial
      obtain ⟨-, htranslates⟩ :=
        translate_fails_at_templates ⟨.build [loop], morphology, 1, by decide⟩ hindex hgloss
      exact ⟨morphology, rfl, hwellFormed, htranslates hwellFormed⟩

end Doubling

end Translator

end Interlinear
