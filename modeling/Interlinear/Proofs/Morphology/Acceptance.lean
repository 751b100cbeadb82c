import Interlinear.Proofs.Dictionary
import Interlinear.Proofs.Morphology.Reports
import Interlinear.Proofs.Rows

/-!
# Which values are configurations

A value describes rule texts when it is written as the format says, each rule as a list of texts of
which the first ones compile.  Rule texts follow the value: rules stand in its order, and so do the
names, where a name that comes up again has its first place and its last rules.

A value that describes nothing has a first fault.  Everything before its place is as it should be:
the entries of the inflections, the rules of a list, and in a rule the parts before the patterns.
The check accepts what describes something, with just the texts described, and reports the first
fault of everything else.

Each function of the check decides its part of a value.  That is put together along the steps of the
function, so a lemma about one of them is about its own step.
-/

namespace Interlinear.Morphology.Config

open Outcome Yaml.Value

variable {α β γ : Type}

/-! ## What is written -/

section Descriptions

variable [Unicode.Names]

structure WritesParts (parts : Nat) (value : Yaml.Value) (texts : List String) : Prop where
  value_eq : value = .list (texts.map .text)
  length_eq : texts.length = parts

/-- A rule of so many texts, the first ones patterns. -/
structure WritesRule (parts patterns : Nat) (value : Yaml.Value) (texts : List String) : Prop
    extends WritesParts parts value texts where
  compile : ∀ source ∈ texts.take patterns, Compiles source

def WritesReplacement (value : Yaml.Value) (rule : ReplacementText) : Prop :=
  WritesRule 2 1 value [rule.pattern, rule.template]

def WritesBoundary (value : Yaml.Value) (rule : BoundaryText) : Prop :=
  WritesRule 4 2 value
    [rule.leftPattern, rule.rightPattern, rule.leftTemplate, rule.rightTemplate]

def WritesRow (Writes : Yaml.Value → α → Prop) (value : Yaml.Value) (rules : List α) : Prop :=
  ∃ items, value = .list items ∧ List.Forall₂ Writes items rules

def WritesInflection (entry : Yaml.Value × Yaml.Value)
    (row : String × List ReplacementText) : Prop :=
  entry.1.name = .ok row.1 ∧ WritesRow WritesReplacement entry.2 row.2

/-- Boundary rules may be left out. -/
inductive WritesCompound : Yaml.Value → List BoundaryText → Prop
  | absent : WritesCompound .null []
  | row {value : Yaml.Value} {boundaries : List BoundaryText}
      (hrow : WritesRow WritesBoundary value boundaries) : WritesCompound value boundaries

/-- A name has the place of the first row under it, and the rules of the last. -/
structure Collects (rows : List (String × List ReplacementText))
    (inflections : Dictionary String (List ReplacementText)) : Prop where
  keys_eq : inflections.keys = (rows.map Prod.fst).eraseDups
  get?_eq : ∀ name, inflections.get? name = rows.reverse.lookup name

/-- The value is a configuration, and these are the texts of its rules. -/
inductive Describes : Yaml.Value → RuleTexts → Prop
  | mapping {entries inner : List (Yaml.Value × Yaml.Value)}
      {rows : List (String × List ReplacementText)} {texts : RuleTexts}
      (hmember : member "inflections" entries = .mapping inner)
      (hinner : List.Forall₂ WritesInflection inner rows)
      (hrows : Collects rows texts.inflections)
      (hcompound : WritesCompound (member "compound" entries) texts.boundaries) :
      Describes (.mapping entries) texts

/-! ## The first fault -/

/-- A fault in a row, numbered from `i` on, where all before it is as it should be. -/
inductive FirstOf (Good : γ → Prop) (Fault : Nat → γ → Offence → Prop) (i : Nat) :
    List γ → Offence → Prop
  | mk {before after : List γ} {place : γ} {offence : Offence}
      (hbefore : ∀ other ∈ before, Good other)
      (hplace : Fault (i + before.length) place offence) :
      FirstOf Good Fault i (before ++ place :: after) offence

def IsText (value : Yaml.Value) : Prop :=
  ∃ s, value = .text s

def TextFault (path : String) (i : Nat) (value : Yaml.Value) (offence : Offence) : Prop :=
  ¬ IsText value ∧ offence = .shape (item path i) .string value path

/-- The first fault of a list of so many texts. -/
inductive PartsFault (parts : Nat) (wanted : Shape) (path : String) : Yaml.Value → Offence → Prop
  | shape {value : Yaml.Value} (h : ∀ items, value = .list items → items.length ≠ parts) :
      PartsFault parts wanted path value (.shape path wanted value path)
  | text {items : List Yaml.Value} {offence : Offence} (hlength : items.length = parts)
      (hitems : FirstOf IsText (TextFault path) 0 items offence) :
      PartsFault parts wanted path (.list items) offence

def PatternFault (path source : String) (offence : Offence) : Prop :=
  ∃ error, Pattern.compile source = .error error ∧ offence = .pattern path source error

/-- The first fault of a rule of so many texts, the first ones patterns. -/
inductive RuleFault (parts patterns : Nat) (wanted : Shape) (path : String) (value : Yaml.Value)
    (offence : Offence) : Prop
  | part (hparts : PartsFault parts wanted path value offence)
  | pattern {texts : List String} (hparts : WritesParts parts value texts)
      (htexts : FirstOf Compiles (fun i => PatternFault (item path i)) 0 (texts.take patterns)
        offence)

def ReplacementFault : String → Yaml.Value → Offence → Prop :=
  RuleFault 2 1 .replacement

def BoundaryFault : String → Yaml.Value → Offence → Prop :=
  RuleFault 4 2 .boundary

inductive RowFault (Writes : Yaml.Value → α → Prop)
    (Fault : String → Yaml.Value → Offence → Prop) (path : String) : Yaml.Value → Offence → Prop
  | shape {value : Yaml.Value} (h : ∀ items, value ≠ .list items) :
      RowFault Writes Fault path value (.shape path .array value path)
  | rule {items : List Yaml.Value} {offence : Offence}
      (hitems : FirstOf (fun value => ∃ rule, Writes value rule) (fun i => Fault (item path i)) 0
        items offence) :
      RowFault Writes Fault path (.list items) offence

def InflectionFault (entry : Yaml.Value × Yaml.Value) (offence : Offence) : Prop :=
  ∃ name, entry.1.name = .ok name ∧
    RowFault WritesReplacement ReplacementFault ("$.inflections." ++ name) entry.2 offence

inductive FirstFault : Yaml.Value → Offence → Prop
  | root {value : Yaml.Value} (h : ∀ entries, value ≠ .mapping entries) :
      FirstFault value (.shape "$" .object value "$")
  | inflections {entries : List (Yaml.Value × Yaml.Value)}
      (h : ∀ inner, member "inflections" entries ≠ .mapping inner) :
      FirstFault (.mapping entries)
        (.shape "$.inflections" .object (member "inflections" entries) "$.inflections")
  | inflection {entries inner : List (Yaml.Value × Yaml.Value)} {offence : Offence}
      (hmember : member "inflections" entries = .mapping inner)
      (hinner : FirstOf (fun entry => ∃ row, WritesInflection entry row)
        (fun _ => InflectionFault) 0 inner offence) :
      FirstFault (.mapping entries) offence
  | compound {entries inner : List (Yaml.Value × Yaml.Value)} {offence : Offence}
      (hmember : member "inflections" entries = .mapping inner)
      (hinner : ∀ entry ∈ inner, ∃ row, WritesInflection entry row)
      (hpresent : member "compound" entries ≠ .null)
      (hcompound : RowFault WritesBoundary BoundaryFault "$.compound" (member "compound" entries)
        offence) :
      FirstFault (.mapping entries) offence

end Descriptions

section Rows

variable {Good : γ → Prop} {Fault : Nat → γ → Offence → Prop}

theorem not_firstOf_nil (i : Nat) (offence : Offence) : ¬ FirstOf Good Fault i [] offence := by
  intro h
  generalize hvalues : ([] : List γ) = values at h
  cases h
  simp at hvalues

theorem FirstOf.here {i : Nat} {place : γ} {others : List γ} {offence : Offence}
    (hplace : Fault i place offence) : FirstOf Good Fault i (place :: others) offence := by
  rw [← List.nil_append (place :: others)]
  exact .mk (by simp) hplace

theorem FirstOf.later {i : Nat} {place : γ} {others : List γ} {offence : Offence}
    (hgood : Good place) (hothers : FirstOf Good Fault (i + 1) others offence) :
    FirstOf Good Fault i (place :: others) offence := by
  obtain ⟨hbefore, hplace⟩ := hothers
  rw [← List.cons_append]
  refine .mk (List.forall_mem_cons.mpr ⟨hgood, hbefore⟩) ?_
  rwa [List.length_cons, Nat.add_comm _ 1, ← Nat.add_assoc]

theorem firstOf_cons_iff {i : Nat} {place : γ} {others : List γ} {offence : Offence} :
    FirstOf Good Fault i (place :: others) offence ↔
      Fault i place offence ∨ Good place ∧ FirstOf Good Fault (i + 1) others offence := by
  constructor
  · intro h
    generalize hvalues : place :: others = values at h
    obtain ⟨hbefore, hplace⟩ := h
    rename_i before _ _
    cases before with
    | nil =>
        obtain ⟨rfl, rfl⟩ := List.cons.inj hvalues
        exact .inl hplace
    | cons first before =>
        obtain ⟨rfl, rfl⟩ := List.cons.inj hvalues
        obtain ⟨hfirst, hrest⟩ := List.forall_mem_cons.mp hbefore
        refine .inr ⟨hfirst, .mk hrest ?_⟩
        rwa [Nat.add_assoc, Nat.add_comm 1]
  · rintro (hplace | ⟨hgood, hothers⟩)
    · exact .here hplace
    · exact .later hgood hothers

end Rows

/-! ## Steps that decide -/

/-- The outcome is what is written, and the error of the first fault where nothing is. -/
structure Decides (outcome : Except Error α) (Writes : α → Prop) (Fault : Offence → Prop) :
    Prop where
  eq_ok_iff : ∀ a, outcome = .ok a ↔ Writes a
  of_fault : ∀ offence, Fault offence → outcome = .error offence.error
  exists_fault : ∀ error, outcome = .error error → ∃ offence, Fault offence

namespace Decides

theorem ok (a : α) : Decides (.ok a) (· = a) fun _ => False where
  eq_ok_iff _ := by rw [Except.ok.injEq, eq_comm]
  of_fault := by simp
  exists_fault := by simp

theorem error (offence : Offence) :
    Decides (.error offence.error : Except Error α) (fun _ => False) (· = offence) where
  eq_ok_iff := by simp
  of_fault _ h := by rw [h]
  exists_fault _ _ := ⟨offence, rfl⟩

variable {Writes : α → Prop} {Fault : Offence → Prop}

theorem congr {outcome : Except Error α} {Writes' : α → Prop} {Fault' : Offence → Prop}
    (h : Decides outcome Writes Fault) (hwrites : ∀ a, Writes a ↔ Writes' a)
    (hfault : ∀ offence, Fault offence ↔ Fault' offence) : Decides outcome Writes' Fault' := by
  obtain rfl : Writes = Writes' := funext fun a => propext (hwrites a)
  obtain rfl : Fault = Fault' := funext fun offence => propext (hfault offence)
  exact h

theorem bind_ok {first : Except Error α} (hfirst : Decides first Writes Fault) (result : α → β) :
    Decides (first >>= fun a => .ok (result a)) (fun b => ∃ a, Writes a ∧ b = result a) Fault where
  eq_ok_iff b := by
    rw [bind_eq_ok_iff]
    simp only [hfirst.eq_ok_iff, Except.ok.injEq, eq_comm]
  of_fault offence hoffence := by rw [hfirst.of_fault offence hoffence, error_bind]
  exists_fault error herror := by
    refine hfirst.exists_fault error ?_
    simpa [bind_eq_error_iff] using herror

/-- A fault of the second step counts where the first has written its part. -/
theorem bind {first : Except Error α} {step : α → Except Error β} {Writes' : α → β → Prop}
    {Fault' : α → Offence → Prop} (hfirst : Decides first Writes Fault)
    (hstep : ∀ a, Writes a → Decides (step a) (Writes' a) (Fault' a)) :
    Decides (first >>= step) (fun b => ∃ a, Writes a ∧ Writes' a b)
      (fun offence => Fault offence ∨ ∃ a, Writes a ∧ Fault' a offence) where
  eq_ok_iff b := by
    rw [bind_eq_ok_iff]
    refine exists_congr fun a => ?_
    rw [hfirst.eq_ok_iff]
    exact and_congr_right fun ha => (hstep a ha).eq_ok_iff b
  of_fault offence := by
    rintro (hoffence | ⟨a, ha, hoffence⟩)
    · rw [hfirst.of_fault offence hoffence, error_bind]
    · rw [(hfirst.eq_ok_iff a).mpr ha, ok_bind, (hstep a ha).of_fault offence hoffence]
  exists_fault error herror := by
    rcases bind_eq_error_iff.mp herror with herror | ⟨a, ha, herror⟩
    · obtain ⟨offence, hoffence⟩ := hfirst.exists_fault error herror
      exact ⟨offence, .inl hoffence⟩
    · have hwrites := (hfirst.eq_ok_iff a).mp ha
      obtain ⟨offence, hoffence⟩ := (hstep a hwrites).exists_fault error herror
      exact ⟨offence, .inr ⟨a, hwrites, hoffence⟩⟩

section Rows

variable {Writes : γ → α → Prop} {Fault : Nat → γ → Offence → Prop} {i : Nat}

theorem nil : Decides (.ok [] : Except Error (List α)) (List.Forall₂ Writes [])
    (FirstOf (fun place => ∃ a, Writes place a) Fault i []) :=
  (Decides.ok []).congr (fun _ => List.forall₂_nil_left_iff.symm)
    fun offence => (iff_false_intro (not_firstOf_nil i offence)).symm

/-- A row is decided by its first place and by the others. -/
theorem cons {place : γ} {others : List γ} {first : Except Error α}
    {rest : Except Error (List α)} (hfirst : Decides first (Writes place) (Fault i place))
    (hrest : Decides rest (List.Forall₂ Writes others)
      (FirstOf (fun place => ∃ a, Writes place a) Fault (i + 1) others)) :
    Decides (first >>= fun a => rest >>= fun as => .ok (a :: as))
      (List.Forall₂ Writes (place :: others))
      (FirstOf (fun place => ∃ a, Writes place a) Fault i (place :: others)) := by
  refine (hfirst.bind fun a _ => hrest.bind_ok (a :: ·)).congr (fun as => ?_) fun offence => ?_
  · simp only [List.forall₂_cons_left_iff, exists_and_left]
  · rw [firstOf_cons_iff, exists_and_right]

end Rows

end Decides

/-! ## The functions of the check -/

/-- A value of the wrong shape is a fault by itself. -/
theorem decides_wrongShape {place path : String} {wanted : Shape} {found : Yaml.Value} {P : Prop}
    {Writes : α → Prop} (hfound : P) (hwrites : ∀ a, ¬ Writes a) :
    Decides (.error (wrongShape place path wanted found) : Except Error α) Writes
      fun offence => P ∧ offence = .shape place wanted found path :=
  (Decides.error (.shape place wanted found path)).congr
    (fun a => (iff_false_intro (hwrites a)).symm) fun _ => (and_iff_right hfound).symm

theorem decides_checkTexts {values : List Yaml.Value} (h : AllHaveText values) (path : String)
    (i : Nat) :
    Decides (checkTexts path i values) (List.Forall₂ (fun value s => value = .text s) values)
      (FirstOf IsText (TextFault path) i values) := by
  induction values generalizing i with
  | nil => exact .nil
  | cons value values ih =>
      rw [AllHaveText] at h
      have hrest := ih h.2 (i + 1)
      by_cases htext : IsText value
      · obtain ⟨s, rfl⟩ := htext
        have hfirst : Decides (.ok s : Except Error String)
            (fun other => Yaml.Value.text s = .text other) (TextFault path i (.text s)) := by
          refine (Decides.ok s).congr (fun other => ?_) fun offence => ?_
          · rw [Yaml.Value.text.injEq, eq_comm]
          · simp [TextFault, IsText]
        exact hfirst.cons hrest
      · have hfirst : Decides (.error (wrongShape (item path i) path .string value))
            (fun s => value = .text s) (TextFault path i value) :=
          decides_wrongShape htext fun s hvalue => htext ⟨s, hvalue⟩
        -- What follows a value that is no text is not looked at.
        have hcheck : checkTexts path i (value :: values) =
            .error (wrongShape (item path i) path .string value) := by
          rw [checkTexts, h.1.untied]
          split
          · exact absurd ⟨_, rfl⟩ htext
          · rfl
        rw [hcheck]
        exact hfirst.cons hrest

theorem forall₂_text_iff {values : List Yaml.Value} {texts : List String} :
    List.Forall₂ (fun value s => value = Yaml.Value.text s) values texts ↔
      values = texts.map .text := by
  rw [← List.forall₂_map_right_iff, List.forall₂_eq_eq_eq]

theorem decides_wrongParts {value : Yaml.Value} {parts : Nat}
    (hshape : ∀ items, value = .list items → items.length ≠ parts) (path : String)
    (wanted : Shape) :
    Decides (.error (wrongShape path path wanted value)) (WritesParts parts value)
      (PartsFault parts wanted path value) := by
  refine (decides_wrongShape hshape ?_).congr (fun _ => Iff.rfl) fun offence => ?_
  · rintro texts ⟨hvalue, hlength⟩
    exact hshape _ hvalue (by rw [List.length_map, hlength])
  · constructor
    · rintro ⟨-, rfl⟩
      exact .shape hshape
    · rintro (- | ⟨hlength, -⟩)
      · exact ⟨hshape, rfl⟩
      · exact absurd hlength (hshape _ rfl)

theorem decides_checkRule {value : Yaml.Value} (h : value.HasText) (path : String) (parts : Nat)
    (wanted : Shape) :
    Decides (checkRule path parts wanted value) (WritesParts parts value)
      (PartsFault parts wanted path value) := by
  rw [checkRule, h.untied]
  split
  next items =>
      split
      next hlength =>
          rw [HasText] at h
          refine (decides_checkTexts h path 0).congr (fun texts => ?_) fun offence => ?_
          · rw [forall₂_text_iff]
            constructor
            · rintro rfl
              exact ⟨rfl, by rwa [List.length_map] at hlength⟩
            · rintro ⟨hvalue, -⟩
              exact Yaml.Value.list.inj hvalue
          · constructor
            · exact .text hlength
            · rintro (hshape | ⟨-, hitems⟩)
              · exact absurd hlength (hshape items rfl)
              · exact hitems
      next hlength =>
          refine decides_wrongParts (fun others hothers => ?_) path wanted
          obtain rfl := Yaml.Value.list.inj hothers
          exact hlength
  next hshape =>
      exact decides_wrongParts (fun items hvalue => absurd hvalue (hshape items)) path wanted

section Rows

variable {check : String → Yaml.Value → Except Error α}
variable {Writes : Yaml.Value → α → Prop} {Fault : String → Yaml.Value → Offence → Prop}

theorem decides_checkItems
    (hcheck : ∀ {value}, HasText value → ∀ path,
      Decides (check path value) (Writes value) (Fault path value))
    {values : List Yaml.Value} (h : AllHaveText values) (path : String) (i : Nat) :
    Decides (checkItems check path i values) (List.Forall₂ Writes values)
      (FirstOf (fun value => ∃ rule, Writes value rule) (fun i => Fault (item path i)) i
        values) := by
  induction values generalizing i with
  | nil => exact .nil
  | cons value values ih =>
      rw [AllHaveText] at h
      exact Decides.cons (hcheck h.1 (item path i)) (ih h.2 (i + 1))

theorem decides_checkRules
    (hcheck : ∀ {value}, HasText value → ∀ path,
      Decides (check path value) (Writes value) (Fault path value))
    {value : Yaml.Value} (h : value.HasText) (path : String) :
    Decides (checkRules check path value) (WritesRow Writes value)
      (RowFault Writes Fault path value) := by
  rw [checkRules, h.untied]
  split
  next items =>
      rw [HasText] at h
      refine (decides_checkItems hcheck h path 0).congr (fun rules => ?_) fun offence => ?_
      · simp [WritesRow]
      · constructor
        · exact .rule
        · rintro (hshape | hitems)
          · exact absurd rfl (hshape items)
          · exact hitems
  next hshape =>
      refine (decides_wrongShape (P := ∀ items, value ≠ .list items) hshape ?_).congr
        (fun rules => Iff.rfl) fun offence => ?_
      · rintro rules ⟨items, hvalue, -⟩
        exact hshape items hvalue
      · constructor
        · rintro ⟨-, rfl⟩
          exact .shape hshape
        · rintro (hshape | hitems)
          · exact ⟨hshape, rfl⟩
          · exact absurd rfl (hshape _)

end Rows

theorem decides_checkObject {value : Yaml.Value} (h : value.HasText) (path : String) :
    Decides (checkObject path value) (fun entries => value = .mapping entries)
      (fun offence => (∀ entries, value ≠ .mapping entries) ∧
        offence = .shape path .object value path) := by
  rw [checkObject, h.untied]
  split
  next entries =>
      refine (Decides.ok entries).congr (fun other => ?_) fun offence => ?_
      · rw [Yaml.Value.mapping.injEq, eq_comm]
      · simp
  next hshape => exact decides_wrongShape hshape hshape

theorem collects_iff {rows : List (String × List ReplacementText)}
    {inflections : Dictionary String (List ReplacementText)} :
    Collects rows inflections ↔ inflections = .ofList rows := by
  rw [Dictionary.eq_ofList_iff]
  constructor
  · rintro ⟨hkeys, hget⟩
    exact ⟨hkeys, hget⟩
  · rintro ⟨hkeys, hget⟩
    exact ⟨hkeys, hget⟩

section Checks

variable [Unicode.Names]

theorem decides_checkPattern (path source : String) :
    Decides (checkPattern path source) (fun _ => Compiles source) (PatternFault path source) := by
  rw [checkPattern]
  cases hcompile : Pattern.compile source with
  | ok pattern =>
      refine (Decides.ok ()).congr (fun _ => ?_) fun offence => ?_
      · simp [Compiles, hcompile]
      · simp [PatternFault, hcompile]
  | error error =>
      have herror : Decides (.error (Offence.pattern path source error).error : Except Error Unit)
          (fun _ => Compiles source) (PatternFault path source) := by
        refine (Decides.error _).congr (fun _ => ?_) fun offence => ?_
        · simp [Compiles, hcompile]
        · simp [PatternFault, hcompile]
      -- Whatever a pattern is refused for, the error is that of one offence.
      cases error <;> exact herror

/-- A rule is decided by its parts, and then by its patterns. -/
theorem decides_rule {value : Yaml.Value} (h : value.HasText) (path : String)
    {parts patterns : Nat} (wanted : Shape) (textsOf : α → List String)
    {step : List String → Except Error α}
    (hstep : ∀ texts, texts.length = parts →
      Decides (step texts)
        (fun rule => textsOf rule = texts ∧ ∀ source ∈ texts.take patterns, Compiles source)
        (FirstOf Compiles (fun i => PatternFault (item path i)) 0 (texts.take patterns))) :
    Decides (checkRule path parts wanted value >>= step)
      (fun rule => WritesRule parts patterns value (textsOf rule))
      (RuleFault parts patterns wanted path value) := by
  refine ((decides_checkRule h path parts wanted).bind fun texts htexts =>
    hstep texts htexts.length_eq).congr (fun rule => ?_) fun offence => ?_
  · constructor
    · rintro ⟨_, hparts, rfl, hcompile⟩
      exact ⟨hparts, hcompile⟩
    · rintro ⟨hparts, hcompile⟩
      exact ⟨_, hparts, rfl, hcompile⟩
  · constructor
    · rintro (hparts | ⟨texts, hparts, htexts⟩)
      · exact .part hparts
      · exact .pattern hparts htexts
    · rintro (hparts | ⟨hparts, htexts⟩)
      · exact .inl hparts
      · exact .inr ⟨_, hparts, htexts⟩

theorem decides_checkReplacement {value : Yaml.Value} (h : value.HasText) (path : String) :
    Decides (checkReplacement path value) (WritesReplacement value)
      (ReplacementFault path value) := by
  rw [checkReplacement]
  refine decides_rule h path .replacement
    (fun rule : ReplacementText => [rule.pattern, rule.template]) fun texts hlength => ?_
  obtain ⟨pattern, template, rfl⟩ := List.length_eq_two.mp hlength
  refine ((decides_checkPattern (item path 0) pattern).bind_ok _).congr
    (fun rule => ?_) fun offence => ?_
  · cases rule
    simp [and_comm]
  · simp [firstOf_cons_iff, not_firstOf_nil]

theorem decides_checkBoundary {value : Yaml.Value} (h : value.HasText) (path : String) :
    Decides (checkBoundary path value) (WritesBoundary value) (BoundaryFault path value) := by
  rw [checkBoundary]
  refine decides_rule h path .boundary (fun rule : BoundaryText =>
    [rule.leftPattern, rule.rightPattern, rule.leftTemplate, rule.rightTemplate])
    fun texts hlength => ?_
  rcases texts with _ | ⟨left, _ | ⟨right, _ | ⟨first, _ | ⟨second, _ | ⟨other, texts⟩⟩⟩⟩⟩ <;>
    simp at hlength
  refine ((decides_checkPattern (item path 0) left).bind fun _ _ =>
    (decides_checkPattern (item path 1) right).bind_ok _).congr
    (fun rule => ?_) fun offence => ?_
  · cases rule
    simp [and_comm, and_left_comm]
  · simp [firstOf_cons_iff, not_firstOf_nil]

theorem decides_inflection {key value : Yaml.Value} {name : String} (hname : key.name = .ok name)
    (h : value.HasText) :
    Decides
      (checkRules checkReplacement (inflectionsPath ++ "." ++ name) value >>= fun rules =>
        .ok (name, rules))
      (WritesInflection (key, value)) (InflectionFault (key, value)) := by
  refine ((decides_checkRules decides_checkReplacement h _).bind_ok _).congr
    (fun row => ?_) fun offence => ?_
  · obtain ⟨other, rules⟩ := row
    simp only [WritesInflection, hname, Except.ok.injEq, Prod.mk.injEq]
    constructor
    · rintro ⟨_, hrow, rfl, rfl⟩
      exact ⟨rfl, hrow⟩
    · rintro ⟨rfl, hrow⟩
      exact ⟨_, hrow, rfl, rfl⟩
  · simp [InflectionFault, hname, inflectionsPath]

theorem decides_checkInflections {entries : List (Yaml.Value × Yaml.Value)}
    (h : EntriesHaveText entries) (i : Nat) :
    Decides (checkInflections entries) (List.Forall₂ WritesInflection entries)
      (FirstOf (fun entry => ∃ row, WritesInflection entry row) (fun _ => InflectionFault) i
        entries) := by
  induction entries generalizing i with
  | nil => exact .nil
  | cons entry entries ih =>
      obtain ⟨key, value⟩ := entry
      rw [EntriesHaveText] at h
      obtain ⟨name, hname⟩ := exists_name h.1.1
      -- The name and the rules of an entry are one step, and the entries after it are the other.
      have hcheck : checkInflections ((key, value) :: entries) =
          (checkRules checkReplacement (inflectionsPath ++ "." ++ name) value >>= fun rules =>
            .ok (name, rules)) >>= fun row => checkInflections entries >>= fun rows =>
              .ok (row :: rows) := by
        rw [checkInflections, hname, mapError_ok, ok_bind]
        cases checkRules checkReplacement (inflectionsPath ++ "." ++ name) value <;> rfl
      rw [hcheck]
      exact Decides.cons (decides_inflection hname h.1.2) (ih h.2 (i + 1))

theorem decides_checkCompound {value : Yaml.Value} (h : value.HasText) :
    Decides (checkCompound value) (WritesCompound value)
      (fun offence => value ≠ .null ∧
        RowFault WritesBoundary BoundaryFault "$.compound" value offence) := by
  rw [checkCompound, h.untied]
  split
  next =>
      refine (Decides.ok []).congr (fun boundaries => ?_) fun offence => ?_
      · constructor
        · rintro rfl
          exact .absent
        · rintro (- | ⟨⟨items, hvalue, -⟩⟩)
          · rfl
          · cases hvalue
      · simp
  next hpresent =>
      refine (decides_checkRules decides_checkBoundary h _).congr (fun boundaries => ?_)
        fun offence => ?_
      · constructor
        · exact .row
        · rintro (- | hrow)
          · exact absurd rfl hpresent
          · exact hrow
      · exact (and_iff_right hpresent).symm

/-- The check decides which values are configurations. -/
theorem decides_check {value : Yaml.Value} (h : value.HasText) :
    Decides (check value) (Describes value) (FirstFault value) := by
  have hentriesText {entries : List (Yaml.Value × Yaml.Value)} (hvalue : value = .mapping entries) :
      EntriesHaveText entries := by
    rwa [hvalue, HasText] at h
  have hinnerText {entries inner : List (Yaml.Value × Yaml.Value)}
      (hvalue : value = .mapping entries) (hmember : member "inflections" entries = .mapping inner) :
      EntriesHaveText inner := by
    have htext := hasText_member (hentriesText hvalue) "inflections"
    rwa [hmember, HasText] at htext
  -- The mapping, the mapping under `inflections`, its rows, and the boundaries, one after another.
  refine ((decides_checkObject h rootPath).bind fun entries hvalue =>
    (decides_checkObject (hasText_member (hentriesText hvalue) _) inflectionsPath).bind
      fun inner hmember => (decides_checkInflections (hinnerText hvalue hmember) 0).bind
        fun rows _ => (decides_checkCompound (hasText_member (hentriesText hvalue) _)).bind_ok
          (RuleTexts.mk (.ofList rows))).congr ?described ?fault
  case described =>
    intro texts
    constructor
    · rintro ⟨entries, rfl, inner, hmember, rows, hinner, boundaries, hcompound, rfl⟩
      exact .mapping hmember hinner (collects_iff.mpr rfl) hcompound
    · rintro ⟨hmember, hinner, hrows, hcompound⟩
      obtain ⟨inflections, boundaries⟩ := texts
      obtain rfl := collects_iff.mp hrows
      exact ⟨_, rfl, _, hmember, _, hinner, _, hcompound, rfl⟩
  case fault =>
    intro offence
    constructor
    · rintro (⟨hroot, rfl⟩ | ⟨entries, rfl, ⟨hshape, rfl⟩ | ⟨inner, hmember,
        hinner | ⟨rows, hrows, hpresent, hcompound⟩⟩⟩)
      · exact .root hroot
      · exact .inflections hshape
      · exact .inflection hmember hinner
      · exact .compound hmember (exists_forall₂_iff.mp ⟨rows, hrows⟩) hpresent hcompound
    · rintro (hroot | hshape | ⟨hmember, hinner⟩ | ⟨hmember, hinner, hpresent, hcompound⟩)
      · exact .inl ⟨hroot, rfl⟩
      · exact .inr ⟨_, rfl, .inl ⟨hshape, rfl⟩⟩
      · exact .inr ⟨_, rfl, .inr ⟨_, hmember, .inl hinner⟩⟩
      · obtain ⟨rows, hrows⟩ := exists_forall₂_iff.mpr hinner
        exact .inr ⟨_, rfl, .inr ⟨_, hmember, .inr ⟨rows, hrows, hpresent, hcompound⟩⟩⟩

end Checks

/-! ## What is reported -/

/-- The message names the place of the offence and says what is wrong there. -/
def Offence.Told : Offence → String → Prop
  | shape place wanted found _, message => ∃ shown, found.display = .ok shown ∧
      message = "expected " ++ place ++ " to be " ++ wanted.text ++ ", but got " ++ shown
  | nameless _, _ => False
  | pattern path source error, message => ∃ fault, error = .fault fault ∧
      message = "invalid regular expression at " ++ path ++ ": " ++ Text.quoted source ++ " (" ++
        fault.message ++ ")"

theorem Offence.told_error {offence : Offence} (h : ¬ offence.BreaksOff) :
    offence.Told offence.error.message := by
  cases offence with
  | shape place wanted found path =>
      cases hshown : found.display with
      | error fault => exact absurd ⟨fault, hshown⟩ h
      | ok shown => exact ⟨shown, hshown, by rw [error, wrongShape, hshown]; rfl⟩
  | nameless fault => exact absurd trivial h
  | pattern path source error =>
      obtain ⟨fault, rfl⟩ : ∃ fault, error = .fault fault := by simpa [BreaksOff] using h
      exact ⟨fault, rfl, rfl⟩

theorem Offence.exists_pattern_of_compile {offence : Offence} {error : Pattern.CompileError}
    (h : offence.error = .compile error) :
    ∃ path source other, offence = .pattern path source other ∧ ∀ fault, other ≠ .fault fault := by
  cases offence with
  | shape place wanted found path =>
      rw [Offence.error, wrongShape] at h
      split at h <;> cases h
  | nameless fault => cases h
  | pattern path source other =>
      refine ⟨path, source, other, rfl, ?_⟩
      rintro fault rfl
      cases h

section Reports

variable [Unicode.Names]

/-- Where everything has a text, only the pattern at fault can break the reading off. -/
theorem FirstFault.not_breaksOff {value : Yaml.Value} {offence : Offence}
    (hfault : FirstFault value offence) (h : value.HasText)
    (hpattern : ∀ path source error, offence = .pattern path source error →
      ∃ fault, error = .fault fault) : ¬ offence.BreaksOff := by
  obtain ⟨first, others, hfirst, herror⟩ :=
    exists_offence_of_check ((decides_check h).of_fault offence hfault)
  rw [← offence.isReported_error_iff, herror, first.isReported_error_iff]
  intro hbreaks
  have hmem : first ∈ offences value := by simp [hfirst]
  obtain ⟨path, source, error, rfl⟩ := onlyPatterns_offences h first hmem hbreaks
  have hcompile : offence.error = .compile error := by
    cases error with
    | fault fault => exact absurd rfl (hbreaks fault)
    | _ => exact herror
  obtain ⟨otherPath, otherSource, other, hoffence, hother⟩ :=
    Offence.exists_pattern_of_compile hcompile
  obtain ⟨fault, hfault⟩ := hpattern otherPath otherSource other hoffence
  exact hother fault hfault

/-- What a value describes is accepted, and of any other the first fault is reported.  Only the two
members count. -/
theorem check_accepts_or_tells_first {value : Yaml.Value} (h : value.HasText)
    (hpatterns : ∀ path source error, FirstFault value (.pattern path source error) →
      ∃ fault, error = .fault fault) :
    (∀ texts, check value = .ok texts ↔ Describes value texts) ∧
    ((∀ texts, ¬ Describes value texts) → ∃ offence, FirstFault value offence) ∧
    (∀ offence, FirstFault value offence →
      ∃ error, check value = .error error ∧ error.IsReported ∧ offence.Told error.message) ∧
    ∀ entries others, value = .mapping entries →
      member "inflections" others = member "inflections" entries →
      member "compound" others = member "compound" entries →
      check (.mapping others) = check value := by
  have hdecides := decides_check h
  refine ⟨hdecides.eq_ok_iff, ?fault, ?told, ?others⟩
  case fault =>
    intro hnone
    cases hcheck : check value with
    | ok texts => exact absurd ((hdecides.eq_ok_iff texts).mp hcheck) (hnone texts)
    | error error => exact hdecides.exists_fault error hcheck
  case told =>
    intro offence hfault
    have hbreaks : ¬ offence.BreaksOff := by
      refine hfault.not_breaksOff h fun path source error hoffence => ?_
      exact hpatterns path source error (hoffence ▸ hfault)
    refine ⟨offence.error, hdecides.of_fault offence hfault, ?_, Offence.told_error hbreaks⟩
    exact offence.isReported_error_iff.mpr hbreaks
  case others =>
    rintro entries others rfl hinflections hcompound
    simp only [check, checkObject, untied, ok_bind, hinflections, hcompound]

end Reports

section FaultyConfig

attribute [local instance] Unicode.Names.none

/-- In a rule, a part that is no text comes before a pattern that does not compile. -/
def unbalancedRow : Yaml.Value :=
  .list [.list [.text "$", .text "s"], .list [.text "(", .null]]

def faultyConfig : Yaml.Value :=
  .mapping [(.text "compound", .text "none"),
    (.text "inflections", .mapping [(.text "SG", .list []), (.text "PL", unbalancedRow)])]

theorem firstFault_faultyConfig :
    FirstFault faultyConfig
      (.shape "$.inflections.PL[1][1]" .string (.null) "$.inflections.PL[1]") := by
  have hsuffix : Compiles "$" := ⟨_, rfl⟩
  have hsingular : WritesInflection (.text "SG", .list []) ("SG", []) :=
    ⟨rfl, [], rfl, .nil⟩
  have hplural : WritesReplacement (.list [.text "$", .text "s"]) ⟨"$", "s"⟩ :=
    ⟨⟨rfl, rfl⟩, by simpa using hsuffix⟩
  have hpart : ReplacementFault "$.inflections.PL[1]" (.list [.text "(", .null])
      (.shape "$.inflections.PL[1][1]" .string (.null) "$.inflections.PL[1]") := by
    have htext : TextFault "$.inflections.PL[1]" 1 (.null)
        (.shape "$.inflections.PL[1][1]" .string (.null) "$.inflections.PL[1]") :=
      ⟨by simp [IsText], rfl⟩
    exact .part (.text rfl (.later ⟨_, rfl⟩ (.here htext)))
  have hrow : RowFault WritesReplacement ReplacementFault "$.inflections.PL" unbalancedRow
      (.shape "$.inflections.PL[1][1]" .string (.null) "$.inflections.PL[1]") := by
    exact .rule (.later ⟨_, hplural⟩ (.here hpart))
  exact .inflection rfl (.later ⟨_, hsingular⟩ (.here ⟨"PL", rfl, hrow⟩))

theorem check_accepts_or_tells_first_faultyConfig :
    ∃ error, check faultyConfig = .error error ∧ error.IsReported ∧
      error.message = "expected $.inflections.PL[1][1] to be a string, but got null" := by
  have htext : faultyConfig.HasText := by
    simp [faultyConfig, unbalancedRow, HasText, AllHaveText, EntriesHaveText]
  have hcheck := (decides_check htext).of_fault _ firstFault_faultyConfig
  have hpatterns (path source : String) (error : Pattern.CompileError)
      (hpattern : FirstFault faultyConfig (.pattern path source error)) :
      ∃ fault, error = .fault fault := by
    have hother := (decides_check htext).of_fault _ hpattern
    rw [hcheck] at hother
    cases error <;> cases Except.error.inj hother
  obtain ⟨-, -, htold, -⟩ := check_accepts_or_tells_first htext hpatterns
  obtain ⟨error, herror, hreported, shown, hshown, hmessage⟩ := htold _ firstFault_faultyConfig
  refine ⟨error, herror, hreported, ?_⟩
  obtain rfl := Except.ok.inj hshown
  rw [hmessage]
  decide

end FaultyConfig

end Interlinear.Morphology.Config
