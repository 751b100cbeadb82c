import Interlinear.Morphology.Config
import Interlinear.Proofs.Yaml.Display

/-!
# The offences of a configuration

A configuration is checked up to its first offence.  Here all offences are listed, in the order in
which they stand: values of the wrong shape, names without a text, and patterns that do not compile.
The check comes to a result when there is no offence, and otherwise to the error of the first.  The
rules that come out of it compile, so a configuration without an offence is accepted.

An offence is reported unless its error cannot be put together.  That is so when the value that the
message would show has no text, when a name has none, and when a pattern is refused for a reason
without a place in it.  Besides these, only a scalar without a value breaks the reading off.
-/

namespace Interlinear.Morphology

open Outcome

namespace Config

inductive Offence where
  | shape (place : String) (wanted : Shape) (found : Yaml.Value) (path : String)
  /-- A key that has no text. -/
  | nameless (fault : Yaml.DisplayFault)
  | pattern (path source : String) (error : Pattern.CompileError)

namespace Offence

def error : Offence → Error
  | shape place wanted found path => wrongShape place path wanted found
  | nameless fault => .display fault
  | pattern path source (.fault fault) => .pattern path source fault
  | pattern _ _ error => .compile error

/-- The error of the offence cannot be put together. -/
def BreaksOff : Offence → Prop
  | shape _ _ found _ => ∃ fault, found.display = .error fault
  | nameless _ => True
  | pattern _ _ error => ∀ fault, error ≠ .fault fault

end Offence

/-! ## The list of offences -/

def textOffences (path : String) (i : Nat) : List Yaml.Value → List Offence
  | [] => []
  | value :: values =>
      (match value.untied with
        | .text _ => []
        | _ => [.shape (item path i) .string value path]) ++
      textOffences path (i + 1) values

def ruleOffences (path : String) (parts : Nat) (wanted : Shape) (value : Yaml.Value) :
    List Offence :=
  match value.untied with
  | .list items =>
      if items.length = parts then textOffences path 0 items
      else [.shape path wanted value path]
  | _ => [.shape path wanted value path]

section Patterns

variable [Unicode.Names]

/-- The offence of a pattern; a value that is no text is none here. -/
def patternOffences (path : String) (value : Yaml.Value) : List Offence :=
  match value.untied with
  | .text source =>
      match Pattern.compile source with
      | .ok _ => []
      | .error error => [.pattern path source error]
  | _ => []

def replacementOffences (path : String) (value : Yaml.Value) : List Offence :=
  ruleOffences path 2 .replacement value ++
    match value.untied with
    | .list [pattern, _] => patternOffences (item path 0) pattern
    | _ => []

def boundaryOffences (path : String) (value : Yaml.Value) : List Offence :=
  ruleOffences path 4 .boundary value ++
    match value.untied with
    | .list [left, right, _, _] =>
        patternOffences (item path 0) left ++ patternOffences (item path 1) right
    | _ => []

def itemOffences (offencesOf : String → Yaml.Value → List Offence) (path : String) (i : Nat) :
    List Yaml.Value → List Offence
  | [] => []
  | value :: values =>
      offencesOf (item path i) value ++ itemOffences offencesOf path (i + 1) values

def rulesOffences (offencesOf : String → Yaml.Value → List Offence) (path : String)
    (value : Yaml.Value) : List Offence :=
  match value.untied with
  | .list items => itemOffences offencesOf path 0 items
  | _ => [.shape path .array value path]

def inflectionOffences : List (Yaml.Value × Yaml.Value) → List Offence
  | [] => []
  | (key, value) :: entries =>
      (match key.name with
        | .ok name => rulesOffences replacementOffences (inflectionsPath ++ "." ++ name) value
        | .error fault => [.nameless fault]) ++
      inflectionOffences entries

def compoundOffences (value : Yaml.Value) : List Offence :=
  match value.untied with
  | .null => []
  | _ => rulesOffences boundaryOffences compoundPath value

def offences (value : Yaml.Value) : List Offence :=
  match value.untied with
  | .mapping entries =>
      (match (member "inflections" entries).untied with
        | .mapping inflections => inflectionOffences inflections
        | _ => [.shape inflectionsPath .object (member "inflections" entries) inflectionsPath]) ++
      compoundOffences (member "compound" entries)
  | _ => [.shape rootPath .object value rootPath]

end Patterns

/-! ## The check stops at the first -/

variable {α β : Type}

/-- A result if there is no offence, and otherwise the error of the first. -/
def Settles (outcome : Except Error α) : List Offence → Prop
  | [] => ∃ a, outcome = .ok a
  | offence :: _ => outcome = .error offence.error

theorem Settles.ok (a : α) : Settles (.ok a) [] :=
  ⟨a, rfl⟩

theorem Settles.bind {first : Except Error α} {step : α → Except Error β}
    {before after : List Offence} (hfirst : Settles first before)
    (hstep : ∀ a, first = .ok a → Settles (step a) after) :
    Settles (first >>= step) (before ++ after) := by
  cases before with
  | nil =>
      obtain ⟨a, ha⟩ := hfirst
      rw [ha, ok_bind, List.nil_append]
      exact hstep a ha
  | cons offence before =>
      rw [Settles] at hfirst
      rw [hfirst, error_bind, List.cons_append, Settles]

theorem Settles.bind_ok {first : Except Error α} {before : List Offence}
    (hfirst : Settles first before) (result : α → β) :
    Settles (first >>= fun a => .ok (result a)) before := by
  rw [← List.append_nil before]
  exact hfirst.bind fun a _ => .ok (result a)

theorem settles_checkTexts (path : String) (i : Nat) (values : List Yaml.Value) :
    Settles (checkTexts path i values) (textOffences path i values) := by
  induction values generalizing i with
  | nil => exact .ok []
  | cons value values ih =>
      rw [checkTexts, textOffences]
      cases huntied : value.untied with
      | text s =>
          rw [List.nil_append]
          exact (ih (i + 1)).bind_ok _
      | _ => rfl

theorem checkTexts_eq_ok {path : String} {i : Nat} {values : List Yaml.Value}
    {texts : List String} (h : checkTexts path i values = .ok texts) :
    values.map Yaml.Value.untied = texts.map .text := by
  induction values generalizing i texts with
  | nil =>
      obtain rfl := Except.ok.inj h
      rfl
  | cons value values ih =>
      rw [checkTexts] at h
      cases huntied : value.untied with
      | text s =>
          simp only [huntied] at h
          obtain ⟨others, hothers, h⟩ := bind_eq_ok_iff.mp h
          obtain rfl := Except.ok.inj h
          rw [List.map_cons, List.map_cons, huntied, ih hothers]
      | _ => simp [huntied] at h

theorem settles_checkRule (path : String) (parts : Nat) (wanted : Shape) (value : Yaml.Value) :
    Settles (checkRule path parts wanted value) (ruleOffences path parts wanted value) := by
  rw [checkRule, ruleOffences]
  cases value.untied with
  | list items =>
      by_cases hlength : items.length = parts
      · simp only [if_pos hlength]
        exact settles_checkTexts path 0 items
      · simp only [if_neg hlength]
        rfl
  | _ => rfl

/-- The texts of a rule are those of its parts. -/
theorem checkRule_eq_ok {path : String} {parts : Nat} {wanted : Shape} {value : Yaml.Value}
    {texts : List String} (h : checkRule path parts wanted value = .ok texts) :
    ∃ items, value.untied = .list items ∧ items.length = parts ∧
      items.map Yaml.Value.untied = texts.map .text := by
  rw [checkRule] at h
  cases huntied : value.untied with
  | list items =>
      simp only [huntied] at h
      by_cases hlength : items.length = parts
      · rw [if_pos hlength] at h
        exact ⟨items, rfl, hlength, checkTexts_eq_ok h⟩
      · rw [if_neg hlength] at h
        cases h
  | _ => simp [huntied] at h

section Rows

variable {check : String → Yaml.Value → Except Error α}
variable {offencesOf : String → Yaml.Value → List Offence}

theorem settles_checkItems
    (hcheck : ∀ path value, Settles (check path value) (offencesOf path value)) (path : String)
    (i : Nat) (values : List Yaml.Value) :
    Settles (checkItems check path i values) (itemOffences offencesOf path i values) := by
  induction values generalizing i with
  | nil => exact .ok []
  | cons value values ih =>
      rw [checkItems, itemOffences]
      exact (hcheck (item path i) value).bind fun rule _ => (ih (i + 1)).bind_ok _

theorem settles_checkRules
    (hcheck : ∀ path value, Settles (check path value) (offencesOf path value)) (path : String)
    (value : Yaml.Value) :
    Settles (checkRules check path value) (rulesOffences offencesOf path value) := by
  rw [checkRules, rulesOffences]
  cases value.untied with
  | list items => exact settles_checkItems hcheck path 0 items
  | _ => rfl

end Rows

section Patterns

variable [Unicode.Names]

theorem settles_checkPattern {path source : String} {value : Yaml.Value}
    (huntied : value.untied = .text source) :
    Settles (checkPattern path source) (patternOffences path value) := by
  rw [checkPattern, patternOffences, huntied]
  cases hcompile : Pattern.compile source with
  | ok pattern => simp [Settles, hcompile]
  | error error => cases error <;> simp [Settles, Offence.error, hcompile]

theorem settles_checkReplacement (path : String) (value : Yaml.Value) :
    Settles (checkReplacement path value) (replacementOffences path value) := by
  rw [checkReplacement, replacementOffences]
  refine (settles_checkRule path 2 .replacement value).bind fun texts htexts => ?_
  obtain ⟨items, huntied, hlength, hitems⟩ := checkRule_eq_ok htexts
  rcases items with _ | ⟨pattern, _ | ⟨template, _ | ⟨other, items⟩⟩⟩ <;> simp at hlength
  rcases texts with _ | ⟨source, _ | ⟨text, _ | ⟨other, texts⟩⟩⟩ <;> simp at hitems
  rw [huntied]
  exact (settles_checkPattern hitems.1).bind_ok _

theorem settles_checkBoundary (path : String) (value : Yaml.Value) :
    Settles (checkBoundary path value) (boundaryOffences path value) := by
  rw [checkBoundary, boundaryOffences]
  refine (settles_checkRule path 4 .boundary value).bind fun texts htexts => ?_
  obtain ⟨items, huntied, hlength, hitems⟩ := checkRule_eq_ok htexts
  rcases items with _ | ⟨left, _ | ⟨right, _ | ⟨first, _ | ⟨second, _ | ⟨other, items⟩⟩⟩⟩⟩ <;>
    simp at hlength
  rcases texts with _ | ⟨leftSource, _ | ⟨rightSource, _ | ⟨a, _ | ⟨b, _ | ⟨c, texts⟩⟩⟩⟩⟩ <;>
    simp at hitems
  rw [huntied]
  refine (settles_checkPattern hitems.1).bind fun _ _ => ?_
  exact (settles_checkPattern hitems.2.1).bind_ok _

theorem settles_checkInflections (entries : List (Yaml.Value × Yaml.Value)) :
    Settles (checkInflections entries) (inflectionOffences entries) := by
  induction entries with
  | nil => exact .ok []
  | cons entry entries ih =>
      obtain ⟨key, value⟩ := entry
      rw [checkInflections, inflectionOffences]
      cases key.name with
      | error fault => rfl
      | ok name =>
          rw [mapError_ok, ok_bind]
          refine (settles_checkRules settles_checkReplacement _ value).bind fun rules _ => ?_
          exact ih.bind_ok _

theorem settles_checkCompound (value : Yaml.Value) :
    Settles (checkCompound value) (compoundOffences value) := by
  rw [checkCompound, compoundOffences]
  cases value.untied with
  | null => exact .ok []
  | _ => exact settles_checkRules settles_checkBoundary compoundPath value

theorem settles_check (value : Yaml.Value) : Settles (check value) (offences value) := by
  rw [check, offences, checkObject]
  cases value.untied with
  | mapping entries =>
      dsimp only
      rw [ok_bind, checkObject]
      cases (member "inflections" entries).untied with
      | mapping inflections =>
          rw [ok_bind]
          refine (settles_checkInflections inflections).bind fun _ _ => ?_
          exact (settles_checkCompound _).bind_ok _
      | _ => rfl
  | _ => rfl

/-- What the check reports is its first offence. -/
theorem exists_offence_of_check {value : Yaml.Value} {error : Error}
    (h : check value = .error error) :
    ∃ offence others, offences value = offence :: others ∧ error = offence.error := by
  have hsettles := settles_check value
  rw [h] at hsettles
  cases hfirst : offences value with
  | nil => simp [hfirst, Settles] at hsettles
  | cons offence others =>
      rw [hfirst, Settles] at hsettles
      exact ⟨offence, others, rfl, Except.error.inj hsettles⟩

end Patterns

end Config

end Interlinear.Morphology
