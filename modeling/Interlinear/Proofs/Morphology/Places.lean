import Interlinear.Proofs.Morphology.Offences

/-!
# The path that goes with a message

A fault of a configuration comes with a path and a message that names a place.  The two agree for
values that have to be objects, arrays or rules and for patterns.  A part of a rule that is no text
is named by its own place, while the path is that of the rule, so the message goes on with the number
of the part where the path ends.  Which of these it is depends on the first offence alone.
-/

namespace Interlinear.Morphology.Config

open Outcome

/-- The message is about the place. -/
def Names (message place : String) : Prop :=
  (∃ rest, message = "expected " ++ place ++ " to be " ++ rest) ∨
    ∃ rest, message = "invalid regular expression at " ++ place ++ ": " ++ rest

/-- Only texts are looked for in places other than the path. -/
def Offence.IsPlaced : Offence → Prop
  | shape place wanted _ path =>
      place = path ∧ wanted ≠ .string ∨ ∃ i, place = item path i ∧ wanted = .string
  | nameless _ | pattern .. => True

def ArePlaced (offences : List Offence) : Prop :=
  ∀ offence ∈ offences, offence.IsPlaced

namespace ArePlaced

theorem nil : ArePlaced [] :=
  List.forall_mem_nil _

theorem append {before after : List Offence} (hbefore : ArePlaced before)
    (hafter : ArePlaced after) : ArePlaced (before ++ after) :=
  List.forall_mem_append.mpr ⟨hbefore, hafter⟩

theorem shape (path : String) {wanted : Shape} (h : wanted ≠ .string) (found : Yaml.Value) :
    ArePlaced [.shape path wanted found path] :=
  List.forall_mem_singleton.mpr (.inl ⟨rfl, h⟩)

end ArePlaced

theorem arePlaced_text (path : String) (i : Nat) (values : List Yaml.Value) :
    ArePlaced (textOffences path i values) := by
  induction values generalizing i with
  | nil => exact .nil
  | cons value values ih =>
      rw [textOffences]
      refine .append ?_ (ih (i + 1))
      split
      · exact .nil
      · exact List.forall_mem_singleton.mpr (.inr ⟨i, rfl, rfl⟩)

theorem arePlaced_rule (path : String) (parts : Nat) {wanted : Shape} (h : wanted ≠ .string)
    (value : Yaml.Value) : ArePlaced (ruleOffences path parts wanted value) := by
  rw [ruleOffences]
  split
  · split
    · exact arePlaced_text path 0 _
    · exact .shape path h value
  · exact .shape path h value

section Rows

variable {offencesOf : String → Yaml.Value → List Offence}

theorem arePlaced_items (hof : ∀ path value, ArePlaced (offencesOf path value)) (path : String)
    (i : Nat) (values : List Yaml.Value) : ArePlaced (itemOffences offencesOf path i values) := by
  induction values generalizing i with
  | nil => exact .nil
  | cons value values ih => exact .append (hof _ value) (ih (i + 1))

theorem arePlaced_rules (hof : ∀ path value, ArePlaced (offencesOf path value)) (path : String)
    (value : Yaml.Value) : ArePlaced (rulesOffences offencesOf path value) := by
  rw [rulesOffences]
  split
  · exact arePlaced_items hof path 0 _
  · exact .shape path (by decide) value

end Rows

section Patterns

variable [Unicode.Names]

theorem arePlaced_pattern (path : String) (value : Yaml.Value) :
    ArePlaced (patternOffences path value) := by
  rw [patternOffences]
  split
  · split
    · exact .nil
    · exact List.forall_mem_singleton.mpr trivial
  · exact .nil

theorem arePlaced_replacement (path : String) (value : Yaml.Value) :
    ArePlaced (replacementOffences path value) := by
  refine .append (arePlaced_rule path 2 (by decide) value) ?_
  split
  · exact arePlaced_pattern _ _
  · exact .nil

theorem arePlaced_boundary (path : String) (value : Yaml.Value) :
    ArePlaced (boundaryOffences path value) := by
  refine .append (arePlaced_rule path 4 (by decide) value) ?_
  split
  · exact .append (arePlaced_pattern _ _) (arePlaced_pattern _ _)
  · exact .nil

theorem arePlaced_inflections (entries : List (Yaml.Value × Yaml.Value)) :
    ArePlaced (inflectionOffences entries) := by
  induction entries with
  | nil => exact .nil
  | cons entry entries ih =>
      refine .append ?_ ih
      split
      · exact arePlaced_rules arePlaced_replacement _ _
      · exact List.forall_mem_singleton.mpr trivial

theorem arePlaced_compound (value : Yaml.Value) : ArePlaced (compoundOffences value) := by
  rw [compoundOffences]
  split
  · exact .nil
  · exact arePlaced_rules arePlaced_boundary _ _

theorem arePlaced_offences (value : Yaml.Value) : ArePlaced (offences value) := by
  rw [offences]
  split
  · refine .append ?_ (arePlaced_compound _)
    split
    · exact arePlaced_inflections _
    · exact .shape inflectionsPath (by decide) _
  · exact .shape rootPath (by decide) value

end Patterns

/-! ## The message and the path -/

theorem message_shape (place shown path : String) (wanted : Shape) :
    (Error.shape place wanted shown path).message =
      "expected " ++ place ++ " to be " ++ wanted.text ++ ", but got " ++ shown := rfl

theorem message_pattern (path source : String) (fault : Pattern.Fault) :
    (Error.pattern path source fault).message =
      "invalid regular expression at " ++ path ++ ": " ++ Text.quoted source ++ " (" ++
        fault.message ++ ")" := rfl

theorem names_shape (place shown path : String) (wanted : Shape) :
    Names (Error.shape place wanted shown path).message place := by
  refine .inl ⟨wanted.text ++ (", but got " ++ shown), ?_⟩
  rw [message_shape, ← String.append_assoc, ← String.append_assoc]

theorem names_pattern (path source : String) (fault : Pattern.Fault) :
    Names (Error.pattern path source fault).message path := by
  refine .inr ⟨Text.quoted source ++ (" (" ++ (fault.message ++ ")")), ?_⟩
  rw [message_pattern, ← String.append_assoc, ← String.append_assoc, ← String.append_assoc]

/-- After the path comes the number of the part, where the message would have to go on. -/
theorem not_names_item (path : String) (i : Nat) (wanted : Shape) (shown other : String) :
    ¬ Names (Error.shape (item path i) wanted shown other).message path := by
  rw [message_shape, item]
  rintro (⟨rest, hrest⟩ | ⟨rest, hrest⟩)
  · simp only [String.append_assoc, String.append_right_inj] at hrest
    have hhead := congrArg (fun s => s.toList.head?) hrest
    simp at hhead
  · have hhead := congrArg (fun s => s.toList.head?) hrest
    simp at hhead

theorem wrongShape_of_path {place path other : String} {wanted : Shape} {found : Yaml.Value}
    (h : (wrongShape place path wanted found).path? = some other) :
    path = other ∧ ∃ shown, wrongShape place path wanted found = .shape place wanted shown path := by
  rw [wrongShape] at h ⊢
  cases hshown : found.display with
  | error fault => simp [hshown, Error.path?] at h
  | ok shown => exact ⟨by simpa [hshown, Error.path?] using h, shown, rfl⟩

theorem Offence.IsPlaced.names_iff {offence : Offence} (h : offence.IsPlaced) {path : String}
    (hpath : offence.error.path? = some path) :
    Names offence.error.message path ↔
      ∀ i found, offence ≠ .shape (item path i) .string found path := by
  cases offence with
  | shape place wanted found other =>
      obtain ⟨rfl, shown, herror⟩ := wrongShape_of_path hpath
      rw [Offence.error, herror]
      rcases h with ⟨rfl, hwanted⟩ | ⟨i, rfl, rfl⟩
      · refine iff_of_true (names_shape _ _ _ _) fun i other hoffence => ?_
        exact hwanted (Offence.shape.inj hoffence).2.1
      · exact iff_of_false (not_names_item _ _ _ _ _) fun hother => hother i found rfl
  | nameless fault => cases hpath
  | pattern other source error =>
      cases error with
      | fault fault =>
          obtain rfl := Option.some.inj hpath
          exact iff_of_true (names_pattern _ _ _) fun i found hoffence => by cases hoffence
      | _ => cases hpath

/-- A message names the path that comes with it, except where the first offence is a part of a rule
that is no text.  That part is what the message names then. -/
theorem check_names_path_iff [Unicode.Names] {value : Yaml.Value} {error : Error} {path : String}
    (hcheck : check value = .error error) (hpath : error.path? = some path) :
    (Names error.message path ↔
      ∀ i found, (offences value).head? ≠ some (.shape (item path i) .string found path)) ∧
    ∀ i found, (offences value).head? = some (.shape (item path i) .string found path) →
      Names error.message (item path i) := by
  obtain ⟨offence, others, hfirst, rfl⟩ := exists_offence_of_check hcheck
  have hplaced : offence.IsPlaced := arePlaced_offences value offence (by simp [hfirst])
  rw [hfirst, List.head?_cons]
  constructor
  · simpa using hplaced.names_iff hpath
  · intro i found hoffence
    obtain rfl := Option.some.inj hoffence
    obtain ⟨-, shown, herror⟩ := wrongShape_of_path hpath
    rw [Offence.error, herror]
    exact names_shape _ _ _ _

section UnfinishedPair

attribute [local instance] Unicode.Names.none

def unfinishedPair : Yaml.Value :=
  .mapping [(.text "inflections",
    .mapping [(.text "PL", .list [.list [.text "$", .null]])])]

theorem check_names_path_iff_unfinishedPair :
    ∃ error, check unfinishedPair = .error error ∧ error.path? = some "$.inflections.PL[0]" ∧
      ¬ Names error.message "$.inflections.PL[0]" ∧
      Names error.message "$.inflections.PL[0][1]" := by
  have hcheck : check unfinishedPair = .error
      (.shape "$.inflections.PL[0][1]" .string "null" "$.inflections.PL[0]") := by rfl
  have hfirst : (offences unfinishedPair).head? =
      some (.shape (item "$.inflections.PL[0]" 1) .string .null "$.inflections.PL[0]") := by rfl
  obtain ⟨hpath, hpart⟩ := check_names_path_iff hcheck rfl
  exact ⟨_, hcheck, rfl, fun hnames => hpath.mp hnames 1 .null hfirst, hpart 1 .null hfirst⟩

/-- The path of a missing replacement is that of its rule. -/
theorem not_check_names_path :
    ¬ ∀ (value : Yaml.Value) (error : Error) (path : String), check value = .error error →
      error.path? = some path → Names error.message path := by
  intro h
  have hcheck : check unfinishedPair = .error
      (.shape (item "$.inflections.PL[0]" 1) .string "null" "$.inflections.PL[0]") := by rfl
  exact not_names_item _ _ _ _ _ (h unfinishedPair _ _ hcheck rfl)

end UnfinishedPair

end Interlinear.Morphology.Config
