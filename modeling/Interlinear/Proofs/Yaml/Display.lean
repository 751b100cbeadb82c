import Interlinear.Proofs.Outcome
import Interlinear.Yaml.Display

/-!
# Values that can be shown

Only two kinds of parts keep a value from being shown: one that may contain itself, and an integer
with too many digits.  A value without such parts has a text in a message whatever else is in it,
since what JSON cannot hold is shown in the other notation, and it has a text as a name.
-/

namespace Interlinear.Yaml.Value

open Outcome

mutual
/-- No part may contain itself, and no integer is too long for a text. -/
def HasText : Value → Prop
  | null | bool _ | float _ | nan _ | text _ | bytes _ | date _ | time _ => True
  | int n => n.natAbs < Nat.pow 10 Numeral.digitLimit
  | list items => AllHaveText items
  | pair first second => first.HasText ∧ second.HasText
  | mapping entries => EntriesHaveText entries
  | set members => AllHaveText members
  | knot _ _ => False
def AllHaveText : List Value → Prop
  | [] => True
  | item :: items => item.HasText ∧ AllHaveText items
def EntriesHaveText : List (Value × Value) → Prop
  | [] => True
  | (key, value) :: entries => (key.HasText ∧ value.HasText) ∧ EntriesHaveText entries
end

theorem HasText.of_mem_entries {entries : List (Value × Value)} (h : EntriesHaveText entries)
    {key value : Value} (hmem : (key, value) ∈ entries) : key.HasText ∧ value.HasText := by
  induction entries with
  | nil => simp at hmem
  | cons entry entries ih =>
      obtain ⟨other, previous⟩ := entry
      rw [EntriesHaveText] at h
      rcases List.mem_cons.mp hmem with hentry | hmem
      · obtain ⟨rfl, rfl⟩ := Prod.mk.inj hentry
        exact h.1
      · exact ih h.2 hmem

theorem HasText.untied {value : Value} (h : value.HasText) : value.untied = value := by
  cases value with
  | knot number value => simp [HasText] at h
  | _ => rfl

theorem integerText_eq_ok {n : Int} (h : n.natAbs < Nat.pow 10 Numeral.digitLimit) :
    integerText n = .ok (toString n) := by
  rw [integerText, if_neg (by omega)]

/-! ## The first notation -/

theorem jsonKey_ne_display {key : Value} (h : key.HasText) (fault : DisplayFault) :
    jsonKey key ≠ .error (.display fault) := by
  cases key with
  | int n =>
      rw [HasText] at h
      simp [jsonKey, jsonWord?, jsonInteger, integerText_eq_ok h, Except.map]
  | knot number value => simp [HasText] at h
  | bool b => cases b <;> simp [jsonKey, jsonWord?, Except.map]
  | _ => simp [jsonKey, jsonWord?, Except.map]

mutual
theorem json_ne_display (fault : DisplayFault) : (outer : List Nat) → (value : Value) →
    value.HasText → value.json outer ≠ .error (.display fault)
  | _, null, _ | _, bool _, _ | _, float _, _ | _, nan _, _ | _, text _, _ => by simp [json]
  | _, bytes _, _ | _, date _, _ | _, time _, _ | _, set _, _ => by simp [json]
  | _, int n, h => by
      rw [HasText] at h
      simp [json, jsonInteger, integerText_eq_ok h]
  | outer, list items, h => by
      rw [HasText] at h
      rw [json, Ne, map_eq_error_iff]
      exact jsonItems_ne_display fault outer items h
  | outer, pair first second, h => by
      rw [HasText] at h
      rw [json, Ne, bind_eq_error_iff]
      rintro (hfirst | ⟨shown, -, hsecond⟩)
      · exact json_ne_display fault outer first h.1 hfirst
      · rcases bind_eq_error_iff.mp hsecond with hsecond | ⟨_, _, hshown⟩
        · exact json_ne_display fault outer second h.2 hsecond
        · cases hshown
  | outer, mapping entries, h => by
      rw [HasText] at h
      rw [json, Ne, map_eq_error_iff]
      exact jsonEntries_ne_display fault outer entries h
  | _, knot _ _, h => by simp [HasText] at h
theorem jsonItems_ne_display (fault : DisplayFault) : (outer : List Nat) →
    (items : List Value) → AllHaveText items → jsonItems outer items ≠ .error (.display fault)
  | _, [], _ => by simp [jsonItems]
  | outer, item :: items, h => by
      rw [AllHaveText] at h
      rw [jsonItems, Ne, bind_eq_error_iff]
      rintro (hitem | ⟨shown, -, hitems⟩)
      · exact json_ne_display fault outer item h.1 hitem
      · rcases bind_eq_error_iff.mp hitems with hitems | ⟨_, _, hshown⟩
        · exact jsonItems_ne_display fault outer items h.2 hitems
        · cases hshown
theorem jsonEntries_ne_display (fault : DisplayFault) : (outer : List Nat) →
    (entries : List (Value × Value)) → EntriesHaveText entries →
      jsonEntries outer entries ≠ .error (.display fault)
  | _, [], _ => by simp [jsonEntries]
  | outer, (key, value) :: entries, h => by
      rw [EntriesHaveText] at h
      rw [jsonEntries, Ne, bind_eq_error_iff]
      rintro (hkey | ⟨name, -, hrest⟩)
      · exact jsonKey_ne_display h.1.1 fault hkey
      · rcases bind_eq_error_iff.mp hrest with hvalue | ⟨shown, -, hrest⟩
        · exact json_ne_display fault outer value h.1.2 hvalue
        · rcases bind_eq_error_iff.mp hrest with hentries | ⟨_, _, hshown⟩
          · exact jsonEntries_ne_display fault outer entries h.2 hentries
          · cases hshown
end

/-! ## The other notation -/

mutual
theorem exists_describe : (outer : List Nat) → (value : Value) → value.HasText →
    ∃ shown, value.describe outer = .ok shown
  | _, null, _ | _, bool _, _ | _, float _, _ | _, nan _, _ | _, text _, _ => by simp [describe]
  | _, bytes _, _ | _, date _, _ | _, time _, _ | _, set [], _ => by simp [describe]
  | _, int n, h => by
      rw [HasText] at h
      exact ⟨_, by rw [describe, integerText_eq_ok h]⟩
  | outer, list items, h => by
      rw [HasText] at h
      obtain ⟨shown, hshown⟩ := exists_describeItems outer items h
      exact ⟨_, by rw [describe, hshown]; rfl⟩
  | outer, pair first second, h => by
      rw [HasText] at h
      obtain ⟨shown, hshown⟩ := exists_describe outer first h.1
      obtain ⟨other, hother⟩ := exists_describe outer second h.2
      exact ⟨_, by rw [describe, hshown, ok_bind, hother, ok_bind]⟩
  | outer, mapping entries, h => by
      rw [HasText] at h
      obtain ⟨shown, hshown⟩ := exists_describeEntries outer entries h
      exact ⟨_, by rw [describe, hshown]; rfl⟩
  | outer, set (member :: members), h => by
      rw [HasText] at h
      obtain ⟨shown, hshown⟩ := exists_describeItems outer (member :: members) h
      refine ⟨bracketed "\x7b" "\x7d" shown, ?_⟩
      rw [describe, hshown]
      · rfl
      · simp
  | _, knot _ _, h => by simp [HasText] at h
theorem exists_describeItems : (outer : List Nat) → (items : List Value) → AllHaveText items →
    ∃ shown, describeItems outer items = .ok shown
  | _, [], _ => ⟨[], by rw [describeItems]⟩
  | outer, item :: items, h => by
      rw [AllHaveText] at h
      obtain ⟨shown, hshown⟩ := exists_describe outer item h.1
      obtain ⟨others, hothers⟩ := exists_describeItems outer items h.2
      exact ⟨shown :: others, by rw [describeItems, hshown, ok_bind, hothers, ok_bind]⟩
theorem exists_describeEntries : (outer : List Nat) → (entries : List (Value × Value)) →
    EntriesHaveText entries → ∃ shown, describeEntries outer entries = .ok shown
  | _, [], _ => ⟨[], by rw [describeEntries]⟩
  | outer, (key, value) :: entries, h => by
      rw [EntriesHaveText] at h
      obtain ⟨name, hname⟩ := exists_describe outer key h.1.1
      obtain ⟨shown, hshown⟩ := exists_describe outer value h.1.2
      obtain ⟨others, hothers⟩ := exists_describeEntries outer entries h.2
      exact ⟨(name ++ ": " ++ shown) :: others, by
        rw [describeEntries, hname, ok_bind, hshown, ok_bind, hothers, ok_bind]⟩
end

theorem exists_display {value : Value} (h : value.HasText) :
    ∃ shown, value.display = .ok shown := by
  rw [display]
  cases hjson : value.json [] with
  | ok shown => exact ⟨shown, rfl⟩
  | error fault =>
      cases fault with
      | foreign => exact exists_describe [] value h
      | display fault => exact absurd hjson (json_ne_display fault [] value h)

theorem exists_name {key : Value} (h : key.HasText) : ∃ shown, key.name = .ok shown := by
  cases key with
  | text s => exact ⟨s, rfl⟩
  | date day => exact ⟨_, rfl⟩
  | time moment => exact ⟨_, rfl⟩
  | _ => exact exists_describe [] _ h

end Interlinear.Yaml.Value
