import Interlinear.Dictionary
import Mathlib.Data.List.Forall2
import Mathlib.Data.List.Induction
import Mathlib.Data.List.Nodup
import Mathlib.Data.Option.Basic

/-!
# Entries of dictionaries

The values of a dictionary that is built by insertions are among those inserted, and its keys are
distinct, so that its entries can be searched from either end.  Two lists of entries with the same
keys, whose values are related in order, give related answers.
-/

namespace Interlinear

variable {κ α β : Type} [BEq κ]

theorem lookup_rel {R : α → β → Prop} {entries : List (κ × α)} {others : List (κ × β)}
    (h : List.Forall₂ (fun entry other => entry.1 = other.1 ∧ R entry.2 other.2) entries others)
    (key : κ) : Option.Rel R (entries.lookup key) (others.lookup key) := by
  induction h with
  | nil => exact .none
  | @cons entry other entries others hentry _ ih =>
      obtain ⟨name, value⟩ := entry
      obtain ⟨otherName, otherValue⟩ := other
      obtain ⟨rfl, hvalue⟩ := hentry
      rw [List.lookup_cons, List.lookup_cons]
      cases key == name with
      | false => exact ih
      | true => exact .some hvalue

namespace Dictionary

variable {P : α → Prop}

theorem all_insertEntry {value : α} (hvalue : P value) (key : κ) {entries : List (κ × α)}
    (h : ∀ entry ∈ entries, P entry.2) : ∀ entry ∈ insertEntry key value entries, P entry.2 := by
  induction entries with
  | nil => simpa [insertEntry] using hvalue
  | cons entry entries ih =>
      obtain ⟨other, previous⟩ := entry
      obtain ⟨hprevious, hothers⟩ := List.forall_mem_cons.mp h
      rw [insertEntry]
      split
      · exact List.forall_mem_cons.mpr ⟨hvalue, hothers⟩
      · exact List.forall_mem_cons.mpr ⟨hprevious, ih hothers⟩

theorem all_insertAll {pairs : List (κ × α)} (hpairs : ∀ pair ∈ pairs, P pair.2)
    {d : Dictionary κ α} (hd : ∀ entry ∈ d.entries, P entry.2) :
    ∀ entry ∈ (d.insertAll pairs).entries, P entry.2 := by
  induction pairs generalizing d with
  | nil => exact hd
  | cons pair pairs ih =>
      obtain ⟨hpair, hothers⟩ := List.forall_mem_cons.mp hpairs
      rw [insertAll_cons]
      exact ih hothers (all_insertEntry hpair pair.1 hd)

/-- The values of a dictionary are values that were inserted. -/
theorem all_ofList {pairs : List (κ × α)} (hpairs : ∀ pair ∈ pairs, P pair.2) :
    ∀ entry ∈ (ofList pairs).entries, P entry.2 :=
  all_insertAll hpairs (by simp [empty])

omit [BEq κ] in
theorem keys_map (d : Dictionary κ α) (f : α → β) : (d.map f).keys = d.keys := by
  rw [keys, map, List.map_map]
  rfl

theorem get?_map (d : Dictionary κ α) (f : α → β) (key : κ) :
    (d.map f).get? key = (d.get? key).map f := by
  obtain ⟨entries⟩ := d
  simp only [get?, map]
  induction entries with
  | nil => rfl
  | cons entry entries ih =>
      obtain ⟨name, value⟩ := entry
      rw [List.map_cons, List.lookup_cons, List.lookup_cons]
      cases key == name with
      | false => exact ih
      | true => rfl

end Dictionary

variable [LawfulBEq κ]

theorem mem_of_lookup {entries : List (κ × α)} {key : κ} {value : α}
    (h : entries.lookup key = some value) : (key, value) ∈ entries := by
  obtain ⟨before, after, rfl, -⟩ := List.lookup_eq_some_iff.mp h
  simp

theorem lookup_eq_none_of_forall_ne {entries : List (κ × α)} {key : κ}
    (h : ∀ entry ∈ entries, entry.1 ≠ key) : entries.lookup key = none := by
  rw [List.lookup_eq_none_iff]
  intro entry hentry
  simpa using (h entry hentry).symm

theorem lookup_eq_none_of_notMem_keys {entries : List (κ × α)} {key : κ}
    (h : key ∉ entries.map Prod.fst) : entries.lookup key = none := by
  apply lookup_eq_none_of_forall_ne
  intro entry hentry heq
  exact h (List.mem_map.mpr ⟨entry, hentry, heq⟩)

/-- Searched from its end, a list of entries gives the last one under a key. -/
theorem lookup_reverse_of_last {key : κ} {value : α} {before after : List (κ × α)}
    (h : ∀ entry ∈ after, entry.1 ≠ key) :
    (before ++ (key, value) :: after).reverse.lookup key = some value := by
  have hafter : after.reverse.lookup key = none := by
    apply lookup_eq_none_of_forall_ne
    intro entry hentry
    exact h entry (List.mem_reverse.mp hentry)
  simp [List.lookup_append, hafter]

theorem lookup_reverse_of_nodup {entries : List (κ × α)} (h : (entries.map Prod.fst).Nodup)
    (key : κ) : entries.reverse.lookup key = entries.lookup key := by
  induction entries with
  | nil => rfl
  | cons entry entries ih =>
      obtain ⟨name, value⟩ := entry
      obtain ⟨hname, hentries⟩ := List.nodup_cons.mp h
      rw [List.reverse_cons, List.lookup_append, ih hentries, List.lookup_cons, List.lookup_cons,
        List.lookup_nil]
      cases hkey : key == name with
      | false => simp
      | true =>
          obtain rfl := eq_of_beq hkey
          simp [lookup_eq_none_of_notMem_keys hname]

namespace Dictionary

theorem contains_eq_isSome (d : Dictionary κ α) (key : κ) :
    d.contains key = (d.get? key).isSome := by
  obtain ⟨entries⟩ := d
  unfold contains get?
  dsimp only
  induction entries with
  | nil => rfl
  | cons entry entries ih =>
      obtain ⟨name, value⟩ := entry
      rw [List.any_cons, List.lookup_cons, ih]
      by_cases hkey : key = name
      · subst hkey
        simp
      · rw [beq_eq_false_iff_ne.mpr hkey, beq_eq_false_iff_ne.mpr (Ne.symm hkey), Bool.false_or]

theorem mem_keys_iff (d : Dictionary κ α) (key : κ) : key ∈ d.keys ↔ d.contains key = true := by
  unfold keys contains
  rw [List.any_eq_true, List.mem_map]
  simp only [beq_iff_eq]

theorem nodup_keys_insert {d : Dictionary κ α} (h : d.keys.Nodup) (key : κ) (value : α) :
    (d.insert key value).keys.Nodup := by
  rw [keys_insert]
  split
  next => exact h
  next hkey =>
      rw [← List.concat_eq_append, List.nodup_concat]
      exact ⟨hkey, h⟩

theorem nodup_keys_insertAll {d : Dictionary κ α} (h : d.keys.Nodup) (pairs : List (κ × α)) :
    (d.insertAll pairs).keys.Nodup := by
  induction pairs generalizing d with
  | nil => exact h
  | cons pair pairs ih => exact ih (nodup_keys_insert h pair.1 pair.2)

theorem nodup_keys_ofList (pairs : List (κ × α)) : (ofList pairs).keys.Nodup :=
  nodup_keys_insertAll (d := empty) List.nodup_nil pairs

theorem get?_ofList (pairs : List (κ × α)) (key : κ) :
    (ofList pairs).get? key = pairs.reverse.lookup key := by
  rw [ofList, get?_insertAll, get?_empty, Option.or_none]

/-- The entries of a dictionary built from pairs give the last of them under each key. -/
theorem lookup_reverse_ofList (pairs : List (κ × α)) (key : κ) :
    (ofList pairs).entries.reverse.lookup key = pairs.reverse.lookup key := by
  rw [lookup_reverse_of_nodup (nodup_keys_ofList pairs), ← get?_ofList]
  rfl

/-- The keys stand in the order in which they first occur among the pairs. -/
theorem keys_ofList (pairs : List (κ × α)) :
    (ofList pairs).keys = (pairs.map Prod.fst).eraseDups := by
  induction pairs using List.reverseRecOn with
  | nil => rfl
  | append_singleton pairs pair ih =>
      have hlast : ofList (pairs ++ [pair]) = (ofList pairs).insert pair.1 pair.2 := by
        simp [ofList, insertAll]
      rw [hlast, keys_insert, ih, List.map_append, List.eraseDups_append]
      by_cases hkey : pair.1 ∈ pairs.map Prod.fst
      · simp [List.removeAll, List.mem_eraseDups.mpr hkey, hkey]
      · have hnew : pair.1 ∉ (pairs.map Prod.fst).eraseDups := mt List.mem_eraseDups.mp hkey
        rw [if_neg hnew]
        simp [List.removeAll, hkey, List.eraseDups_cons]

theorem entries_eq_of_lookup {entries others : List (κ × α)}
    (hnodup : (entries.map Prod.fst).Nodup)
    (hkeys : entries.map Prod.fst = others.map Prod.fst)
    (hlookup : ∀ key, entries.lookup key = others.lookup key) : entries = others := by
  induction entries generalizing others with
  | nil => exact (List.map_eq_nil_iff.mp hkeys.symm).symm
  | cons entry entries ih =>
      obtain ⟨key, value⟩ := entry
      cases others with
      | nil => simp at hkeys
      | cons other others =>
          obtain ⟨otherKey, otherValue⟩ := other
          obtain ⟨rfl, hrest⟩ := List.cons.inj hkeys
          obtain ⟨hkey, hentries⟩ := List.nodup_cons.mp hnodup
          have hvalue := hlookup key
          simp only [List.lookup_cons_self, Option.some.injEq] at hvalue
          have hothers : entries = others := by
            refine ih hentries hrest fun name => ?_
            by_cases hname : name = key
            · subst hname
              have hother : name ∉ others.map Prod.fst := hrest ▸ hkey
              rw [lookup_eq_none_of_notMem_keys hkey, lookup_eq_none_of_notMem_keys hother]
            · have hlook := hlookup name
              rwa [List.lookup_cons, List.lookup_cons, beq_eq_false_iff_ne.mpr hname] at hlook
          rw [hvalue, hothers]

/-- A dictionary is known by the order of its keys and by the value under each. -/
theorem eq_ofList_iff {d : Dictionary κ α} {pairs : List (κ × α)} :
    d = ofList pairs ↔ d.keys = (pairs.map Prod.fst).eraseDups ∧
      ∀ key, d.get? key = pairs.reverse.lookup key := by
  constructor
  · rintro rfl
    exact ⟨keys_ofList pairs, get?_ofList pairs⟩
  · rintro ⟨hkeys, hget⟩
    have hsame : (ofList pairs).entries = d.entries := by
      refine entries_eq_of_lookup (nodup_keys_ofList pairs) ?_ fun key => ?_
      · exact (keys_ofList pairs).trans hkeys.symm
      · exact (get?_ofList pairs key).trans (hget key).symm
    obtain ⟨entries⟩ := d
    exact congrArg Dictionary.mk hsame.symm

end Dictionary

end Interlinear
