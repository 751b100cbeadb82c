/-!
# Dictionaries in order of first insertion

A dictionary is a list of entries.  Inserting under a key that is present keeps the key's place and
replaces its value; a new key goes to the end.  So the keys stand in the order of their first
insertion and each carries its last value.
-/

namespace Interlinear

structure Dictionary (κ α : Type) where
  entries : List (κ × α)

namespace Dictionary

variable {κ α : Type} [BEq κ]

def empty : Dictionary κ α :=
  ⟨[]⟩

def keys (d : Dictionary κ α) : List κ :=
  d.entries.map Prod.fst

def size (d : Dictionary κ α) : Nat :=
  d.entries.length

def get? (d : Dictionary κ α) (key : κ) : Option α :=
  d.entries.lookup key

def contains (d : Dictionary κ α) (key : κ) : Bool :=
  d.entries.any fun entry => entry.1 == key

def insertEntry (key : κ) (value : α) : List (κ × α) → List (κ × α)
  | [] => [(key, value)]
  | (other, previous) :: entries =>
      if other == key then (other, value) :: entries
      else (other, previous) :: insertEntry key value entries

def insert (d : Dictionary κ α) (key : κ) (value : α) : Dictionary κ α :=
  ⟨insertEntry key value d.entries⟩

/-- Inserts the pairs from first to last. -/
def insertAll (d : Dictionary κ α) (pairs : List (κ × α)) : Dictionary κ α :=
  pairs.foldl (fun d pair => d.insert pair.1 pair.2) d

def ofList (pairs : List (κ × α)) : Dictionary κ α :=
  empty.insertAll pairs

def map {β : Type} (f : α → β) (d : Dictionary κ α) : Dictionary κ β :=
  ⟨d.entries.map fun entry => (entry.1, f entry.2)⟩

@[simp] theorem get?_empty (key : κ) : (empty : Dictionary κ α).get? key = none := rfl

theorem lookup_insertEntry [LawfulBEq κ] (key other : κ) (value : α) (entries : List (κ × α)) :
    (insertEntry key value entries).lookup other =
      if other == key then some value else entries.lookup other := by
  induction entries with
  | nil => cases h : other == key <;> simp [insertEntry, List.lookup_cons, h]
  | cons entry entries ih =>
      obtain ⟨head, previous⟩ := entry
      unfold insertEntry
      by_cases hkey : head == key
      · rw [if_pos hkey]
        have : head = key := eq_of_beq hkey
        subst this
        cases h : other == head <;> simp [List.lookup_cons, h]
      · rw [if_neg hkey]
        cases h : other == head
        · simp [List.lookup_cons, h, ih]
        · have : other = head := eq_of_beq h
          subst this
          simp [hkey]

theorem get?_insert [LawfulBEq κ] (d : Dictionary κ α) (key other : κ) (value : α) :
    (d.insert key value).get? other = if other == key then some value else d.get? other :=
  lookup_insertEntry key other value d.entries

theorem map_fst_insertEntry [LawfulBEq κ] (key : κ) (value : α) (entries : List (κ × α)) :
    (insertEntry key value entries).map Prod.fst =
      if key ∈ entries.map Prod.fst then entries.map Prod.fst
      else entries.map Prod.fst ++ [key] := by
  induction entries with
  | nil => rfl
  | cons entry entries ih =>
      obtain ⟨head, previous⟩ := entry
      unfold insertEntry
      by_cases hkey : head = key
      · subst hkey
        simp
      · have hne : key ≠ head := fun h => hkey h.symm
        simp only [beq_iff_eq, hkey, if_false, List.map_cons, ih, List.mem_cons, hne, false_or]
        split <;> simp

theorem insertAll_cons (d : Dictionary κ α) (pair : κ × α) (pairs : List (κ × α)) :
    d.insertAll (pair :: pairs) = (d.insert pair.1 pair.2).insertAll pairs := rfl

/-- Of several pairs with one key the last one counts. -/
theorem get?_insertAll [LawfulBEq κ] (d : Dictionary κ α) (pairs : List (κ × α)) (key : κ) :
    (d.insertAll pairs).get? key = (pairs.reverse.lookup key).or (d.get? key) := by
  induction pairs generalizing d with
  | nil => rfl
  | cons pair pairs ih =>
      rw [insertAll_cons, ih, get?_insert, List.reverse_cons, List.lookup_append,
        Option.or_assoc, List.lookup_cons, List.lookup_nil]
      cases key == pair.1 <;> rfl

/-- An insertion keeps the keys or puts the new one at the end. -/
theorem keys_insert [LawfulBEq κ] (d : Dictionary κ α) (key : κ) (value : α) :
    (d.insert key value).keys = if key ∈ d.keys then d.keys else d.keys ++ [key] :=
  map_fst_insertEntry key value d.entries

end Dictionary

end Interlinear
