import Interlinear.Lexicon.Index
import Interlinear.Proofs.Dictionary
import Interlinear.Proofs.Translation.Relevance

/-!
# Lexemes with one id

An index is built by entering lexemes one after the other.  Its lookups, the order of its ids and
the reports of what was overridden are three views of this one row of steps.  Entering a lexeme
makes it the last one with its id, puts the id at the end unless it is there already, and reports it
in just this case.  So what the views say of the lexemes entered so far is carried from each step to
the next.

The lookups depend on the last lexemes with their ids alone.  A lexeme that a later one overrides
can be dropped and neighbours with different ids can be exchanged, and no translation notices, since
translations see an index through its lookups.
-/

namespace Interlinear

namespace Index

/-- Enters a lexeme into an index, and reports it if it overrides another. -/
def enter (progress : Index × List String) (lexeme : Lexeme) : Index × List String :=
  (⟨progress.1.glosses.insert lexeme.id lexeme.translation⟩,
    if progress.1.contains lexeme.id then progress.2 ++ [overrideMessage lexeme.id]
    else progress.2)

theorem contains_enter (index : Index) (reports : List String) (lexeme : Lexeme) (id : String) :
    (enter (index, reports) lexeme).1.contains id = (id == lexeme.id || index.contains id) := by
  unfold enter contains
  dsimp only
  rw [Dictionary.contains_eq_isSome, Dictionary.contains_eq_isSome, Dictionary.get?_insert]
  by_cases hid : id = lexeme.id
  · simp [hid]
  · rw [if_neg (by simpa using hid), beq_eq_false_iff_ne.mpr hid, Bool.false_or]

theorem foldl_enter {index : Index} {seen : List String}
    (hseen : ∀ id, index.contains id = seen.contains id) (reports : List String)
    (lexemes : List Lexeme) :
    lexemes.foldl enter (index, reports) =
      (⟨index.glosses.insertAll (lexemes.map fun lexeme => (lexeme.id, lexeme.translation))⟩,
        reports ++ (overridesAfter seen lexemes).map overrideMessage) := by
  induction lexemes generalizing index seen reports with
  | nil => simp [overridesAfter, Dictionary.insertAll]
  | cons lexeme lexemes ih =>
      have hcontains := contains_enter index reports lexeme
      rw [List.foldl_cons, List.map_cons, Dictionary.insertAll_cons, overridesAfter]
      by_cases hid : seen.contains lexeme.id
      · -- The id is among those seen already.
        have hentered : enter (index, reports) lexeme =
            (⟨index.glosses.insert lexeme.id lexeme.translation⟩,
              reports ++ [overrideMessage lexeme.id]) := by
          unfold enter
          rw [if_pos (by rw [hseen]; exact hid)]
        rw [hentered] at hcontains ⊢
        have hafter : ∀ id,
            Index.contains ⟨index.glosses.insert lexeme.id lexeme.translation⟩ id =
              seen.contains id := by
          intro id
          rw [hcontains, hseen]
          by_cases hsame : id = lexeme.id
          · rw [hsame, hid, Bool.or_true]
          · rw [beq_eq_false_iff_ne.mpr hsame, Bool.false_or]
        rw [if_pos hid, ih hafter, List.map_cons, List.append_assoc, List.singleton_append]
      · have hentered : enter (index, reports) lexeme =
            (⟨index.glosses.insert lexeme.id lexeme.translation⟩, reports) := by
          unfold enter
          rw [if_neg (by rw [hseen]; exact hid)]
        rw [hentered] at hcontains ⊢
        have hafter : ∀ id,
            Index.contains ⟨index.glosses.insert lexeme.id lexeme.translation⟩ id =
              (lexeme.id :: seen).contains id := by
          intro id
          rw [hcontains, hseen, List.contains_cons]
        rw [if_neg hid, ih hafter]

/-- Building an index and collecting the overrides is entering the lexemes into an empty one. -/
theorem foldl_enter_empty (lexemes : List Lexeme) :
    lexemes.foldl enter (⟨.empty⟩, []) =
      (build lexemes, (overrides lexemes).map overrideMessage) := by
  have hempty : ∀ id, Index.contains ⟨.empty⟩ id = ([] : List String).contains id := fun id => rfl
  rw [foldl_enter hempty, List.nil_append]
  rfl

/-! ## What the views say of the lexemes -/

/-- The lexeme is the last one with its id. -/
def IsLast (lexemes : List Lexeme) (lexeme : Lexeme) : Prop :=
  ∃ before after, lexemes = before ++ lexeme :: after ∧ ∀ other ∈ after, other.id ≠ lexeme.id

theorem not_isLast_nil (lexeme : Lexeme) : ¬ IsLast [] lexeme := by
  rintro ⟨before, after, hsplit, -⟩
  simp at hsplit

theorem isLast_concat_iff {lexemes : List Lexeme} {next lexeme : Lexeme} :
    IsLast (lexemes ++ [next]) lexeme ↔
      lexeme = next ∨ next.id ≠ lexeme.id ∧ IsLast lexemes lexeme := by
  constructor
  · rintro ⟨before, after, hsplit, hafter⟩
    rcases List.eq_nil_or_concat after with rfl | ⟨between, last, rfl⟩
    · exact .inl (List.append_singleton_inj.mp hsplit).2.symm
    · have hlast : lexemes ++ [next] = (before ++ lexeme :: between) ++ [last] := by
        simpa using hsplit
      obtain ⟨rfl, rfl⟩ := List.append_singleton_inj.mp hlast
      refine .inr ⟨hafter next (by simp), before, between, rfl, ?_⟩
      intro other hother
      exact hafter other (by simp [hother])
  · rintro (rfl | ⟨hid, before, after, rfl, hafter⟩)
    · exact ⟨lexemes, [], rfl, by simp⟩
    · refine ⟨before, after ++ [next], by simp, ?_⟩
      intro other hother
      rcases List.mem_append.mp hother with hother | hother
      · exact hafter other hother
      · rw [List.mem_singleton.mp hother]
        exact hid

/-- The place of the first lexeme with an id. -/
def firstPlace (lexemes : List Lexeme) (id : String) : Nat :=
  lexemes.findIdx fun lexeme => lexeme.id == id

theorem firstPlace_append {lexemes : List Lexeme} {id : String}
    (h : ∃ lexeme ∈ lexemes, lexeme.id = id) (others : List Lexeme) :
    firstPlace (lexemes ++ others) id = firstPlace lexemes id := by
  obtain ⟨lexeme, hmem, hid⟩ := h
  have hfound : firstPlace lexemes id < lexemes.length :=
    List.findIdx_lt_length_of_exists ⟨lexeme, hmem, by simp [hid]⟩
  unfold firstPlace at hfound ⊢
  rw [List.findIdx_append, if_pos hfound]

theorem firstPlace_lt {lexemes : List Lexeme} {id : String}
    (h : ∃ lexeme ∈ lexemes, lexeme.id = id) : firstPlace lexemes id < lexemes.length := by
  obtain ⟨lexeme, hmem, hid⟩ := h
  exact List.findIdx_lt_length_of_exists ⟨lexeme, hmem, by simp [hid]⟩

theorem firstPlace_concat_of_new {lexemes : List Lexeme} {lexeme : Lexeme}
    (h : ∀ other ∈ lexemes, other.id ≠ lexeme.id) :
    firstPlace (lexemes ++ [lexeme]) lexeme.id = lexemes.length := by
  have hnone : lexemes.findIdx (fun other => other.id == lexeme.id) = lexemes.length := by
    rw [List.findIdx_eq_length]
    intro other hother
    simpa using h other hother
  unfold firstPlace
  rw [List.findIdx_append, hnone, if_neg (Nat.lt_irrefl _)]
  simp

/-- The lexemes with an id that occurs before them, in order. -/
def repeated (lexemes : List Lexeme) : List Lexeme :=
  (lexemes.zipIdx.filter fun entry =>
    (lexemes.take entry.2).any fun earlier => earlier.id == entry.1.id).map Prod.fst

theorem repeated_concat (lexemes : List Lexeme) (lexeme : Lexeme) :
    repeated (lexemes ++ [lexeme]) =
      repeated lexemes ++
        if lexemes.any fun earlier => earlier.id == lexeme.id then [lexeme] else [] := by
  have hbefore : ∀ entry ∈ lexemes.zipIdx,
      ((lexemes ++ [lexeme]).take entry.2).any (fun earlier => earlier.id == entry.1.id) =
        (lexemes.take entry.2).any fun earlier => earlier.id == entry.1.id := by
    rintro ⟨other, place⟩ hentry
    have hplace : place < lexemes.length := by
      simpa using (List.mem_zipIdx hentry).2.1
    rw [List.take_append_of_le_length (by omega)]
  unfold repeated
  rw [List.zipIdx_append, List.filter_append, List.map_append, List.filter_congr hbefore]
  congr 1
  simp only [List.zipIdx_singleton, Nat.zero_add, List.filter_singleton]
  rw [List.take_append_of_le_length (Nat.le_refl _), List.take_length]
  cases lexemes.any fun earlier => earlier.id == lexeme.id <;> rfl

/-- What an index and its reports say of the lexemes that were entered. -/
structure Records (lexemes : List Lexeme) (index : Index) (reports : List String) : Prop where
  get?_eq_some_iff : ∀ id gloss, index.get? id = some gloss ↔
    ∃ lexeme, IsLast lexemes lexeme ∧ lexeme.id = id ∧ lexeme.translation = gloss
  get?_eq_none_iff : ∀ id, index.get? id = none ↔ ∀ lexeme ∈ lexemes, lexeme.id ≠ id
  mem_ids_iff : ∀ id, id ∈ index.ids ↔ ∃ lexeme ∈ lexemes, lexeme.id = id
  ids_inOrder : index.ids.Pairwise fun id other =>
    firstPlace lexemes id < firstPlace lexemes other
  reports_eq : reports = (repeated lexemes).map fun lexeme => overrideMessage lexeme.id

theorem records_empty : Records [] ⟨.empty⟩ [] where
  get?_eq_some_iff := by
    intro id gloss
    constructor
    · intro hget
      cases hget
    · rintro ⟨lexeme, hlast, -⟩
      exact absurd hlast (not_isLast_nil lexeme)
  get?_eq_none_iff := fun id => ⟨fun _ => by simp, fun _ => rfl⟩
  mem_ids_iff := by simp [ids, Dictionary.keys, Dictionary.empty]
  ids_inOrder := List.Pairwise.nil
  reports_eq := rfl

variable {lexemes : List Lexeme} {index : Index} {reports : List String}

theorem Records.contains_iff (h : Records lexemes index reports) (id : String) :
    index.contains id = true ↔ ∃ lexeme ∈ lexemes, lexeme.id = id := by
  rw [← h.mem_ids_iff]
  exact (index.glosses.mem_keys_iff id).symm

theorem get?_enter (index : Index) (reports : List String) (lexeme : Lexeme) (id : String) :
    (enter (index, reports) lexeme).1.get? id =
      if id == lexeme.id then some lexeme.translation else index.get? id :=
  index.glosses.get?_insert lexeme.id id lexeme.translation

theorem ids_enter (index : Index) (reports : List String) (lexeme : Lexeme) :
    (enter (index, reports) lexeme).1.ids =
      if lexeme.id ∈ index.ids then index.ids else index.ids ++ [lexeme.id] :=
  index.glosses.keys_insert lexeme.id lexeme.translation

theorem Records.get?_enter_eq_some_iff (h : Records lexemes index reports) (lexeme : Lexeme)
    (id : String) (gloss : Gloss) :
    (enter (index, reports) lexeme).1.get? id = some gloss ↔
      ∃ other, IsLast (lexemes ++ [lexeme]) other ∧ other.id = id ∧ other.translation = gloss := by
  rw [get?_enter]
  simp only [isLast_concat_iff]
  by_cases hid : id = lexeme.id
  · subst hid
    rw [if_pos (beq_self_eq_true _), Option.some.injEq]
    constructor
    · rintro rfl
      exact ⟨lexeme, .inl rfl, rfl, rfl⟩
    · rintro ⟨other, rfl | ⟨hne, -⟩, hother, htranslation⟩
      · exact htranslation
      · exact absurd hother.symm hne
  · rw [if_neg (by simpa using hid), h.get?_eq_some_iff]
    constructor
    · rintro ⟨other, hlast, rfl, htranslation⟩
      exact ⟨other, .inr ⟨Ne.symm hid, hlast⟩, rfl, htranslation⟩
    · rintro ⟨other, rfl | ⟨-, hlast⟩, hother, htranslation⟩
      · exact absurd hother.symm hid
      · exact ⟨other, hlast, hother, htranslation⟩

theorem Records.get?_enter_eq_none_iff (h : Records lexemes index reports) (lexeme : Lexeme)
    (id : String) :
    (enter (index, reports) lexeme).1.get? id = none ↔
      ∀ other ∈ lexemes ++ [lexeme], other.id ≠ id := by
  rw [get?_enter]
  by_cases hid : id = lexeme.id
  · subst hid
    simp
  · rw [if_neg (by simpa using hid), h.get?_eq_none_iff]
    simp only [List.mem_append, List.mem_singleton, or_imp, forall_and, forall_eq]
    exact ⟨fun hall => ⟨hall, Ne.symm hid⟩, fun hall => hall.1⟩

theorem Records.mem_ids_enter_iff (h : Records lexemes index reports) (lexeme : Lexeme)
    (id : String) :
    id ∈ (enter (index, reports) lexeme).1.ids ↔
      ∃ other ∈ lexemes ++ [lexeme], other.id = id := by
  have hold := h.mem_ids_iff
  rw [ids_enter]
  simp only [List.mem_append, List.mem_singleton, or_and_right, exists_or, exists_eq_left]
  split
  next hmem =>
      rw [hold]
      constructor
      · exact .inl
      · rintro (hexists | rfl)
        · exact hexists
        · exact (hold lexeme.id).mp hmem
  next hmem =>
      rw [List.mem_append, List.mem_singleton, hold]
      exact or_congr_right eq_comm

theorem Records.ids_enter_inOrder (h : Records lexemes index reports) (lexeme : Lexeme) :
    (enter (index, reports) lexeme).1.ids.Pairwise fun id other =>
      firstPlace (lexemes ++ [lexeme]) id < firstPlace (lexemes ++ [lexeme]) other := by
  -- The places of ids that are there already stay, and a new id comes after them.
  have hkept : index.ids.Pairwise fun id other =>
      firstPlace (lexemes ++ [lexeme]) id < firstPlace (lexemes ++ [lexeme]) other := by
    apply h.ids_inOrder.imp_of_mem
    intro id other hid hother hlt
    rw [firstPlace_append ((h.mem_ids_iff id).mp hid),
      firstPlace_append ((h.mem_ids_iff other).mp hother)]
    exact hlt
  rw [ids_enter]
  split
  next => exact hkept
  next hmem =>
      rw [List.pairwise_append]
      refine ⟨hkept, List.pairwise_singleton _ _, ?_⟩
      intro id hid other hother
      have hexists := (h.mem_ids_iff id).mp hid
      rw [List.mem_singleton.mp hother, firstPlace_append hexists, firstPlace_concat_of_new]
      · exact firstPlace_lt hexists
      · intro earlier hearlier hsame
        exact hmem ((h.mem_ids_iff lexeme.id).mpr ⟨earlier, hearlier, hsame⟩)

theorem Records.reports_enter (h : Records lexemes index reports) (lexeme : Lexeme) :
    (enter (index, reports) lexeme).2 =
      (repeated (lexemes ++ [lexeme])).map fun other => overrideMessage other.id := by
  have hany : index.contains lexeme.id =
      lexemes.any fun earlier => earlier.id == lexeme.id := by
    rw [Bool.eq_iff_iff, h.contains_iff, List.any_eq_true]
    simp only [beq_iff_eq]
  unfold enter
  dsimp only
  rw [repeated_concat, hany, List.map_append, ← h.reports_eq]
  split <;> simp

theorem Records.step (h : Records lexemes index reports) (lexeme : Lexeme) :
    Records (lexemes ++ [lexeme]) (enter (index, reports) lexeme).1
      (enter (index, reports) lexeme).2 where
  get?_eq_some_iff := h.get?_enter_eq_some_iff lexeme
  get?_eq_none_iff := h.get?_enter_eq_none_iff lexeme
  mem_ids_iff := h.mem_ids_enter_iff lexeme
  ids_inOrder := h.ids_enter_inOrder lexeme
  reports_eq := h.reports_enter lexeme

theorem Records.run (h : Records lexemes index reports) (others : List Lexeme) :
    Records (lexemes ++ others) (others.foldl enter (index, reports)).1
      (others.foldl enter (index, reports)).2 := by
  induction others generalizing lexemes index reports with
  | nil => simpa using h
  | cons lexeme others ih =>
      have hrest := ih (h.step lexeme)
      rwa [List.append_assoc, List.singleton_append] at hrest

theorem records_build (lexemes : List Lexeme) :
    Records lexemes (build lexemes) ((overrides lexemes).map overrideMessage) := by
  have hrun := records_empty.run lexemes
  rwa [foldl_enter_empty, List.nil_append] at hrun

/-! ## Lexemes that make no difference -/

/-- A lexeme that a later one overrides is dropped, or neighbours with different ids are exchanged.
-/
inductive Rearranges : List Lexeme → List Lexeme → Prop
  | dropped {before after : List Lexeme} {lexeme : Lexeme}
      (hlater : ∃ later ∈ after, later.id = lexeme.id) :
      Rearranges (before ++ lexeme :: after) (before ++ after)
  | exchanged {before after : List Lexeme} {first second : Lexeme} (hids : first.id ≠ second.id) :
      Rearranges (before ++ first :: second :: after) (before ++ second :: first :: after)

theorem get?_build_append (before after : List Lexeme) (id : String) :
    (build (before ++ after)).get? id =
      ((after.map fun lexeme => (lexeme.id, lexeme.translation)).reverse.lookup id).or
        ((build before).get? id) := by
  unfold build get? Dictionary.ofList
  rw [List.map_append, ← Dictionary.get?_insertAll]
  simp only [Dictionary.insertAll, List.foldl_append]

theorem get?_build_concat (before : List Lexeme) (lexeme : Lexeme) (id : String) :
    (build (before ++ [lexeme])).get? id =
      if id = lexeme.id then some lexeme.translation else (build before).get? id := by
  rw [get?_build_append]
  by_cases hid : id = lexeme.id
  · simp [hid]
  · simp [hid, List.lookup_cons, beq_eq_false_iff_ne.mpr hid]

theorem Rearranges.get?_build {others : List Lexeme} (h : Rearranges lexemes others)
    (id : String) : (build others).get? id = (build lexemes).get? id := by
  cases h with
  | @dropped before after lexeme hlater =>
      have hsplit : before ++ lexeme :: after = (before ++ [lexeme]) ++ after := by simp
      rw [hsplit, get?_build_append, get?_build_append (before ++ [lexeme]), get?_build_concat]
      by_cases hid : id = lexeme.id
      · -- The later lexeme is found first.
        have hfound : (after.map fun lexeme =>
            (lexeme.id, lexeme.translation)).reverse.lookup id ≠ none := by
          obtain ⟨later, hmem, hsame⟩ := hlater
          intro hnone
          have hall := List.lookup_eq_none_iff.mp hnone (later.id, later.translation)
            (List.mem_reverse.mpr (List.mem_map_of_mem hmem))
          simp [hid, hsame] at hall
        obtain ⟨gloss, hgloss⟩ := Option.ne_none_iff_exists'.mp hfound
        rw [hgloss, Option.some_or, Option.some_or]
      · rw [if_neg hid]
  | @exchanged before after first second hids =>
      have hsplit : ∀ one other : Lexeme,
          before ++ one :: other :: after = ((before ++ [one]) ++ [other]) ++ after := by
        intro one other
        simp
      rw [hsplit, hsplit, get?_build_append, get?_build_append (before ++ [first] ++ [second])]
      congr 1
      simp only [get?_build_concat]
      by_cases hfirst : id = first.id
      · have hsecond : id ≠ second.id := by
          rw [hfirst]
          exact hids
        rw [if_pos hfirst, if_neg hsecond, if_pos hfirst]
      · rw [if_neg hfirst, if_neg hfirst]

theorem translate_eq_of_get?_eq {index other : Index} (h : ∀ id, index.get? id = other.get? id)
    (morphology : Morphology) (limit : Int) (gloss : Gloss) :
    (Translator.make index morphology limit).map (fun translator => translator.translate gloss) =
      (Translator.make other morphology limit).map
        fun translator => translator.translate gloss := by
  apply Translator.map_make_congr
  intro hpos
  have hagrees : Translator.AgreesBelow ⟨index, morphology, limit.toNat, hpos⟩
      ⟨other, morphology, limit.toNat, hpos⟩ gloss := ⟨fun id _ => h id, fun _ _ => rfl⟩
  exact hagrees.translateAt_eq ⟨gloss, [], 0⟩ rfl rfl

theorem get_eq_ok_iff (index : Index) (id : String) (gloss : Gloss) :
    index.get id = .ok gloss ↔ index.get? id = some gloss := by
  unfold get
  cases index.get? id <;> simp

theorem get_eq_error_iff (index : Index) (id : String) (fault : MissingId) :
    index.get id = .error fault ↔ index.get? id = none ∧ fault = ⟨id⟩ := by
  unfold get
  cases index.get? id <;> simp [eq_comm]

/-- An index gives the translation of the last lexeme with an id, and nothing where there is none.
Membership and access to entries agree with this.  The ids stand in the order in which they first
occur, and there is a report for each lexeme whose id has occurred before.  All this comes of
entering the lexemes one by one.  Lexemes that are overridden later can be dropped and neighbours
with different ids exchanged, and all lookups and translations stay. -/
theorem build_keeps_last (lexemes : List Lexeme) :
    lexemes.foldl enter (⟨.empty⟩, []) =
        (build lexemes, (overrides lexemes).map overrideMessage) ∧
      Records lexemes (build lexemes) ((overrides lexemes).map overrideMessage) ∧
      (∀ id, (build lexemes).contains id = ((build lexemes).get? id).isSome) ∧
      (∀ id gloss, (build lexemes).get id = .ok gloss ↔ (build lexemes).get? id = some gloss) ∧
      (∀ id fault, (build lexemes).get id = .error fault ↔
        (build lexemes).get? id = none ∧ fault = ⟨id⟩) ∧
      (build lexemes).size = (build lexemes).ids.length ∧
      ∀ others, Rearranges lexemes others →
        (∀ id, (build others).get? id = (build lexemes).get? id ∧
          (build others).contains id = (build lexemes).contains id ∧
          (build others).get id = (build lexemes).get id) ∧
        ∀ (morphology : Morphology) (limit : Int) (gloss : Gloss),
          (Translator.make (build others) morphology limit).map
              (fun translator => translator.translate gloss) =
            (Translator.make (build lexemes) morphology limit).map
              fun translator => translator.translate gloss := by
  have hcontains : ∀ (index : Index) (id : String), index.contains id = (index.get? id).isSome :=
    fun index id => index.glosses.contains_eq_isSome id
  refine ⟨foldl_enter_empty lexemes, records_build lexemes, hcontains _, get_eq_ok_iff _,
    get_eq_error_iff _, ?_, ?_⟩
  · unfold size ids Dictionary.size Dictionary.keys
    rw [List.length_map]
  · intro others hrearranges
    have hget := hrearranges.get?_build
    refine ⟨fun id => ⟨hget id, ?_, ?_⟩, translate_eq_of_get?_eq hget⟩
    · rw [hcontains, hcontains, hget]
    · unfold get
      rw [hget]

def bears : List Lexeme :=
  [⟨"bear", .literal "ors", "", []⟩, ⟨"lion", .literal "llew", "", []⟩,
    ⟨"bear", .compound [.literal "arth", .pointer "lion"], "", []⟩]

/-- The second bear overrides the first, which can be dropped. -/
theorem build_keeps_last_bears :
    Rearranges bears bears.tail ∧ (overrides bears).map overrideMessage =
        ["Duplicate lexeme id 'bear': later entry overrides earlier one"] ∧
      (build bears).ids = ["bear", "lion"] ∧
      ∀ (morphology : Morphology) (limit : Int),
        (Translator.make (build bears.tail) morphology limit).map
            (fun translator => translator.translate (.pointer "bear")) =
          (Translator.make (build bears) morphology limit).map
            fun translator => translator.translate (.pointer "bear") := by
  have hdropped : Rearranges bears bears.tail := by
    apply @Rearranges.dropped [] bears.tail ⟨"bear", .literal "ors", "", []⟩
    exact ⟨⟨"bear", .compound [.literal "arth", .pointer "lion"], "", []⟩, by simp [bears], rfl⟩
  obtain ⟨-, -, -, -, -, -, hrearranged⟩ := build_keeps_last bears
  obtain ⟨-, htranslate⟩ := hrearranged bears.tail hdropped
  refine ⟨hdropped, by decide, by decide, ?_⟩
  intro morphology limit
  exact htranslate morphology limit (.pointer "bear")

end Index

end Interlinear
