import Interlinear.Proofs.Gloss.RoundTrip

/-!
# What a written gloss denotes

An inflection of an inflection has no written form of its own: its text is that of one inflection,
with the names of the inner one before those of the outer one.  So a gloss of words is written as
the gloss in which all such inflections are merged, and its text is read back as that gloss.  The
merged gloss is canonical, and it is the gloss itself where no inflection is the direct stem of
another one.
-/

namespace Interlinear.Gloss

open Outcome

mutual
/-- Every text, id and name is a word. -/
def OfWords : Gloss → Prop
  | literal text => IsWord text
  | pointer id => IsWord id
  | inflection stem names => stem.OfWords ∧ ∀ name ∈ names, IsWord name
  | compound elements => AllOfWords elements
  | stray _ => False
def AllOfWords : List Gloss → Prop
  | [] => True
  | g :: gs => g.OfWords ∧ AllOfWords gs
end

mutual
theorem OfWords.wellTyped : (gloss : Gloss) → gloss.OfWords → gloss.WellTyped
  | literal _, _ => trivial
  | pointer _, _ => trivial
  | inflection stem _, h => OfWords.wellTyped stem h.1
  | compound elements, h => AllOfWords.wellTyped elements h
  | stray _, h => h
theorem AllOfWords.wellTyped : (glosses : List Gloss) → AllOfWords glosses → AllWellTyped glosses
  | [], _ => trivial
  | g :: gs, h => ⟨OfWords.wellTyped g h.1, AllOfWords.wellTyped gs h.2⟩
end

/-! ### Merging inflections -/

/-- Names after those of an inflection, or the first names of another gloss. -/
def addNames : Gloss → List String → Gloss
  | inflection stem inner, outer => inflection stem (inner ++ outer)
  | gloss, names => inflection gloss names

mutual
def merged : Gloss → Gloss
  | inflection stem names => stem.merged.addNames names
  | compound elements => compound (mergedAll elements)
  | gloss => gloss
def mergedAll : List Gloss → List Gloss
  | [] => []
  | g :: gs => g.merged :: mergedAll gs
end

mutual
/-- Somewhere an inflection is the direct stem of another one. -/
def HasStack : Gloss → Prop
  | inflection stem _ => stem.isInflection = true ∨ stem.HasStack
  | compound elements => AnyStack elements
  | _ => False
def AnyStack : List Gloss → Prop
  | [] => False
  | g :: gs => g.HasStack ∨ AnyStack gs
end

/-- The stem of an inflection is no inflection. -/
def IsFlat : Gloss → Prop
  | inflection stem _ => stem.isInflection = false
  | _ => True

theorem isInflection_addNames (gloss : Gloss) (names : List String) :
    (gloss.addNames names).isInflection = true := by
  cases gloss <;> rfl

theorem IsFlat.addNames {gloss : Gloss} (h : gloss.IsFlat) (names : List String) :
    (gloss.addNames names).IsFlat := by
  cases gloss with
  | inflection stem inner => exact h
  | literal | pointer | compound | stray => rfl

theorem isInflection_merged (gloss : Gloss) : gloss.merged.isInflection = gloss.isInflection := by
  cases gloss with
  | inflection stem names =>
      rw [merged, isInflection_addNames]
      rfl
  | literal | pointer | compound | stray => rfl

theorem isFlat_merged : (gloss : Gloss) → gloss.merged.IsFlat
  | inflection stem names => by
      rw [merged]
      exact (isFlat_merged stem).addNames names
  | compound _ => trivial
  | literal _ => trivial
  | pointer _ => trivial
  | stray _ => trivial

theorem addNames_eq_inflection_iff {gloss stem : Gloss} {names : List String}
    (hflat : gloss.IsFlat) (hstem : stem.isInflection = gloss.isInflection) :
    gloss.addNames names = inflection stem names ↔
      stem.isInflection = false ∧ gloss = stem := by
  cases gloss with
  | inflection inner innerNames =>
      have hinflection : stem.isInflection = true := hstem
      constructor
      · intro heq
        -- The stem after merging is no inflection, but the stem before it is one.
        have hinner : inner = stem := (inflection.inj heq).1
        rw [← hinner, show inner.isInflection = false from hflat] at hinflection
        cases hinflection
      · rintro ⟨hnot, -⟩
        rw [hinflection] at hnot
        cases hnot
  | literal | pointer | compound | stray =>
      have hnot : stem.isInflection = false := hstem
      simp [Gloss.addNames, hnot]

mutual
theorem merged_eq_self_iff : (gloss : Gloss) → (gloss.merged = gloss ↔ ¬ gloss.HasStack)
  | inflection stem names => by
      have hstem := merged_eq_self_iff stem
      rw [merged, addNames_eq_inflection_iff (isFlat_merged stem) (isInflection_merged stem).symm,
        HasStack, not_or, hstem, Bool.not_eq_true]
  | compound elements => by
      have helements := mergedAll_eq_self_iff elements
      rw [merged, HasStack, compound.injEq, helements]
  | literal _ => by simp [merged, HasStack]
  | pointer _ => by simp [merged, HasStack]
  | stray _ => by simp [merged, HasStack]
theorem mergedAll_eq_self_iff :
    (glosses : List Gloss) → (mergedAll glosses = glosses ↔ ¬ AnyStack glosses)
  | [] => by simp [mergedAll, AnyStack]
  | g :: gs => by
      have hg := merged_eq_self_iff g
      have hgs := mergedAll_eq_self_iff gs
      rw [mergedAll, AnyStack, List.cons.injEq, hg, hgs, not_or]
end

/-! ### The text of a merged gloss -/

theorem intercalate_append_names (text : String) (inner : List String) {outer : List String}
    (houter : outer ≠ []) :
    "#".intercalate (text :: (inner ++ outer)) =
      "#".intercalate ("#".intercalate (text :: inner) :: outer) := by
  calc
    "#".intercalate (text :: (inner ++ outer)) =
        "#".intercalate (text :: inner) ++ "#" ++ "#".intercalate outer := by
      rw [← List.cons_append, String.intercalate_append_of_ne_nil (by simp) houter]
    _ = "#".intercalate (["#".intercalate (text :: inner)] ++ outer) := by
      rw [String.intercalate_append_of_ne_nil (by simp) houter, String.intercalate_singleton]

/-- A stem is written as it is, and names follow it. -/
theorem print_addNames (mode : Mode) {gloss : Gloss} {names : List String} (hnames : names ≠ [])
    (hgap : ∀ stem, gloss ≠ inflection stem []) :
    print mode (gloss.addNames names) =
      print mode gloss >>= fun text => .ok ("#".intercalate (text :: names)) := by
  have hsingle : ∀ stem, print mode (inflection stem names) =
      print mode stem >>= fun text => .ok ("#".intercalate (text :: names)) := by
    intro stem
    rw [print, if_neg (by simpa using hnames)]
  cases gloss with
  | inflection stem inner =>
      have hinner : inner ≠ [] := fun h => hgap stem (by rw [h])
      rw [addNames, print, print, if_neg (by simp [hinner]), if_neg (by simpa using hinner)]
      cases print mode stem with
      | error e => rfl
      | ok text => exact congrArg Except.ok (intercalate_append_names text inner hnames)
  | literal | pointer | compound | stray => exact hsingle _

theorem addNames_ne_unnamed {gloss : Gloss} {names : List String} (hnames : names ≠ [])
    (stem : Gloss) : gloss.addNames names ≠ inflection stem [] := by
  cases gloss <;> simp [addNames, hnames]

theorem merged_ne_unnamed {gloss : Gloss} (h : ¬ gloss.HasGap) (stem : Gloss) :
    gloss.merged ≠ inflection stem [] := by
  cases gloss with
  | inflection inner names =>
      rw [merged]
      exact addNames_ne_unnamed (not_or.mp h).1 stem
  | literal | pointer | compound | stray => simp [merged]

mutual
theorem print_merged (mode : Mode) :
    (gloss : Gloss) → ¬ gloss.HasGap → print mode gloss.merged = print mode gloss
  | inflection stem names, h => by
      obtain ⟨hnames, hstem⟩ := not_or.mp h
      rw [merged, print_addNames mode hnames (merged_ne_unnamed hstem),
        print_merged mode stem hstem, print, if_neg (by simpa using hnames)]
  | compound elements, h => by
      obtain ⟨helements, hany⟩ := not_or.mp h
      have hmerged : mergedAll elements ≠ [] := by
        cases elements with
        | nil => exact helements
        | cons g gs => simp [mergedAll]
      rw [merged, print, print, if_neg (by simpa using hmerged), if_neg (by simpa using helements),
        printAll_mergedAll mode elements hany]
  | literal _, _ => rfl
  | pointer _, _ => rfl
  | stray _, _ => rfl
theorem printAll_mergedAll (mode : Mode) :
    (glosses : List Gloss) → ¬ AnyGap glosses →
      printAll mode (mergedAll glosses) = printAll mode glosses
  | [], _ => rfl
  | g :: gs, h => by
      obtain ⟨hg, hgs⟩ := not_or.mp h
      rw [mergedAll, printAll, printAll, print_merged mode g hg, printAll_mergedAll mode gs hgs]
end

/-! ### Canonical glosses -/

theorem Canonical.addNames {gloss : Gloss} {names : List String} (h : gloss.Canonical)
    (hne : names ≠ []) (hnames : ∀ name ∈ names, IsWord name) :
    (gloss.addNames names).Canonical := by
  cases gloss with
  | inflection stem inner =>
      obtain ⟨hstem, hflat, -, hinner⟩ := h
      refine ⟨hstem, hflat, by simp [hne], fun name hname => ?_⟩
      rcases List.mem_append.mp hname with hname | hname
      · exact hinner name hname
      · exact hnames name hname
  | literal | pointer | compound | stray => exact ⟨h, rfl, hne, hnames⟩

mutual
theorem OfWords.canonical_merged :
    (gloss : Gloss) → gloss.OfWords → ¬ gloss.HasGap → gloss.merged.Canonical
  | literal _, h, _ => h
  | pointer _, h, _ => h
  | inflection stem names, h, hgap => by
      obtain ⟨hstem, hnames⟩ := h
      obtain ⟨hne, hstemGap⟩ := not_or.mp hgap
      rw [merged]
      exact (OfWords.canonical_merged stem hstem hstemGap).addNames hne hnames
  | compound [], _, hgap => absurd (.inl rfl) hgap
  | compound (first :: others), h, hgap => by
      rw [merged]
      exact ⟨by simp [mergedAll],
        AllOfWords.canonical_mergedAll (first :: others) h (not_or.mp hgap).2⟩
theorem AllOfWords.canonical_mergedAll :
    (glosses : List Gloss) → AllOfWords glosses → ¬ AnyGap glosses →
      AllCanonical (mergedAll glosses)
  | [], _, _ => trivial
  | g :: gs, h, hgap => by
      obtain ⟨hg, hgs⟩ := not_or.mp hgap
      rw [mergedAll]
      exact ⟨OfWords.canonical_merged g h.1 hg, AllOfWords.canonical_mergedAll gs h.2 hgs⟩
end

theorem OfWords.parse_of_print {mode : Mode} {gloss : Gloss} {text : String}
    (h : gloss.OfWords) (hprint : print mode gloss = .ok text) :
    parse mode text = .ok gloss.merged := by
  have hwritten := written_print mode gloss (OfWords.wellTyped gloss h)
  have hgap : ¬ gloss.HasGap := hwritten.exists_ok_iff.mp ⟨text, hprint⟩
  obtain ⟨other, hother, hderives⟩ := (OfWords.canonical_merged gloss h hgap).exists_derives mode
  have htext : other = text := by
    rw [print_merged mode gloss hgap, hprint] at hother
    exact (Except.ok.inj hother).symm
  rw [← htext]
  exact parse_of_derives hderives

/-- A gloss of words is refused where it has a gap and otherwise written as a text that is read back
as the merged gloss.  So the text denotes another gloss exactly if the gloss has no gap and an
inflection in it is the direct stem of another one. -/
theorem parse_print_merged (mode : Mode) (gloss : Gloss) (hwords : gloss.OfWords) :
    ((∃ e, print mode gloss = .error e ∧ e.IsGap) ↔ gloss.HasGap) ∧
      ((∃ text, print mode gloss = .ok text ∧ parse mode text = .ok gloss.merged) ↔
        ¬ gloss.HasGap) ∧
      ((∃ text, print mode gloss = .ok text ∧ parse mode text ≠ .ok gloss) ↔
        ¬ gloss.HasGap ∧ gloss.HasStack) := by
  have hwritten := written_print mode gloss (OfWords.wellTyped gloss hwords)
  have hok := hwritten.exists_ok_iff
  have hstack : gloss.merged = gloss ↔ ¬ gloss.HasStack := merged_eq_self_iff gloss
  refine ⟨hwritten.exists_error_iff, ?_, ?_⟩
  · rw [← hok]
    constructor
    · rintro ⟨text, hprint, -⟩
      exact ⟨text, hprint⟩
    · rintro ⟨text, hprint⟩
      exact ⟨text, hprint, hwords.parse_of_print hprint⟩
  · constructor
    · rintro ⟨text, hprint, hparse⟩
      refine ⟨hok.mp ⟨text, hprint⟩, ?_⟩
      by_contra hnone
      apply hparse
      rw [hwords.parse_of_print hprint, hstack.mpr hnone]
    · rintro ⟨hgap, hnested⟩
      obtain ⟨text, hprint⟩ := hok.mpr hgap
      refine ⟨text, hprint, fun hparse => ?_⟩
      rw [hwords.parse_of_print hprint, Except.ok.injEq] at hparse
      exact hstack.mp hparse hnested

/-- An inflected row whose stem is inflected already, as no text has it. -/
def stackedRow : Gloss :=
  inflection (inflection (compound [literal "pre", pointer "see"]) ["INC"]) ["PL"]

theorem ofWords_stackedRow : stackedRow.OfWords := by
  have hpre : IsWord "pre" := by decide
  have hsee : IsWord "see" := by decide
  have hinner : IsWord "INC" := by decide
  have houter : IsWord "PL" := by decide
  exact ⟨⟨⟨hpre, hsee, trivial⟩, by simpa using hinner⟩, by simpa using houter⟩

theorem parse_print_merged_stackedRow :
    stackedRow.OfWords ∧
      (∃ text, print .implicitPointers stackedRow = .ok text ∧
        parse .implicitPointers text ≠ .ok stackedRow) ∧
      print .implicitPointers stackedRow = .ok "[^pre+see]#INC#PL" := by
  have hstack : ¬ stackedRow.HasGap ∧ stackedRow.HasStack := by
    simp [stackedRow, HasGap, AnyGap, HasStack, isInflection]
  refine ⟨ofWords_stackedRow, ?_, rfl⟩
  exact (parse_print_merged .implicitPointers stackedRow ofWords_stackedRow).2.2.mpr hstack

/-- Not every gloss of words is refused or read back from its text. -/
theorem not_parse_print_self :
    ¬ ∀ (mode : Mode) (gloss : Gloss), gloss.OfWords →
      (∃ e, print mode gloss = .error e) ∨
        ∃ text, print mode gloss = .ok text ∧ parse mode text = .ok gloss := by
  intro h
  have hword : IsWord "arth" := by decide
  have hinner : IsWord "PL" := by decide
  have houter : IsWord "NEG" := by decide
  have hprint : print .implicitLiterals (inflection (inflection (literal "arth") ["PL"]) ["NEG"]) =
      .ok "arth#PL#NEG" := rfl
  have hparse : parse .implicitLiterals "arth#PL#NEG" =
      .ok (inflection (literal "arth") ["PL", "NEG"]) := by cbv
  rcases h .implicitLiterals (inflection (inflection (literal "arth") ["PL"]) ["NEG"])
    ⟨⟨hword, by simpa using hinner⟩, by simpa using houter⟩ with ⟨e, he⟩ | ⟨text, htext, hback⟩
  · rw [hprint] at he
    cases he
  · rw [hprint] at htext
    obtain rfl := Except.ok.inj htext
    rw [hparse] at hback
    simp at hback

end Interlinear.Gloss
