import Mathlib.Data.List.Forall2
import Interlinear.Proofs.Lexicon.Faults

/-!
# The user's cells and their columns

The names of the user's columns are told from the header by name, and the user's cells from a row by
place.  The two selections agree for a row without cells beyond the header under a header that
repeats no required column, and for no other row: a second column of a required name keeps its cell
among the user's, and so does a cell under no column at all.
-/

namespace Interlinear.Lexicon

open Outcome

/-- The places of the columns that are not required. -/
def userPlaces (header : List String) : List Nat :=
  (List.range header.length).filter fun i => header.getD i "" ∉ requiredColumns

/-- The user's cells stand one to one with the names of the user's columns, and each is the cell of
the row under its column, where a short row has an empty cell. -/
structure LinesUp (lexicon : Lexicon) (row : List String) (lexeme : Lexeme) : Prop where
  length_eq : lexeme.userCells.length = lexicon.userColumns.length
  getElem?_eq : ∀ j : Nat, lexeme.userCells[j]? =
    (userPlaces lexicon.columns)[j]?.map fun i => row.getD i ""

variable {header row : List String} {records : List Csv.Record} {lexemes : List Lexeme}

/-! ### Selections of columns -/

theorem map_userPlaces (header : List String) :
    (userPlaces header).map (fun i => header.getD i "") =
      header.filter fun name => !requiredColumns.contains name := by
  have hheader : header = (List.range header.length).map fun i => header.getD i "" := by
    apply List.ext_getElem
    · simp
    · intro i hi _
      simp [hi]
  conv_rhs => rw [hheader, List.filter_map]
  unfold userPlaces
  congr 1
  apply List.filter_congr
  intro i _
  simp

theorem linesUp_iff {lexicon : Lexicon} {lexeme : Lexeme} :
    LinesUp lexicon row lexeme ↔
      lexeme.userCells = (userPlaces lexicon.columns).map fun i => row.getD i "" := by
  have hlength : lexicon.userColumns.length = (userPlaces lexicon.columns).length := by
    rw [userColumns, ← map_userPlaces, List.length_map]
  constructor
  · intro h
    apply List.ext_getElem?
    intro j
    rw [h.getElem?_eq, List.getElem?_map]
  · intro h
    constructor
    · rw [h, List.length_map, hlength]
    · intro j
      rw [h, List.getElem?_map]

theorem getD_idxOf {name : String} (h : name ∈ header) :
    header.getD (header.idxOf name) "" = name := by
  have hindex := List.idxOf_lt_length_of_mem h
  rw [List.getD_eq_getElem?_getD, List.getElem?_eq_getElem hindex, List.getElem_idxOf hindex]
  rfl

/-- A name stands only once when it stands nowhere but in its first place. -/
theorem count_eq_one_iff {name : String} (h : name ∈ header) :
    header.count name = 1 ↔
      ∀ i < header.length, header.getD i "" = name → i = header.idxOf name := by
  induction header with
  | nil => simp at h
  | cons first header ih =>
      by_cases hfirst : first = name
      · rw [hfirst, List.count_cons_self, Nat.add_eq_right, List.count_eq_zero,
          List.idxOf_cons_self]
        constructor
        · rintro hmem (_ | i) hi hname
          · rfl
          · rw [List.getD_cons_succ, List.getD_eq_getElem?_getD,
              List.getElem?_eq_getElem (Nat.lt_of_succ_lt_succ hi)] at hname
            exact absurd (hname ▸ List.getElem_mem _) hmem
        · intro hall hmem
          have hindex := List.idxOf_lt_length_of_mem hmem
          exact absurd (hall _ (Nat.succ_lt_succ hindex) (getD_idxOf hmem)) (Nat.succ_ne_zero _)
      · have hmem := List.mem_of_ne_of_mem (Ne.symm hfirst) h
        rw [List.count_cons_of_ne hfirst, ih hmem, List.idxOf_cons_ne _ hfirst]
        constructor
        · rintro hall (_ | i) hi hname
          · exact absurd hname hfirst
          · exact congrArg Nat.succ (hall i (Nat.lt_of_succ_lt_succ hi) hname)
        · intro hall i hi hname
          exact Nat.succ.inj (hall (i + 1) (Nat.succ_lt_succ hi) hname)

theorem mem_userPlaces_iff {i : Nat} :
    i ∈ userPlaces header ↔ i < header.length ∧ header.getD i "" ∉ requiredColumns := by
  simp [userPlaces]

theorem mem_otherColumns_iff {i : Nat} :
    i ∈ otherColumns header ↔
      i < header.length ∧ ∀ name ∈ requiredColumns, i ≠ header.idxOf name := by
  simp [otherColumns]

theorem ne_idxOf_of_getD_notMem (hheader : ∀ name ∈ requiredColumns, name ∈ header) {i : Nat}
    (h : header.getD i "" ∉ requiredColumns) : ∀ name ∈ requiredColumns, i ≠ header.idxOf name := by
  rintro name hname rfl
  rw [getD_idxOf (hheader name hname)] at h
  exact h hname

theorem userPlaces_sublist (hheader : ∀ name ∈ requiredColumns, name ∈ header) :
    (userPlaces header).Sublist (otherColumns header) := by
  apply List.monotone_filter_right
  intro i hi
  rw [decide_eq_true_eq] at hi ⊢
  exact ne_idxOf_of_getD_notMem hheader hi

theorem userPlaces_eq_iff (hheader : ∀ name ∈ requiredColumns, name ∈ header) :
    userPlaces header = otherColumns header ↔
      ∀ name ∈ requiredColumns, header.count name = 1 := by
  constructor
  · intro heq name hname
    rw [count_eq_one_iff (hheader name hname)]
    rintro i hi rfl
    have hnot : i ∉ otherColumns header := by
      rw [← heq, mem_userPlaces_iff]
      exact fun h => h.2 hname
    rw [mem_otherColumns_iff] at hnot
    push Not at hnot
    obtain ⟨other, hother, hindex⟩ := hnot hi
    have hsame : header.getD i "" = other := by rw [hindex, getD_idxOf (hheader other hother)]
    rw [hsame, hindex]
  · intro hcount
    apply List.filter_congr
    intro i hi
    rw [List.mem_range] at hi
    rw [decide_eq_decide]
    constructor
    · exact ne_idxOf_of_getD_notMem hheader
    · intro hall hname
      have hindex := (count_eq_one_iff (hheader _ hname)).mp (hcount _ hname) i hi rfl
      exact hall _ hname hindex

/-! ### Lexemes as read -/

theorem forall₂_of_readLexemes {layout : Layout} (h : readLexemes layout records = .ok lexemes) :
    List.Forall₂ (fun record lexeme => readLexeme layout record = .ok lexeme) records lexemes := by
  induction records generalizing lexemes with
  | nil =>
      obtain rfl := Except.ok.inj h
      exact .nil
  | cons record records ih =>
      obtain ⟨lexeme, hlexeme, hrest⟩ := bind_eq_ok_iff.mp h
      obtain ⟨others, hothers, hend⟩ := bind_eq_ok_iff.mp hrest
      obtain rfl := Except.ok.inj hend
      exact .cons hlexeme (ih hothers)

theorem linesUp_iff_of_userCells {lexicon : Lexicon} {lexeme : Lexeme}
    (hheader : ∀ name ∈ requiredColumns, name ∈ lexicon.columns)
    (hcells : lexeme.userCells = (otherColumns lexicon.columns).map (fun i => row.getD i "") ++
      row.drop lexicon.columns.length) :
    LinesUp lexicon row lexeme ↔ row.length ≤ lexicon.columns.length ∧
      ∀ name ∈ requiredColumns, lexicon.columns.count name = 1 := by
  rw [linesUp_iff, hcells, ← userPlaces_eq_iff hheader]
  constructor
  · intro heq
    have hsublist := userPlaces_sublist hheader
    have hle := hsublist.length_le
    have hlength := congrArg List.length heq
    rw [List.length_append, List.length_map, List.length_map, List.length_drop] at hlength
    have hsame : (userPlaces lexicon.columns).length = (otherColumns lexicon.columns).length := by
      omega
    exact ⟨by omega, hsublist.eq_of_length hsame⟩
  · rintro ⟨hlength, hplaces⟩
    rw [hplaces, List.drop_eq_nil_iff.mpr hlength, List.append_nil]

theorem userCells_of_readLexeme (hheader : ∀ name ∈ requiredColumns, name ∈ header)
    {record : Csv.Record} {lexeme : Lexeme}
    (h : readLexeme (.ofHeader header) record = .ok lexeme) :
    lexeme.userCells = (otherColumns header).map (fun i => record.cells.getD i "") ++
      record.cells.drop header.length := by
  obtain ⟨gloss, hgloss⟩ := exists_readLexeme_eq_ok_iff.mp ⟨lexeme, h⟩
  rw [readLexeme_of_ok hgloss] at h
  obtain rfl := Except.ok.inj h
  exact userCells_pad hheader record.cells

theorem exists_rows_of_parse {raw : String} {lexicon : Lexicon} (h : parse raw = .ok lexicon) :
    ∃ records top rows, Csv.read raw = .ok records ∧
      (records.filter fun record => !isBlankRow record.cells) = top :: rows ∧
      top.cells = lexicon.columns ∧ (∀ name ∈ requiredColumns, name ∈ lexicon.columns) ∧
      readLexemes (.ofHeader lexicon.columns) rows = .ok lexicon.lexemes := by
  cases hread : Csv.read raw with
  | error e =>
      rw [parse_of_read_error hread] at h
      cases h
  | ok records =>
      cases hrows : records.filter fun record => !isBlankRow record.cells with
      | nil =>
          rw [parse_of_no_rows hread hrows] at h
          cases h
      | cons top rows =>
          rw [parse_of_rows hread hrows] at h
          by_cases hmissing : missingColumns top.cells = []
          · rw [if_pos hmissing] at h
            cases hlexemes : readLexemes (.ofHeader top.cells) rows with
            | error e =>
                rw [hlexemes] at h
                cases h
            | ok lexemes =>
                rw [hlexemes] at h
                obtain rfl := Except.ok.inj h
                exact ⟨records, top, rows, rfl, hrows, rfl, missingColumns_eq_nil_iff.mp hmissing,
                  hlexemes⟩
          · rw [if_neg hmissing] at h
            cases h

/-- The user's cells of a lexeme are those under the columns other than the first ones of the
required names, and then those under no column. -/
theorem userCells_linesUp_iff {raw : String} {lexicon : Lexicon} (h : parse raw = .ok lexicon) :
    ∃ records rows, Csv.read raw = .ok records ∧
      Csv.standing (records.map Csv.Record.cells) = lexicon.columns :: rows ∧
      List.Forall₂ (fun row lexeme =>
        lexeme.userCells = (otherColumns lexicon.columns).map (fun i => row.getD i "") ++
          row.drop lexicon.columns.length ∧
        (LinesUp lexicon row lexeme ↔ row.length ≤ lexicon.columns.length ∧
          ∀ name ∈ requiredColumns, lexicon.columns.count name = 1)) rows lexicon.lexemes := by
  obtain ⟨records, top, rows, hread, hrows, htop, hheader, hlexemes⟩ := exists_rows_of_parse h
  refine ⟨records, rows.map Csv.Record.cells, hread, ?_, ?_⟩
  · rw [standing_map_cells, hrows, List.map_cons, htop]
  · rw [List.forall₂_map_left_iff]
    apply (forall₂_of_readLexemes hlexemes).imp
    intro record lexeme hlexeme
    have hcells := userCells_of_readLexeme hheader hlexeme
    exact ⟨hcells, linesUp_iff_of_userCells hheader hcells⟩

/-- A second column of ids, and a row that goes on beyond the header. -/
def raggedTable : String :=
  "id,translation,generator,note,id\nbear,arth,,n,x,y\n"

def raggedLexicon : Lexicon where
  columns := ["id", "translation", "generator", "note", "id"]
  lexemes := [⟨"bear", .literal "arth", "", ["n", "x", "y"]⟩]

def raggedRow : List String :=
  ["bear", "arth", "", "n", "x", "y"]

theorem parse_raggedTable : parse raggedTable = .ok raggedLexicon := by
  have hread : Csv.read raggedTable = .ok [⟨1, raggedLexicon.columns⟩, ⟨2, raggedRow⟩] := by
    decide +kernel
  have hrows : ([⟨1, raggedLexicon.columns⟩, ⟨2, raggedRow⟩] : List Csv.Record).filter
      (fun record => !isBlankRow record.cells) =
      [⟨1, raggedLexicon.columns⟩, ⟨2, raggedRow⟩] :=
    rfl
  have hgloss : Gloss.parse .implicitLiterals
      (cellUnder raggedLexicon.columns "translation" raggedRow) = .ok (.literal "arth") :=
    rfl
  rw [parse_of_rows hread hrows, if_pos (by decide), readLexemes, readLexeme_of_ok hgloss]
  rfl

theorem userCells_linesUp_iff_raggedTable :
    parse raggedTable = .ok raggedLexicon ∧
      ∃ records rows, Csv.read raggedTable = .ok records ∧
      Csv.standing (records.map Csv.Record.cells) = raggedLexicon.columns :: rows ∧
      List.Forall₂ (fun row lexeme =>
        lexeme.userCells = (otherColumns raggedLexicon.columns).map (fun i => row.getD i "") ++
          row.drop raggedLexicon.columns.length ∧
        (LinesUp raggedLexicon row lexeme ↔ row.length ≤ raggedLexicon.columns.length ∧
          ∀ name ∈ requiredColumns, raggedLexicon.columns.count name = 1))
        rows raggedLexicon.lexemes :=
  ⟨parse_raggedTable, userCells_linesUp_iff parse_raggedTable⟩

/-- The user has one column and the lexeme three cells of the user's. -/
theorem not_userCells_linesUp :
    ¬ ∀ raw lexicon, parse raw = .ok lexicon → ∃ records rows, Csv.read raw = .ok records ∧
      Csv.standing (records.map Csv.Record.cells) = lexicon.columns :: rows ∧
      List.Forall₂ (LinesUp lexicon) rows lexicon.lexemes := by
  intro hall
  obtain ⟨records, rows, -, -, hlinesUp⟩ := hall raggedTable raggedLexicon parse_raggedTable
  cases hlinesUp with
  | cons hlexeme _ => exact absurd hlexeme.length_eq (by decide)

end Interlinear.Lexicon
