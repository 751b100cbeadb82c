import Mathlib.Data.List.Forall2
import Interlinear.Proofs.Lexicon.TableText
import Interlinear.Proofs.Outcome

/-!
# Decoding a written lexicon

A lexicon is written as a table, its header first.  A row need not be written to its end: empty
cells may be left off there, as long as what is left is not taken for a line of blanks.  Reading any
such text gives one lexeme for every row, in order, with its cells found by the names of the header,
whichever order the header has and however often it repeats a name.
-/

namespace Interlinear.Lexicon

/-- A row and what is left of it without some of the empty cells at its end. -/
structure Trimmed (row kept : List String) : Prop where
  exists_eq_append : ∃ n, row = kept ++ List.replicate n ""
  stands : Csv.Stands kept

/-- The cell of a row in the first column of a name. -/
def cellUnder (header : List String) (name : String) (row : List String) : String :=
  row.getD (header.idxOf name) ""

def otherColumns (header : List String) : List Nat :=
  (List.range header.length).filter fun i => ∀ name ∈ requiredColumns, i ≠ header.idxOf name

/-- What a row of a table says about a lexeme.  The cells of the user's columns come first, and then
what the row has beyond the last column, less empty cells at its end.  A row that is no longer than
the header has nothing there. -/
structure Describes (header row : List String) (lexeme : Lexeme) : Prop where
  id_eq : lexeme.id = cellUnder header "id" row
  translation_eq :
    Gloss.parse .implicitLiterals (cellUnder header "translation" row) = .ok lexeme.translation
  generator_eq : lexeme.generator = cellUnder header "generator" row
  userCells_eq : ∃ beyond n, row.drop header.length = beyond ++ List.replicate n "" ∧
    lexeme.userCells = (otherColumns header).map (fun i => row.getD i "") ++ beyond

variable {header row kept : List String} {records : List Csv.Record} {rows : List (List String)}

/-! ### Rows as read -/

theorem Trimmed.getD_eq (h : Trimmed row kept) (i : Nat) : kept.getD i "" = row.getD i "" := by
  obtain ⟨n, rfl⟩ := h.exists_eq_append
  rw [List.getD_eq_getElem?_getD, List.getD_eq_getElem?_getD]
  grind

theorem pad_eq (width : Nat) (cells : List String) :
    pad width cells =
      (List.range width).map (fun i => cells.getD i "") ++ cells.drop width := by
  apply List.ext_getElem?
  intro i
  unfold pad
  simp only [List.getD_eq_getElem?_getD]
  grind

theorem getD_pad (width : Nat) (cells : List String) (i : Nat) :
    (pad width cells).getD i "" = cells.getD i "" := by
  unfold pad
  rw [List.getD_eq_getElem?_getD, List.getD_eq_getElem?_getD]
  grind

theorem zipIdx_range_map (width : Nat) (f : Nat → String) :
    ((List.range width).map f).zipIdx = (List.range width).map fun i => (f i, i) := by
  apply List.ext_getElem
  · simp
  · intro i hi hi'
    rw [List.getElem_zipIdx, List.getElem_map, List.getElem_map, List.getElem_range, Nat.zero_add]

theorem isOther_iff (i : Nat) :
    (i != (Layout.ofHeader header).id && i != (Layout.ofHeader header).translation &&
      i != (Layout.ofHeader header).generator) =
        decide (∀ name ∈ requiredColumns, i ≠ header.idxOf name) := by
  rw [Bool.eq_iff_iff]
  simp [Layout.ofHeader, requiredColumns, and_assoc]

/-- The cells beyond the header stand in no required column. -/
theorem userCells_pad (hheader : ∀ name ∈ requiredColumns, name ∈ header) (cells : List String) :
    (Layout.ofHeader header).userCells (pad header.length cells) =
      (otherColumns header).map (fun i => cells.getD i "") ++ cells.drop header.length := by
  unfold Layout.userCells
  simp only [isOther_iff]
  rw [pad_eq, List.zipIdx_append, List.filter_append, List.map_append, zipIdx_range_map]
  congr 1
  · rw [List.filter_map, List.map_map]
    rfl
  · have hbeyond : ∀ x ∈ (cells.drop header.length).zipIdx header.length,
        decide (∀ name ∈ requiredColumns, x.2 ≠ header.idxOf name) = true := by
      intro x hx
      have hx2 := List.le_snd_of_mem_zipIdx hx
      rw [decide_eq_true_eq]
      intro name hname
      have hindex := List.idxOf_lt_length_of_mem (hheader name hname)
      omega
    simp only [List.length_map, List.length_range, Nat.zero_add]
    rw [List.filter_eq_self.mpr hbeyond, List.zipIdx_map_fst]

theorem exists_drop_eq_append (h : Trimmed row kept) (width : Nat) :
    ∃ n, row.drop width = kept.drop width ++ List.replicate n "" := by
  obtain ⟨n, rfl⟩ := h.exists_eq_append
  rw [List.drop_append, List.drop_replicate]
  exact ⟨_, rfl⟩

/-! ### Lexemes as read -/

theorem readLexeme_of_trimmed (hheader : ∀ name ∈ requiredColumns, name ∈ header)
    {record : Csv.Record} (hrow : Trimmed row record.cells) {gloss : Gloss}
    (hgloss : Gloss.parse .implicitLiterals (cellUnder header "translation" row) = .ok gloss) :
    ∃ lexeme, readLexeme (.ofHeader header) record = .ok lexeme ∧ Describes header row lexeme := by
  have hcell : ∀ name, (pad header.length record.cells).getD (header.idxOf name) "" =
      cellUnder header name row := by
    intro name
    rw [getD_pad, hrow.getD_eq, cellUnder]
  obtain ⟨n, hbeyond⟩ := exists_drop_eq_append hrow header.length
  unfold readLexeme
  simp only [Layout.ofHeader, hcell, hgloss]
  refine ⟨_, rfl, rfl, hgloss, rfl, _, n, hbeyond, ?_⟩
  have huser := userCells_pad hheader record.cells
  simp only [hrow.getD_eq] at huser
  exact huser

theorem readLexemes_of_trimmed (hheader : ∀ name ∈ requiredColumns, name ∈ header)
    (hrows : List.Forall₂ (fun row record => Trimmed row record.cells) rows records)
    (hgloss : ∀ row ∈ rows, ∃ gloss,
      Gloss.parse .implicitLiterals (cellUnder header "translation" row) = .ok gloss) :
    ∃ lexemes, readLexemes (.ofHeader header) records = .ok lexemes ∧
      List.Forall₂ (Describes header) rows lexemes := by
  induction hrows with
  | nil => exact ⟨[], rfl, .nil⟩
  | @cons row record rows records hrow _ ih =>
      obtain ⟨gloss, hparse⟩ := hgloss row (by simp)
      obtain ⟨lexeme, hread, hlexeme⟩ := readLexeme_of_trimmed hheader hrow hparse
      obtain ⟨lexemes, hreads, hlexemes⟩ :=
        ih fun row hrow => hgloss row (List.mem_cons_of_mem _ hrow)
      refine ⟨lexeme :: lexemes, ?_, .cons hlexeme hlexemes⟩
      rw [readLexemes, hread, hreads]
      rfl

theorem length_le_of_trimmed {written : List (List String)} {limit : Nat}
    (hwritten : List.Forall₂ Trimmed rows written)
    (hlength : ∀ row ∈ rows, ∀ cell ∈ row, cell.length ≤ limit) :
    ∀ kept ∈ written, ∀ cell ∈ kept, cell.length ≤ limit := by
  induction hwritten with
  | nil => simp
  | @cons row kept rows written hrow _ ih =>
      obtain ⟨n, rfl⟩ := hrow.exists_eq_append
      rw [List.forall_mem_cons] at hlength ⊢
      refine ⟨fun cell hcell => ?_, ih hlength.2⟩
      exact hlength.1 cell (List.mem_append_left _ hcell)

theorem missingColumns_eq_nil (hheader : ∀ name ∈ requiredColumns, name ∈ header) :
    missingColumns header = [] := by
  simpa [missingColumns] using hheader

/-- Every text of a table is read as its header and one lexeme for each row. -/
theorem parse_tableText {raw : String} {written : List (List String)}
    (hheader : ∀ name ∈ requiredColumns, name ∈ header)
    (hgloss : ∀ row ∈ rows, ∃ gloss,
      Gloss.parse .implicitLiterals (cellUnder header "translation" row) = .ok gloss)
    (hlength : ∀ row ∈ header :: rows, ∀ cell ∈ row, cell.length ≤ Csv.cellLimit)
    (hwritten : List.Forall₂ Trimmed rows written)
    (htext : Csv.TableText (header :: written) raw.toList) :
    ∃ lexemes, parse raw = .ok ⟨header, lexemes⟩ ∧
      List.Forall₂ (Describes header) rows lexemes := by
  have hkept : ∀ row ∈ header :: written, ∀ cell ∈ row, cell.length ≤ Csv.cellLimit := by
    rw [List.forall_mem_cons] at hlength ⊢
    exact ⟨hlength.1, length_le_of_trimmed hwritten hlength.2⟩
  obtain ⟨found, hread, hstanding⟩ := htext.read_eq_ok hkept
  rw [Csv.standing, List.filter_map] at hstanding
  obtain ⟨headerRecord, records, hfilter, rfl, rfl⟩ := List.map_eq_cons_iff.mp hstanding
  rw [List.forall₂_map_right_iff] at hwritten
  obtain ⟨lexemes, hlexemes, hdescribes⟩ := readLexemes_of_trimmed hheader hwritten hgloss
  refine ⟨lexemes, ?_, hdescribes⟩
  have hrecords : found.filter (fun record => !isBlankRow record.cells) =
      headerRecord :: records := hfilter
  have hmissing := missingColumns_eq_nil hheader
  unfold parse
  rw [hread, Outcome.mapError_ok, Outcome.ok_bind, hrecords]
  simp only [hmissing, if_true, hlexemes, Outcome.ok_bind]

def bearColumns : List String :=
  ["note", "id", "translation", "generator", "id"]

def bearRow : List String :=
  ["said \"a, b\"\r\n", "bear", "arth", "", ""]

def cubRow : List String :=
  ["", "cub", "*bear#PL", "", "x"]

/-- The header, a line of blanks, the first row without its last two cells and with a first cell
that spans lines, an empty line, and the second row, which ends with the file. -/
def bearTable : String :=
  "note,id,\"translation\",generator,id\r\n \t\r" ++
    "\"said \"\"a, b\"\"\r\n\",bear,arth\r\n,cub,*bear#PL,,x"

theorem tableText_bearTable :
    Csv.TableText [bearColumns, bearRow.take 3, cubRow] bearTable.toList := by
  have hbare : ∀ cell : String, cell.toList.all (fun c => c ∉ Csv.special) = true →
      Csv.CellText cell cell.toList :=
    fun cell hcell => .bare (by simpa using hcell)
  have hempty : Csv.IsBlankLine [] := ⟨by simp, by simp⟩
  have hblank : Csv.IsBlankLine [' ', '\t'] := by
    refine ⟨?_, by decide⟩
    rw [List.forall_mem_cons, List.forall_mem_singleton]
    decide
  have hcub : Csv.TableText [cubRow] ",cub,*bear#PL,,x".toList :=
    .record (.inl (by decide))
      (.cons (hbare "" rfl) (.cons (hbare "cub" rfl) (.cons (hbare "*bear#PL" rfl)
        (.cons (hbare "" rfl) (.last (hbare "x" rfl))))))
      .file .nil
  have hbear : Csv.TableText [bearRow.take 3, cubRow]
      "\"said \"\"a, b\"\"\r\n\",bear,arth\r\n,cub,*bear#PL,,x".toList :=
    .record (.inl (by decide))
      (.cons .quoted (.cons (hbare "bear" rfl) (.last (hbare "arth" rfl))))
      (.cr _) (.blank hempty (.lf _) hcub)
  exact .record (.inl (by decide))
    (.cons (hbare "note" rfl) (.cons (hbare "id" rfl) (.cons .quoted
      (.cons (hbare "generator" rfl) (.last (hbare "id" rfl))))))
    (.crlf _) (.blank hblank (.cr _) hbear)

theorem parse_tableText_bears :
    ∃ lexemes, parse bearTable = .ok ⟨bearColumns, lexemes⟩ ∧
      List.Forall₂ (Describes bearColumns) [bearRow, cubRow] lexemes := by
  have hgloss : ∀ row ∈ [bearRow, cubRow], ∃ gloss,
      Gloss.parse .implicitLiterals (cellUnder bearColumns "translation" row) = .ok gloss := by
    rw [List.forall_mem_cons, List.forall_mem_singleton]
    exact ⟨⟨.literal "arth", rfl⟩, ⟨.inflection (.pointer "bear") ["PL"], rfl⟩⟩
  have htrimmed : List.Forall₂ Trimmed [bearRow, cubRow] [bearRow.take 3, cubRow] :=
    .cons ⟨⟨2, rfl⟩, .inl (by decide)⟩ (.cons ⟨⟨0, rfl⟩, .inl (by decide)⟩ .nil)
  exact parse_tableText (by decide) hgloss (by decide) htrimmed tableText_bearTable

end Interlinear.Lexicon
