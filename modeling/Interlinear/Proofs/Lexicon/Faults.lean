import Interlinear.Proofs.Lexicon.Blocks
import Interlinear.Proofs.Lexicon.Decoding

/-!
# Faults of a lexicon

A text is refused for one of four reasons, and they are looked for one after another in the whole
text: a block of lines that is no record, no row at all, a header without a required column, and a
translation that is no gloss.  A later reason is never given where an earlier one holds, even if it
shows on an earlier line.  Of several translations that are no glosses the first one counts, and it
is reported with the last line of its row, where lines are counted as they stand in the text.
-/

namespace Interlinear.Lexicon

open Outcome

/-- The line and the message that a text is refused with. -/
inductive FailsWith (raw : String) : Option Nat → String → Prop
  | malformed {before block after : List (List Char)} {found : List Csv.Record} {fault : Csv.Fault}
      (hlines : Csv.lines raw.toList = before ++ (block ++ after))
      (hbefore : Csv.Reading 0 before (.ok found))
      (hblock : Csv.read (String.ofList block.flatten) = .error ⟨block.length, fault⟩)
      (hafter : fault = .unexpectedEnd → after = []) :
      FailsWith raw (some (before ++ block).length)
        ("Line " ++ toString (before ++ block).length ++ ": " ++
          ("malformed CSV: " ++ fault.message))
  | missingHeader {records : List Csv.Record}
      (hrecords : Csv.Reading 0 (Csv.lines raw.toList) (.ok records))
      (hrows : Csv.standing (records.map Csv.Record.cells) = []) :
      FailsWith raw none "missing header row"
  | missingColumns {records : List Csv.Record} {header : List String} {rows : List (List String)}
      (hrecords : Csv.Reading 0 (Csv.lines raw.toList) (.ok records))
      (hrows : Csv.standing (records.map Csv.Record.cells) = header :: rows)
      (hheader : ∃ name ∈ requiredColumns, name ∉ header) :
      FailsWith raw none
        ("missing header columns: " ++
          ", ".intercalate (requiredColumns.filter fun name => name ∉ header))
  | translation {before block after : List (List Char)} {found others : List Csv.Record}
      {header cells : List String} {earlier : List (List String)} {error : Gloss.ParseError}
      (hlines : Csv.lines raw.toList = before ++ (block ++ after))
      (hbefore : Csv.Reading 0 before (.ok found))
      (hblock : Csv.read (String.ofList block.flatten) = .ok [⟨block.length, cells⟩])
      (hafter : Csv.Reading (before.length + block.length) after (.ok others))
      (hrows : Csv.standing (found.map Csv.Record.cells) = header :: earlier)
      (hcells : isBlankRow cells = false)
      (hheader : ∀ name ∈ requiredColumns, name ∈ header)
      (hearlier : ∀ row ∈ earlier, ∃ gloss,
        Gloss.parse .implicitLiterals (cellUnder header "translation" row) = .ok gloss)
      (hrow : Gloss.parse .implicitLiterals (cellUnder header "translation" cells) = .error error) :
      FailsWith raw (some (before ++ block).length)
        ("Line " ++ toString (before ++ block).length ++ ": " ++ error.message)

variable {raw : String} {header : List String} {records : List Csv.Record}

/-! ### Rows -/

theorem readLexeme_of_error {record : Csv.Record} {error : Gloss.ParseError}
    (h : Gloss.parse .implicitLiterals (cellUnder header "translation" record.cells) =
      .error error) :
    readLexeme (.ofHeader header) record = .error (.translation record.line error) := by
  rw [cellUnder] at h
  unfold readLexeme
  simp only [Layout.ofHeader, getD_pad, h]

theorem readLexeme_of_ok {record : Csv.Record} {gloss : Gloss}
    (h : Gloss.parse .implicitLiterals (cellUnder header "translation" record.cells) = .ok gloss) :
    readLexeme (.ofHeader header) record = .ok {
      id := cellUnder header "id" record.cells
      translation := gloss
      generator := cellUnder header "generator" record.cells
      userCells := (Layout.ofHeader header).userCells (pad header.length record.cells) } := by
  rw [cellUnder] at h
  unfold readLexeme
  simp only [Layout.ofHeader, getD_pad, h, cellUnder]

theorem readLexeme_eq_error_iff {record : Csv.Record} {e : Error} :
    readLexeme (.ofHeader header) record = .error e ↔ ∃ error,
      Gloss.parse .implicitLiterals (cellUnder header "translation" record.cells) = .error error ∧
        e = .translation record.line error := by
  cases hparse : Gloss.parse .implicitLiterals (cellUnder header "translation" record.cells) with
  | error error => simp [readLexeme_of_error hparse, eq_comm]
  | ok gloss => simp [readLexeme_of_ok hparse]

theorem exists_readLexeme_eq_ok_iff {record : Csv.Record} :
    (∃ lexeme, readLexeme (.ofHeader header) record = .ok lexeme) ↔ ∃ gloss,
      Gloss.parse .implicitLiterals (cellUnder header "translation" record.cells) = .ok gloss := by
  cases hparse : Gloss.parse .implicitLiterals (cellUnder header "translation" record.cells) with
  | error error => simp [readLexeme_of_error hparse]
  | ok gloss => simp [readLexeme_of_ok hparse]

/-- The first row at fault decides. -/
theorem readLexemes_eq_error_iff {layout : Layout} {e : Error} :
    readLexemes layout records = .error e ↔ ∃ earlier record later,
      records = earlier ++ record :: later ∧
        (∀ other ∈ earlier, ∃ lexeme, readLexeme layout other = .ok lexeme) ∧
        readLexeme layout record = .error e := by
  induction records with
  | nil => simp [readLexemes]
  | cons first records ih =>
      rw [readLexemes, bind_eq_error_iff]
      constructor
      · rintro (hfirst | ⟨lexeme, hlexeme, hrest⟩)
        · exact ⟨[], first, records, rfl, by simp, hfirst⟩
        · rcases bind_eq_error_iff.mp hrest with hothers | ⟨lexemes, -, hend⟩
          · obtain ⟨earlier, record, later, rfl, hearlier, hrecord⟩ := ih.mp hothers
            refine ⟨first :: earlier, record, later, rfl, ?_, hrecord⟩
            exact List.forall_mem_cons.mpr ⟨⟨lexeme, hlexeme⟩, hearlier⟩
          · cases hend
      · rintro ⟨earlier, record, later, hrecords, hearlier, hrecord⟩
        cases earlier with
        | nil =>
            obtain ⟨rfl, rfl⟩ := List.cons.inj hrecords
            exact .inl hrecord
        | cons other earlier =>
            obtain ⟨rfl, rfl⟩ := List.cons.inj hrecords
            obtain ⟨⟨lexeme, hlexeme⟩, hearlier⟩ := List.forall_mem_cons.mp hearlier
            have hothers := ih.mpr ⟨earlier, record, later, rfl, hearlier, hrecord⟩
            exact .inr ⟨lexeme, hlexeme, bind_eq_error_iff.mpr (.inl hothers)⟩

/-! ### Tables -/

theorem standing_map_cells (records : List Csv.Record) :
    Csv.standing (records.map Csv.Record.cells) =
      (records.filter fun record => !isBlankRow record.cells).map Csv.Record.cells := by
  rw [Csv.standing, List.filter_map]
  rfl

theorem missingColumns_eq_nil_iff :
    missingColumns header = [] ↔ ∀ name ∈ requiredColumns, name ∈ header := by
  simp [missingColumns]

theorem missingColumns_eq (header : List String) :
    missingColumns header = requiredColumns.filter fun name => name ∉ header := by
  unfold missingColumns
  simp

theorem parse_of_read_error {e : Csv.Error} (hread : Csv.read raw = .error e) :
    parse raw = .error (.malformed e) := by
  rw [parse, hread]
  rfl

theorem parse_of_no_rows (hread : Csv.read raw = .ok records)
    (hrows : (records.filter fun record => !isBlankRow record.cells) = []) :
    parse raw = .error .missingHeader := by
  unfold parse
  rw [hread, mapError_ok, ok_bind, hrows]

theorem parse_of_rows {top : Csv.Record} {rows : List Csv.Record}
    (hread : Csv.read raw = .ok records)
    (hrows : (records.filter fun record => !isBlankRow record.cells) = top :: rows) :
    parse raw =
      if missingColumns top.cells = [] then
        (readLexemes (.ofHeader top.cells) rows).map (Lexicon.mk top.cells)
      else
        .error (.missingColumns (missingColumns top.cells)) := by
  unfold parse
  rw [hread, mapError_ok, ok_bind, hrows]
  by_cases hmissing : missingColumns top.cells = []
  · simp only [if_pos hmissing]
    cases readLexemes (.ofHeader top.cells) rows <;> rfl
  · simp only [if_neg hmissing]

/-- The blocks before a row of a table, its own and those after it. -/
theorem exists_blocks_of_rows {top record : Csv.Record} {earlier later : List Csv.Record}
    (hread : Csv.read raw = .ok records)
    (hrows : (records.filter fun record => !isBlankRow record.cells) =
      top :: (earlier ++ record :: later)) :
    ∃ before block after found others, Csv.lines raw.toList = before ++ (block ++ after) ∧
      Csv.Reading 0 before (.ok found) ∧
      Csv.read (String.ofList block.flatten) = .ok [⟨block.length, record.cells⟩] ∧
      Csv.Reading (before.length + block.length) after (.ok others) ∧
      Csv.standing (found.map Csv.Record.cells) = top.cells :: earlier.map Csv.Record.cells ∧
      isBlankRow record.cells = false ∧ record.line = (before ++ block).length := by
  rw [← List.cons_append] at hrows
  obtain ⟨first, rest, rfl, hfirst, hrest⟩ := List.filter_eq_append_iff.mp hrows
  obtain ⟨blank, others, rfl, hblank, hrecord, -⟩ := List.filter_eq_cons_iff.mp hrest
  rw [← List.append_assoc] at hread
  obtain ⟨before, block, after, hlines, hbefore, hblock, hafter, hline⟩ :=
    ((Csv.reading_iff raw).mpr hread).exists_of_ok
  rw [Nat.zero_add] at hafter hline
  refine ⟨before, block, after, first ++ blank, others, hlines, hbefore, hblock, hafter, ?_, ?_, ?_⟩
  · rw [standing_map_cells, List.filter_append, hfirst, List.filter_eq_nil_iff.mpr hblank,
      List.append_nil, List.map_cons]
  · simpa using hrecord
  · rw [hline, List.length_append]

theorem exists_rows_of_blocks {before block after : List (List Char)}
    {found others : List Csv.Record} {cells : List String} {earlier : List (List String)}
    (hlines : Csv.lines raw.toList = before ++ (block ++ after))
    (hbefore : Csv.Reading 0 before (.ok found))
    (hblock : Csv.read (String.ofList block.flatten) = .ok [⟨block.length, cells⟩])
    (hafter : Csv.Reading (before.length + block.length) after (.ok others))
    (hrows : Csv.standing (found.map Csv.Record.cells) = header :: earlier)
    (hcells : isBlankRow cells = false) :
    ∃ records top rows later, Csv.read raw = .ok records ∧
      (records.filter fun record => !isBlankRow record.cells) =
        top :: (rows ++ ⟨(before ++ block).length, cells⟩ :: later) ∧
      top.cells = header ∧ rows.map Csv.Record.cells = earlier := by
  have hrest : Csv.Reading (0 + before.length) (block ++ after)
      (.ok (⟨before.length + block.length, cells⟩ :: others)) := by
    rw [Nat.zero_add]
    exact .record hblock hafter
  have hreading := hbefore.append hrest
  rw [← hlines, Csv.reading_iff, ← List.length_append] at hreading
  rw [standing_map_cells] at hrows
  obtain ⟨top, rows, hfound, htop, hearlier⟩ := List.map_eq_cons_iff.mp hrows
  refine ⟨_, top, rows, others.filter fun record => !isBlankRow record.cells, hreading, ?_, htop,
    hearlier⟩
  rw [List.filter_append, hfound, List.filter_cons_of_pos (by simp [hcells]), List.cons_append]

theorem failsWith_of_read_error {e : Csv.Error} (hread : Csv.read raw = .error e) :
    FailsWith raw (Error.malformed e).line? (Error.malformed e).message := by
  obtain ⟨before, block, after, found, hlines, hbefore, hblock, hline, hafter⟩ :=
    ((Csv.reading_iff raw).mpr hread).exists_of_error
  have hfails := FailsWith.malformed hlines hbefore hblock hafter
  rw [List.length_append, ← Nat.zero_add before.length, ← hline] at hfails
  exact hfails

theorem failsWith_of_rows {top record : Csv.Record} {earlier later : List Csv.Record}
    {error : Gloss.ParseError} (hread : Csv.read raw = .ok records)
    (hrows : (records.filter fun record => !isBlankRow record.cells) =
      top :: (earlier ++ record :: later))
    (hheader : ∀ name ∈ requiredColumns, name ∈ top.cells)
    (hearlier : ∀ other ∈ earlier, ∃ gloss,
      Gloss.parse .implicitLiterals (cellUnder top.cells "translation" other.cells) = .ok gloss)
    (hrow : Gloss.parse .implicitLiterals (cellUnder top.cells "translation" record.cells) =
      .error error) :
    FailsWith raw (Error.translation record.line error).line?
      (Error.translation record.line error).message := by
  obtain ⟨before, block, after, found, others, hlines, hbefore, hblock, hafter, hstanding, hcells,
    hline⟩ := exists_blocks_of_rows hread hrows
  rw [hline]
  refine .translation hlines hbefore hblock hafter hstanding hcells hheader ?_ hrow
  simpa using hearlier

theorem failsWith_of_parse_eq_error {e : Error} (h : parse raw = .error e) :
    FailsWith raw e.line? e.message := by
  cases hread : Csv.read raw with
  | error fault =>
      rw [parse_of_read_error hread] at h
      obtain rfl := Except.error.inj h
      exact failsWith_of_read_error hread
  | ok records =>
      cases hrows : records.filter fun record => !isBlankRow record.cells with
      | nil =>
          rw [parse_of_no_rows hread hrows] at h
          obtain rfl := Except.error.inj h
          refine .missingHeader ((Csv.reading_iff raw).mpr hread) ?_
          rw [standing_map_cells, hrows, List.map_nil]
      | cons top rows =>
          rw [parse_of_rows hread hrows] at h
          by_cases hmissing : missingColumns top.cells = []
          · rw [if_pos hmissing, map_eq_error_iff, readLexemes_eq_error_iff] at h
            obtain ⟨earlier, record, later, rfl, hearlier, hrecord⟩ := h
            obtain ⟨error, hrow, rfl⟩ := readLexeme_eq_error_iff.mp hrecord
            exact failsWith_of_rows hread hrows (missingColumns_eq_nil_iff.mp hmissing)
              (fun other hother => exists_readLexeme_eq_ok_iff.mp (hearlier other hother)) hrow
          · rw [if_neg hmissing] at h
            obtain rfl := Except.error.inj h
            have hheader : ∃ name ∈ requiredColumns, name ∉ top.cells := by
              simpa [missingColumns_eq_nil_iff] using hmissing
            have hreading := (Csv.reading_iff raw).mpr hread
            have hfails := FailsWith.missingColumns hreading
              ((standing_map_cells records).trans (congrArg _ hrows)) hheader
            rwa [← missingColumns_eq] at hfails

theorem exists_parse_eq_error_of_failsWith {line? : Option Nat} {message : String}
    (h : FailsWith raw line? message) :
    ∃ e, parse raw = .error e ∧ e.line? = line? ∧ e.message = message := by
  cases h with
  | @malformed before block after found fault hlines hbefore hblock hafter =>
      have hreading := hbefore.append (.fault hblock hafter)
      rw [Nat.zero_add, ← List.length_append, ← hlines, Csv.reading_iff] at hreading
      exact ⟨_, parse_of_read_error hreading, rfl, rfl⟩
  | missingHeader hrecords hrows =>
      rw [standing_map_cells, List.map_eq_nil_iff] at hrows
      exact ⟨_, parse_of_no_rows ((Csv.reading_iff raw).mp hrecords) hrows, rfl, rfl⟩
  | missingColumns hrecords hrows hheader =>
      rw [standing_map_cells] at hrows
      obtain ⟨top, rows, hfilter, rfl, rfl⟩ := List.map_eq_cons_iff.mp hrows
      have hparse := parse_of_rows ((Csv.reading_iff raw).mp hrecords) hfilter
      have hmissing : missingColumns top.cells ≠ [] := by
        simpa [missingColumns_eq_nil_iff] using hheader
      rw [if_neg hmissing] at hparse
      refine ⟨_, hparse, rfl, ?_⟩
      rw [← missingColumns_eq]
      rfl
  | @translation before block after found others header cells earlier error hlines hbefore hblock
      hafter hrows hcells hheader hearlier hrow =>
      obtain ⟨records, top, rows, later, hread, hfilter, rfl, rfl⟩ :=
        exists_rows_of_blocks hlines hbefore hblock hafter hrows hcells
      have hparse := parse_of_rows hread hfilter
      rw [if_pos (missingColumns_eq_nil_iff.mpr hheader)] at hparse
      refine ⟨.translation (before ++ block).length error, ?_, rfl, rfl⟩
      rw [hparse, map_eq_error_iff, readLexemes_eq_error_iff]
      refine ⟨rows, _, later, rfl, fun other hother => ?_, readLexeme_of_error hrow⟩
      exact exists_readLexeme_eq_ok_iff.mpr (hearlier _ (List.mem_map_of_mem hother))

/-- A text is refused exactly for the reasons above, and with their lines and messages. -/
theorem exists_parse_eq_error_iff (raw : String) (line? : Option Nat) (message : String) :
    (∃ e, parse raw = .error e ∧ e.line? = line? ∧ e.message = message) ↔
      FailsWith raw line? message := by
  constructor
  · rintro ⟨e, hparse, rfl, rfl⟩
    exact failsWith_of_parse_eq_error hparse
  · exact exists_parse_eq_error_of_failsWith

/-- The translation on the second line is no gloss, but the quote that is never closed counts. -/
example : parse "id,translation,generator\nbear,[,\ncub,\"x" =
    .error (.malformed ⟨3, .unexpectedEnd⟩) := by
  cbv

end Interlinear.Lexicon
