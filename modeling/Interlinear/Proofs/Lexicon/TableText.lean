import Interlinear.Lexicon.Basic

/-!
# The texts of a table

One table has many texts.  A cell stands in quotes, with every quote inside doubled, or bare if
nothing in it would end it.  A line ends with a line feed, a carriage return or both, the last one
also with the file, and lines of blanks may stand anywhere.

Reading undoes them all.  The reader is followed piece by piece.  What it shows after a piece, apart
from the numbers of lines, depends only on what it showed before: the place, the cell under
construction, and the cells and records that are complete.  Line ends are the one piece whose
reading looks at what follows, as a carriage return takes a line feed with it.  That line feed may
be an empty line of its own; a text of a table stays one without it, so nothing is lost.
-/

namespace Interlinear.Csv

/-! ### Writing -/

/-- The characters that cannot stand in a bare cell. -/
def special : List Char :=
  [',', '"', '\r', '\n']

def doubled (cs : List Char) : List Char :=
  cs.flatMap fun c => if c = '"' then ['"', '"'] else [c]

inductive CellText (cell : String) : List Char → Prop
  | quoted : CellText cell ('"' :: (doubled cell.toList ++ ['"']))
  | bare (hcell : ∀ c ∈ cell.toList, c ∉ special) : CellText cell cell.toList

inductive RecordText : List String → List Char → Prop
  | last {cell : String} {text : List Char} (hcell : CellText cell text) : RecordText [cell] text
  | cons {cell : String} {cells : List String} {text others : List Char}
      (hcell : CellText cell text) (hcells : RecordText cells others) :
      RecordText (cell :: cells) (text ++ ',' :: others)

/-- What may stand between a line and the rest of the file. -/
inductive LineEnd : (ending rest : List Char) → Prop
  | lf (rest : List Char) : LineEnd ['\n'] rest
  | cr (rest : List Char) : LineEnd ['\r'] rest
  | crlf (rest : List Char) : LineEnd ['\r', '\n'] rest
  | file : LineEnd [] []

/-- A line of blanks, which is short enough for a cell. -/
structure IsBlankLine (line : List Char) : Prop where
  isBlank : ∀ c ∈ line, Unicode.isBlank c = true ∧ c ≠ '\r' ∧ c ≠ '\n'
  length_le : line.length ≤ cellLimit

/-- Two cells, or one that is not blank, are told from a line of blanks. -/
def Stands (cells : List String) : Prop :=
  2 ≤ cells.length ∨ ∃ cell, cells = [cell] ∧ ∃ c ∈ cell.toList, Unicode.isBlank c = false

inductive TableText : List (List String) → List Char → Prop
  | nil : TableText [] []
  | blank {records : List (List String)} {line ending rest : List Char}
      (hline : IsBlankLine line) (hending : LineEnd ending rest) (hrest : TableText records rest) :
      TableText records (line ++ (ending ++ rest))
  | record {cells : List String} {records : List (List String)} {text ending rest : List Char}
      (hcells : Stands cells) (htext : RecordText cells text) (hending : LineEnd ending rest)
      (hrest : TableText records rest) : TableText (cells :: records) (text ++ (ending ++ rest))

/-! ### Reading -/

/-- What a reader has in hand, in reading order; the numbers of lines do not show. -/
structure Progress.Shows (p : Progress) (place : Place) (cell : List Char) (cells : List String)
    (records : List (List String)) : Prop where
  place_eq : p.place = place
  cell_eq : p.cell = cell.reverse
  size_eq : p.size = cell.length
  cells_eq : p.cells = cells.reverse
  records_eq : p.records.map Record.cells = records.reverse

/-- A text takes a reader from one state to another, whatever follows. -/
def Progress.ReadsTo (p : Progress) (text : List Char) (q : Progress) : Prop :=
  ∀ rest, readFrom p (text ++ rest) = readFrom q rest

namespace Progress

variable {p q r : Progress} {place : Place} {cell text : List Char} {cells : List String}
  {records : List (List String)}

theorem ReadsTo.nil (p : Progress) : p.ReadsTo [] p :=
  fun _ => rfl

theorem ReadsTo.append {others : List Char} (hpq : p.ReadsTo text q) (hqr : q.ReadsTo others r) :
    p.ReadsTo (text ++ others) r := by
  intro rest
  rw [List.append_assoc, hpq, hqr]

theorem readsTo_char {c : Char} (hr : c ≠ '\r') (hn : c ≠ '\n') (h : p.char c = .ok q) :
    p.ReadsTo [c] { q with lines := p.line, lineOver := false } := by
  intro rest
  rw [List.singleton_append, readFrom]
  · simp [hr, hn, h]
  · rintro cs rfl
    exact absurd rfl hr

theorem Shows.push (h : p.Shows place cell cells records) (hcell : cell.length < cellLimit)
    (next : Place) (c : Char) :
    ∃ q, p.push next c = .ok q ∧ q.Shows next (cell ++ [c]) cells records := by
  have hsize : ¬ cellLimit ≤ p.size := by
    rw [h.size_eq]
    omega
  refine ⟨_, by rw [Progress.push, if_neg hsize], ?_⟩
  exact ⟨rfl, by simp [h.cell_eq], by simp [h.size_eq], h.cells_eq, h.records_eq⟩

theorem Shows.withLines (h : p.Shows place cell cells records) (lines : Nat) (lineOver : Bool) :
    Shows { p with lines := lines, lineOver := lineOver } place cell cells records :=
  ⟨h.place_eq, h.cell_eq, h.size_eq, h.cells_eq, h.records_eq⟩

theorem Shows.readsTo_push (h : p.Shows place cell cells records) (hcell : cell.length < cellLimit)
    {c : Char} (hr : c ≠ '\r') (hn : c ≠ '\n') {next : Place} (hchar : p.char c = p.push next c) :
    ∃ q, p.ReadsTo [c] q ∧ q.Shows next (cell ++ [c]) cells records := by
  obtain ⟨q, hpush, hq⟩ := h.push hcell next c
  exact ⟨_, readsTo_char hr hn (hchar.trans hpush), hq.withLines p.line false⟩

theorem Shows.readsTo_move (h : p.Shows place cell cells records) {c : Char} (hr : c ≠ '\r')
    (hn : c ≠ '\n') {next : Place} (hchar : p.char c = .ok { p with place := next }) :
    ∃ q, p.ReadsTo [c] q ∧ q.Shows next cell cells records :=
  ⟨_, readsTo_char hr hn hchar, rfl, h.cell_eq, h.size_eq, h.cells_eq, h.records_eq⟩

/-! #### Bare cells -/

theorem length_lt_of_append_cons {c : Char} {cs : List Char}
    (h : (cell ++ c :: cs).length ≤ cellLimit) : cell.length < cellLimit := by
  rw [List.length_append, List.length_cons] at h
  omega

theorem Shows.readsTo_bare_char {c : Char} (h : p.Shows place cell cells records)
    (hplace : place = .recordStart ∨ place = .cellStart ∨ place = .bare) (hc : c ∉ special)
    (hcell : cell.length < cellLimit) :
    ∃ q, p.ReadsTo [c] q ∧ q.Shows .bare (cell ++ [c]) cells records := by
  have hr : c ≠ '\r' := fun heq => hc (by simp [heq, special])
  have hn : c ≠ '\n' := fun heq => hc (by simp [heq, special])
  have hquote : c ≠ '"' := fun heq => hc (by simp [heq, special])
  have hcomma : c ≠ ',' := fun heq => hc (by simp [heq, special])
  have hchar : p.char c = p.push .bare c := by
    rcases hplace with rfl | rfl | rfl <;> simp [Progress.char, h.place_eq, hquote, hcomma]
  exact h.readsTo_push hcell hr hn hchar

theorem Shows.readsTo_bare {cs : List Char} (h : p.Shows .bare cell cells records)
    (hcs : ∀ c ∈ cs, c ∉ special) (hlength : (cell ++ cs).length ≤ cellLimit) :
    ∃ q, p.ReadsTo cs q ∧ q.Shows .bare (cell ++ cs) cells records := by
  induction cs generalizing p cell with
  | nil => exact ⟨p, .nil p, by simpa using h⟩
  | cons c cs ih =>
      obtain ⟨hc, hcs⟩ := List.forall_mem_cons.mp hcs
      obtain ⟨q, hpq, hq⟩ :=
        h.readsTo_bare_char (.inr (.inr rfl)) hc (length_lt_of_append_cons hlength)
      obtain ⟨r, hqr, hrest⟩ := ih hq hcs (by simpa using hlength)
      exact ⟨r, hpq.append hqr, by simpa using hrest⟩

theorem Shows.readsTo_bare_cell {c : Char} {cs : List Char} (h : p.Shows place [] cells records)
    (hplace : place = .recordStart ∨ place = .cellStart) (hcs : ∀ d ∈ c :: cs, d ∉ special)
    (hlength : (c :: cs).length ≤ cellLimit) :
    ∃ q, p.ReadsTo (c :: cs) q ∧ q.Shows .bare (c :: cs) cells records := by
  obtain ⟨hc, hcs⟩ := List.forall_mem_cons.mp hcs
  have hstart : place = .recordStart ∨ place = .cellStart ∨ place = .bare :=
    hplace.imp_right .inl
  obtain ⟨q, hpq, hq⟩ := h.readsTo_bare_char hstart hc (by decide)
  obtain ⟨r, hqr, hr⟩ := hq.readsTo_bare hcs hlength
  exact ⟨r, hpq.append hqr, hr⟩

/-! #### Quoted cells -/

theorem Shows.pushAll (h : p.Shows place cell cells records) (cs : List Char)
    (hlength : (cell ++ cs).length ≤ cellLimit) :
    ∃ q, p.pushAll place cs = .ok q ∧ q.Shows place (cell ++ cs) cells records := by
  induction cs generalizing p cell with
  | nil => exact ⟨p, rfl, by simpa using h⟩
  | cons c cs ih =>
      obtain ⟨q, hpush, hq⟩ := h.push (length_lt_of_append_cons hlength) place c
      obtain ⟨r, hpushAll, hr⟩ := ih hq (by simpa using hlength)
      refine ⟨r, ?_, by simpa using hr⟩
      rw [Progress.pushAll, hpush]
      exact hpushAll

theorem readFrom_crlf (h : p.lineEnd ['\r', '\n'] = .ok q) (rest : List Char) :
    readFrom p ('\r' :: '\n' :: rest) =
      readFrom { q with lines := p.line, lineOver := true } rest := by
  rw [readFrom, h]

/-- A single line end; a carriage return is one before anything but a line feed. -/
theorem readFrom_lineEnd {c : Char} (hc : c = '\r' ∨ c = '\n') (h : p.lineEnd [c] = .ok q)
    {rest : List Char} (hrest : c = '\r' → ∀ others, rest ≠ '\n' :: others) :
    readFrom p (c :: rest) = readFrom { q with lines := p.line, lineOver := true } rest := by
  rw [readFrom]
  · rw [if_pos hc, h]
  · rintro cs rfl rfl
    exact hrest rfl cs rfl

theorem Shows.readsTo_doubled_quote (h : p.Shows .quoted cell cells records)
    (hcell : cell.length < cellLimit) :
    ∃ q, p.ReadsTo ['"', '"'] q ∧ q.Shows .quoted (cell ++ ['"']) cells records := by
  have hclose : p.char '"' = .ok { p with place := .closing } := by
    simp [Progress.char, h.place_eq]
  obtain ⟨q, hpq, hq⟩ := h.readsTo_move (by decide) (by decide) hclose
  have hreopen : q.char '"' = q.push .quoted '"' := by
    simp [Progress.char, hq.place_eq]
  obtain ⟨r, hqr, hr⟩ := hq.readsTo_push hcell (by decide) (by decide) hreopen
  exact ⟨r, hpq.append hqr, hr⟩

theorem doubled_cons (c : Char) (cs : List Char) :
    doubled (c :: cs) = (if c = '"' then ['"', '"'] else [c]) ++ doubled cs := by
  rw [doubled, List.flatMap_cons, doubled]

theorem doubled_append_ne_lf {cs : List Char} (hcs : ∀ others, cs ≠ '\n' :: others)
    (rest others : List Char) : doubled cs ++ '"' :: rest ≠ '\n' :: others := by
  cases cs with
  | nil => simp [doubled]
  | cons c cs =>
      have hc : c ≠ '\n' := fun h => hcs cs (by rw [h])
      rw [doubled_cons]
      by_cases hquote : c = '"' <;> simp [hquote, hc]

theorem Shows.lineEnd_quoted (h : p.Shows .quoted cell cells records) (ending : List Char) :
    p.lineEnd ending = p.pushAll .quoted ending := by
  rw [lineEnd, h.place_eq]

theorem Shows.readsTo_quoted_crlf (h : p.Shows .quoted cell cells records)
    (hlength : (cell ++ ['\r', '\n']).length ≤ cellLimit) :
    ∃ q, p.ReadsTo ['\r', '\n'] q ∧ q.Shows .quoted (cell ++ ['\r', '\n']) cells records := by
  obtain ⟨q, hpush, hq⟩ := h.pushAll ['\r', '\n'] hlength
  have hlineEnd := (h.lineEnd_quoted ['\r', '\n']).trans hpush
  exact ⟨_, readFrom_crlf hlineEnd, hq.withLines p.line true⟩

/-- The first character of what is left of a quoted cell, unless it is a carriage return that the
reader takes together with a line feed. -/
theorem Shows.readFrom_doubled_char {c : Char} {cs : List Char}
    (h : p.Shows .quoted cell cells records) (hlf : c = '\r' → ∀ others, cs ≠ '\n' :: others)
    (hcell : cell.length < cellLimit) :
    ∃ q, (∀ rest, readFrom p (doubled (c :: cs) ++ '"' :: rest) =
        readFrom q (doubled cs ++ '"' :: rest)) ∧
      q.Shows .quoted (cell ++ [c]) cells records := by
  simp only [doubled_cons, List.append_assoc]
  by_cases hquote : c = '"'
  · subst hquote
    obtain ⟨q, hpq, hq⟩ := h.readsTo_doubled_quote hcell
    exact ⟨q, fun _ => hpq _, hq⟩
  rw [if_neg hquote]
  by_cases hending : c = '\r' ∨ c = '\n'
  · obtain ⟨q, hpush, hq⟩ := h.push hcell .quoted c
    have hlineEnd : p.lineEnd [c] = .ok q := by
      rw [h.lineEnd_quoted, Progress.pushAll, hpush]
      rfl
    have hpq := fun rest =>
      readFrom_lineEnd hending hlineEnd fun hc => doubled_append_ne_lf (hlf hc) rest
    exact ⟨_, hpq, hq.withLines p.line true⟩
  · obtain ⟨hr, hn⟩ := not_or.mp hending
    have hchar : p.char c = p.push .quoted c := by
      simp [Progress.char, h.place_eq, hquote]
    obtain ⟨q, hpq, hq⟩ := h.readsTo_push hcell hr hn hchar
    exact ⟨q, fun _ => hpq _, hq⟩

/-- The characters of a quoted cell are read into it, line ends among them, and so is one quote for
two, up to the quote that ends it. -/
theorem Shows.readsTo_doubled {p : Progress} {cell : List Char} (cs : List Char)
    (h : p.Shows .quoted cell cells records) (hlength : (cell ++ cs).length ≤ cellLimit) :
    ∃ q, (∀ rest, readFrom p (doubled cs ++ '"' :: rest) = readFrom q ('"' :: rest)) ∧
      q.Shows .quoted (cell ++ cs) cells records := by
  -- The recursion takes a carriage return and the line feed after it together, as the reader does.
  match cs with
  | [] => exact ⟨p, fun _ => rfl, by simpa using h⟩
  | c :: cs =>
      by_cases hpair : c = '\r' ∧ ∃ others, cs = '\n' :: others
      · obtain ⟨rfl, others, rfl⟩ := hpair
        obtain ⟨q, hpq, hq⟩ := h.readsTo_quoted_crlf (by simp at hlength ⊢; omega)
        obtain ⟨r, hqr, hr⟩ := hq.readsTo_doubled others (by simpa using hlength)
        refine ⟨r, fun rest => ?_, by simpa using hr⟩
        rw [doubled_cons, doubled_cons]
        exact (hpq _).trans (hqr rest)
      · have hlf : c = '\r' → ∀ others, cs ≠ '\n' :: others :=
          fun hc others hcs => hpair ⟨hc, others, hcs⟩
        obtain ⟨q, hpq, hq⟩ := h.readFrom_doubled_char hlf (length_lt_of_append_cons hlength)
        obtain ⟨r, hqr, hr⟩ := hq.readsTo_doubled cs (by simpa using hlength)
        exact ⟨r, fun rest => (hpq rest).trans (hqr rest), by simpa using hr⟩
termination_by cs.length

theorem Shows.readsTo_quoted_cell (h : p.Shows place [] cells records)
    (hplace : place = .recordStart ∨ place = .cellStart) {cs : List Char}
    (hlength : cs.length ≤ cellLimit) :
    ∃ q, p.ReadsTo ('"' :: (doubled cs ++ ['"'])) q ∧ q.Shows .closing cs cells records := by
  have hopen : p.char '"' = .ok { p with place := .quoted } := by
    rcases hplace with rfl | rfl <;> simp [Progress.char, h.place_eq]
  obtain ⟨q, hpq, hq⟩ := h.readsTo_move (by decide) (by decide) hopen
  obtain ⟨r, hqr, hr⟩ := hq.readsTo_doubled cs hlength
  have hclose : r.char '"' = .ok { r with place := .closing } := by
    simp [Progress.char, hr.place_eq]
  obtain ⟨s, hrs, hs⟩ := hr.readsTo_move (by decide) (by decide) hclose
  refine ⟨s, fun rest => ?_, hs⟩
  calc readFrom p ('"' :: (doubled cs ++ ['"']) ++ rest)
      = readFrom p (['"'] ++ (doubled cs ++ '"' :: rest)) := by simp
    _ = readFrom q (doubled cs ++ '"' :: rest) := hpq _
    _ = readFrom r ('"' :: rest) := hqr rest
    _ = readFrom s rest := hrs rest

/-! #### Records -/

/-- After a cell, the reader still stands before it only if nothing was written. -/
theorem Shows.readsTo_cell {cell : String} (h : p.Shows place [] cells records)
    (hplace : place = .recordStart ∨ place = .cellStart) (hcell : CellText cell text)
    (hlength : cell.length ≤ cellLimit) :
    ∃ q next, p.ReadsTo text q ∧ q.Shows next cell.toList cells records ∧ next ≠ .quoted ∧
      (next = .recordStart → place = .recordStart ∧ text = []) := by
  cases hcell with
  | quoted =>
      obtain ⟨q, hpq, hq⟩ := h.readsTo_quoted_cell hplace hlength
      exact ⟨q, .closing, hpq, hq, by simp, by simp⟩
  | bare hcell =>
      cases htext : cell.toList with
      | nil =>
          refine ⟨p, place, .nil p, h, ?_, fun hnext => ⟨hnext, rfl⟩⟩
          rcases hplace with rfl | rfl <;> simp
      | cons c cs =>
          rw [htext] at hcell
          rw [← String.length_toList, htext] at hlength
          obtain ⟨q, hpq, hq⟩ := h.readsTo_bare_cell hplace hcell hlength
          exact ⟨q, .bare, hpq, hq, by simp, by simp⟩

theorem Shows.readsTo_comma (h : p.Shows place cell cells records) (hplace : place ≠ .quoted) :
    ∃ q, p.ReadsTo [','] q ∧ q.Shows .cellStart [] (cells ++ [String.ofList cell]) records := by
  have hchar : p.char ',' = .ok p.closeCell := by
    cases place <;> simp_all [Progress.char, h.place_eq]
  exact ⟨_, readsTo_char (by decide) (by decide) hchar, rfl, rfl, rfl,
    by simp [closeCell, h.cell_eq, h.cells_eq], h.records_eq⟩

/-- All cells of a record are in hand, and the last of them is still open. -/
def HoldsRecord (p : Progress) (cells : List String) (records : List (List String)) : Prop :=
  ∃ place cell closed, p.Shows place cell closed records ∧ place ≠ .quoted ∧
    place ≠ .recordStart ∧ cells = closed ++ [String.ofList cell]

theorem Shows.readsTo_record {rest : List String} (htext : RecordText rest text)
    (h : p.Shows place [] cells records) (hplace : place = .recordStart ∨ place = .cellStart)
    (hne : place = .recordStart → text ≠ []) (hlength : ∀ cell ∈ rest, cell.length ≤ cellLimit) :
    ∃ q, p.ReadsTo text q ∧ q.HoldsRecord (cells ++ rest) records := by
  induction htext generalizing p place cells with
  | @last cell text hcell =>
      obtain ⟨q, next, hpq, hq, hquoted, hstart⟩ :=
        h.readsTo_cell hplace hcell (hlength cell (by simp))
      have hnext : next ≠ .recordStart := fun heq => hne (hstart heq).1 (hstart heq).2
      exact ⟨q, hpq, next, cell.toList, cells, hq, hquoted, hnext, by simp⟩
  | @cons cell rest text others hcell _ ih =>
      obtain ⟨q, next, hpq, hq, hquoted, -⟩ :=
        h.readsTo_cell hplace hcell (hlength cell (by simp))
      obtain ⟨r, hqr, hr⟩ := hq.readsTo_comma hquoted
      obtain ⟨s, hrs, hs⟩ := ih hr (.inr rfl) (by simp)
        (fun cell hcell => hlength cell (List.mem_cons_of_mem _ hcell))
      exact ⟨s, hpq.append (hqr.append hrs), by simpa using hs⟩

/-! #### Lines -/

theorem HoldsRecord.closeRecord (h : p.HoldsRecord cells records) :
    p.closeCell.closeRecord.Shows .recordStart [] [] (records ++ [cells]) := by
  obtain ⟨place, cell, closed, hp, -, -, rfl⟩ := h
  refine ⟨rfl, rfl, rfl, rfl, ?_⟩
  simp [Progress.closeRecord, closeCell, hp.cell_eq, hp.cells_eq, hp.records_eq]

theorem HoldsRecord.lineEnd_eq (h : p.HoldsRecord cells records) (ending : List Char) :
    p.lineEnd ending = .ok p.closeCell.closeRecord := by
  obtain ⟨place, cell, closed, hp, hquoted, hstart, -⟩ := h
  unfold lineEnd
  cases place <;> simp_all [hp.place_eq]

theorem HoldsRecord.finish_eq (h : p.HoldsRecord cells records) :
    p.finish = .ok p.closeCell.closeRecord := by
  obtain ⟨place, cell, closed, hp, hquoted, hstart, -⟩ := h
  unfold finish
  cases place <;> simp_all [hp.place_eq]

end Progress

/-! ### Tables -/

def standing (rows : List (List String)) : List (List String) :=
  rows.filter fun cells => !Lexicon.isBlankRow cells

theorem standing_append (rows others : List (List String)) :
    standing (rows ++ others) = standing rows ++ standing others :=
  List.filter_append _ _

theorem Stands.standing_singleton {cells : List String} (h : Stands cells) :
    standing [cells] = [cells] := by
  obtain hlength | ⟨cell, rfl, hcell⟩ := h
  · match cells with
    | _ :: _ :: _ => rfl
  · simpa [standing, Lexicon.isBlankRow] using hcell

theorem IsBlankLine.standing_singleton {line : List Char} (h : IsBlankLine line) :
    standing [[String.ofList line]] = [] := by
  simpa [standing, Lexicon.isBlankRow] using fun c hc => (h.isBlank c hc).1

theorem CellText.head_ne_lf {cell : String} {c : Char} {cs : List Char}
    (h : CellText cell (c :: cs)) : c ≠ '\n' := by
  generalize htext : c :: cs = text at h
  cases h with
  | quoted =>
      obtain ⟨rfl, -⟩ := List.cons.inj htext
      decide
  | bare hcell =>
      have hc := hcell c (by simp [← htext])
      rintro rfl
      exact hc (by simp [special])

theorem RecordText.ne_nil {cells : List String} {text : List Char} (h : RecordText cells text)
    (hcells : Stands cells) : text ≠ [] := by
  cases h with
  | last hcell =>
      obtain hlength | ⟨cell, hcells, c, hc, -⟩ := hcells
      · simp at hlength
      obtain rfl := (List.cons.inj hcells).1
      cases hcell with
      | quoted => simp
      | bare => exact List.ne_nil_of_mem hc
  | cons => simp

theorem RecordText.head_ne_lf {cells : List String} {c : Char} {cs : List Char}
    (h : RecordText cells (c :: cs)) : c ≠ '\n' := by
  generalize htext : c :: cs = text at h
  cases h with
  | last hcell => exact (htext ▸ hcell).head_ne_lf
  | @cons cell cells text others hcell =>
      cases text with
      | nil =>
          obtain ⟨rfl, -⟩ := List.cons.inj htext
          decide
      | cons d ds =>
          obtain ⟨rfl, -⟩ := List.cons.inj htext
          exact hcell.head_ne_lf

def Progress.Finds (p : Progress) (text : List Char) (rows : List (List String)) : Prop :=
  ∃ records, readFrom p text = .ok records ∧ standing (records.map Record.cells) = rows

/-- From the start of a line on, the text adds these rows to those read before. -/
def ReadsRows (rows : List (List String)) (text : List Char) : Prop :=
  ∀ ⦃p : Progress⦄ ⦃before : List (List String)⦄, p.Shows .recordStart [] [] before →
    p.Finds text (standing before ++ rows)

/-- The same for what follows a line end, which may have taken the first line feed with it. -/
def ReadsRest (rows : List (List String)) (text : List Char) : Prop :=
  ReadsRows rows text ∧ ∀ others, text = '\n' :: others → ReadsRows rows others

variable {p q : Progress} {rows before : List (List String)} {cells : List String}
  {text ending rest : List Char}

theorem readFrom_nil_of_finish (h : p.finish = .ok q) : readFrom p [] = .ok q.records.reverse := by
  rw [readFrom, h]

theorem readsRows_nil : ReadsRows [] [] := by
  intro p before hp
  have hfinish : p.finish = .ok p := by rw [Progress.finish, hp.place_eq]
  refine ⟨p.records.reverse, readFrom_nil_of_finish hfinish, ?_⟩
  rw [List.map_reverse, hp.records_eq, List.reverse_reverse, List.append_nil]

theorem Progress.ReadsTo.finds (h : p.ReadsTo text q) (hq : q.Finds rest rows) :
    p.Finds (text ++ rest) rows := by
  rw [Finds, h]
  exact hq

theorem ReadsRest.finds_of_lineEnd (h : ReadsRest rows rest) (hending : LineEnd ending rest)
    (hne : ending ≠ []) (hline : ∀ ending, p.lineEnd ending = .ok q)
    (hq : q.Shows .recordStart [] [] before) :
    p.Finds (ending ++ rest) (standing before ++ rows) := by
  have hclosed := hq.withLines p.line true
  unfold Progress.Finds
  cases hending with
  | lf =>
      have hread : readFrom p ('\n' :: rest) = _ :=
        Progress.readFrom_lineEnd (.inr rfl) (hline ['\n']) (by simp)
      rw [List.singleton_append, hread]
      exact h.1 hclosed
  | cr =>
      by_cases hlf : ∃ others, rest = '\n' :: others
      · obtain ⟨others, rfl⟩ := hlf
        rw [List.singleton_append, Progress.readFrom_crlf (hline _)]
        exact h.2 others rfl hclosed
      · have hread := Progress.readFrom_lineEnd (.inl rfl) (hline ['\r'])
          (fun _ others hrest => hlf ⟨others, hrest⟩)
        rw [List.singleton_append, hread]
        exact h.1 hclosed
  | crlf =>
      rw [List.cons_append, List.singleton_append, Progress.readFrom_crlf (hline _)]
      exact h.1 hclosed
  | file => exact absurd rfl hne

theorem LineEnd.eq_nil (h : LineEnd [] rest) : rest = [] := by
  cases h
  rfl

theorem Progress.HoldsRecord.finds (hp : p.HoldsRecord cells before)
    (hending : LineEnd ending rest) (hrest : ReadsRest rows rest) :
    p.Finds (ending ++ rest) (standing before ++ (standing [cells] ++ rows)) := by
  rw [← List.append_assoc, ← standing_append]
  by_cases hne : ending = []
  · subst hne
    obtain rfl := hending.eq_nil
    have hclosed : p.closeCell.closeRecord.finish = .ok p.closeCell.closeRecord := rfl
    have hread := hrest.1 hp.closeRecord
    rw [Finds, readFrom_nil_of_finish hclosed] at hread
    rw [List.append_nil, Finds, readFrom_nil_of_finish hp.finish_eq]
    exact hread
  · exact hrest.finds_of_lineEnd hending hne hp.lineEnd_eq hp.closeRecord

/-- A line with nothing in it is a record without cells, which is not counted. -/
theorem ReadsRest.empty_line (h : ReadsRest rows rest) (hending : LineEnd ending rest) :
    ReadsRows rows (ending ++ rest) := by
  intro p before hp
  by_cases hne : ending = []
  · subst hne
    exact h.1 hp
  · have hline : ∀ ending, p.lineEnd ending = .ok p.closeRecord := by
      intro ending
      rw [Progress.lineEnd, hp.place_eq]
    have hclosed : p.closeRecord.Shows .recordStart [] [] (before ++ [[]]) :=
      ⟨rfl, hp.cell_eq, hp.size_eq, rfl, by simp [Progress.closeRecord, hp.cells_eq, hp.records_eq]⟩
    have hfinds := h.finds_of_lineEnd hending hne hline hclosed
    rw [standing_append] at hfinds
    simpa [standing, Lexicon.isBlankRow] using hfinds

theorem ReadsRest.record (h : ReadsRest rows rest) (hending : LineEnd ending rest)
    (htext : RecordText cells text) (hne : text ≠ [])
    (hlength : ∀ cell ∈ cells, cell.length ≤ cellLimit) :
    ReadsRows (standing [cells] ++ rows) (text ++ (ending ++ rest)) := by
  intro p before hp
  obtain ⟨q, hpq, hq⟩ := hp.readsTo_record htext (.inl rfl) (fun _ => hne) hlength
  exact hpq.finds (hq.finds hending h)

theorem IsBlankLine.recordText {line : List Char} (h : IsBlankLine line) :
    RecordText [String.ofList line] line := by
  have hbare : ∀ c ∈ (String.ofList line).toList, c ∉ special := by
    intro c hc hspecial
    obtain ⟨hblank, hr, hn⟩ := h.isBlank c (by simpa using hc)
    simp only [special, List.mem_cons, List.not_mem_nil, or_false] at hspecial
    rcases hspecial with rfl | rfl | rfl | rfl
    · revert hblank
      decide
    · revert hblank
      decide
    · exact hr rfl
    · exact hn rfl
  simpa using RecordText.last (.bare hbare)

theorem TableText.readsRest (h : TableText rows text)
    (hlength : ∀ row ∈ rows, ∀ cell ∈ row, cell.length ≤ cellLimit) : ReadsRest rows text := by
  induction h with
  | nil => exact ⟨readsRows_nil, by simp⟩
  | @blank rows line ending rest hline hending _ ih =>
      have hrest := ih hlength
      cases line with
      | nil =>
          refine ⟨hrest.empty_line hending, fun others hothers => ?_⟩
          cases hending with
          | lf =>
              obtain rfl := (List.cons.inj hothers).2
              exact hrest.1
          | cr | crlf | file => simp at hothers
      | cons c line =>
          have hone : ∀ cell ∈ [String.ofList (c :: line)], cell.length ≤ cellLimit := by
            intro cell hcell
            rw [List.mem_singleton.mp hcell, String.length_ofList]
            exact hline.length_le
          have hread : ReadsRows _ (c :: line ++ (ending ++ rest)) :=
            hrest.record hending hline.recordText (by simp) hone
          rw [hline.standing_singleton] at hread
          refine ⟨hread, fun others hothers => ?_⟩
          have hn := (hline.isBlank c (by simp)).2.2
          exact absurd (List.cons.inj hothers).1 hn
  | @record cells rows text ending rest hcells htext hending _ ih =>
      have hne := htext.ne_nil hcells
      have hrest := ih fun row hrow => hlength row (List.mem_cons_of_mem _ hrow)
      have hread : ReadsRows _ (text ++ (ending ++ rest)) :=
        hrest.record hending htext hne (hlength cells (by simp))
      rw [hcells.standing_singleton] at hread
      refine ⟨hread, fun others hothers => ?_⟩
      obtain ⟨c, cs, rfl⟩ := List.exists_cons_of_ne_nil hne
      exact absurd (List.cons.inj hothers).1 htext.head_ne_lf

/-- The rows of a table are read back from every text of it. -/
theorem TableText.read_eq_ok {raw : String} (h : TableText rows raw.toList)
    (hlength : ∀ row ∈ rows, ∀ cell ∈ row, cell.length ≤ cellLimit) :
    ∃ records, read raw = .ok records ∧ standing (records.map Record.cells) = rows := by
  have hstart : Progress.start.Shows .recordStart [] [] [] := ⟨rfl, rfl, rfl, rfl, rfl⟩
  exact (h.readsRest hlength).1 hstart

end Interlinear.Csv
