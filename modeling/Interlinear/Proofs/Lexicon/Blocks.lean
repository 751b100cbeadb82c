import Interlinear.Proofs.Lexicon.Lines

/-!
# Blocks of lines

A record takes up one line, or several where quoted cells go on across line ends.  A table is
therefore a row of blocks of lines, and each block is read as if it were a table of its own: it
holds one record, which ends on its last line, or it is at fault there.  In the whole table the
lines before a block come on top.

The reader keeps the records that it has found and the number of lines that it has begun, and
neither bears on what it does next.  Hence a reader that has just closed a record goes on as one
that starts afresh, and the blocks can be told apart.
-/

namespace Interlinear.Csv

open Outcome

/-! ### Reading after other lines -/

def Record.after (n : Nat) (record : Record) : Record :=
  { record with line := n + record.line }

def Error.after (n : Nat) (e : Error) : Error :=
  { e with line := n + e.line }

/-- What a table gives after a number of lines in which some records were found, last one first. -/
def outcomeAfter (n : Nat) (found : List Record) (outcome : Except Error (List Record)) :
    Except Error (List Record) :=
  (outcome.map fun records =>
    found.reverse ++ records.map (Record.after n)).mapError (Error.after n)

theorem outcomeAfter_zero (outcome : Except Error (List Record)) :
    outcomeAfter 0 [] outcome = outcome := by
  cases outcome with
  | error e => simp [outcomeAfter, Except.map, Error.after]
  | ok records =>
      have hrecord : Record.after 0 = id := by
        funext record
        simp [Record.after]
      simp [outcomeAfter, Except.map, hrecord]

theorem outcomeAfter_singleton (n k : Nat) (record : Record)
    (outcome : Except Error (List Record)) :
    outcomeAfter n [] (outcomeAfter k [record] outcome) =
      (outcomeAfter (n + k) [] outcome).map (record.after n :: ·) := by
  cases outcome with
  | error e => simp [outcomeAfter, Except.map, Error.after, Nat.add_assoc]
  | ok records =>
      simp [outcomeAfter, Except.map, Record.after, Nat.add_assoc, Function.comp_def]

namespace Progress

/-- The same place in a table that other lines stand before. -/
def after (n : Nat) (found : List Record) (p : Progress) : Progress :=
  { p with
    records := p.records.map (Record.after n) ++ found
    lines := n + p.lines }

variable {n : Nat} {found : List Record} {p q : Progress} {line : List Char}
  {lines : List (List Char)}

theorem line_after : (p.after n found).line = n + p.line := by
  unfold line after
  split <;> simp [Nat.add_assoc, *]

theorem closeCell_after : (p.after n found).closeCell = p.closeCell.after n found := rfl

theorem closeRecord_after : (p.after n found).closeRecord = p.closeRecord.after n found := by
  unfold closeRecord
  rw [line_after]
  rfl

theorem push_after (place : Place) (c : Char) :
    (p.after n found).push place c = (p.push place c).map (after n found) := by
  unfold push
  by_cases hsize : cellLimit ≤ p.size
  · rw [if_pos hsize]
    exact if_pos hsize
  · rw [if_neg hsize]
    exact if_neg hsize

theorem pushAll_after (place : Place) (cs : List Char) :
    (p.after n found).pushAll place cs = (p.pushAll place cs).map (after n found) := by
  induction cs generalizing p with
  | nil => rfl
  | cons c cs ih =>
      rw [pushAll, pushAll, push_after]
      cases p.push place c with
      | error fault => rfl
      | ok q => exact ih

theorem char_after (c : Char) :
    (p.after n found).char c = (p.char c).map (after n found) := by
  have hplace : (p.after n found).place = p.place := rfl
  unfold char
  simp only [hplace, push_after]
  cases p.place <;> dsimp only <;> (repeat' split) <;> rfl

theorem lineEnd_after (ending : List Char) :
    (p.after n found).lineEnd ending = (p.lineEnd ending).map (after n found) := by
  have hplace : (p.after n found).place = p.place := rfl
  unfold lineEnd
  rw [hplace]
  cases p.place with
  | quoted => exact pushAll_after .quoted ending
  | recordStart => exact congrArg Except.ok closeRecord_after
  | cellStart | bare | closing =>
      dsimp only
      rw [closeCell_after, closeRecord_after]
      rfl

theorem put_after (c : Char) : (p.after n found).put c = (p.put c).map (after n found) := by
  unfold put
  rw [char_after, line_after]
  cases p.char c <;> rfl

theorem endLine_after (ending : List Char) :
    (p.after n found).endLine ending = (p.endLine ending).map (after n found) := by
  unfold endLine
  rw [lineEnd_after, line_after]
  cases p.lineEnd ending <;> rfl

theorem takeLine_after :
    (p.after n found).takeLine line = (p.takeLine line).map (after n found) := by
  induction line generalizing p with
  | nil => exact endLine_after []
  | cons c cs ih =>
      unfold takeLine
      split
      · exact endLine_after _
      · rw [put_after]
        cases p.put c with
        | error fault => rfl
        | ok q => exact ih

theorem nextLine_after :
    (p.after n found).nextLine line =
      ((p.nextLine line).map (after n found)).mapError (Error.after n) := by
  unfold nextLine
  rw [takeLine_after, line_after]
  cases p.takeLine line <;> rfl

theorem readFrom_nil_after :
    readFrom (p.after n found) [] = outcomeAfter n found (readFrom p []) := by
  have hplace : (p.after n found).place = p.place := rfl
  unfold readFrom finish
  rw [hplace]
  cases p.place with
  | quoted => rfl
  | recordStart => simp [outcomeAfter, Except.map, after]
  | cellStart | bare | closing =>
      dsimp only
      rw [closeCell_after, closeRecord_after]
      simp [outcomeAfter, Except.map, after]

/-- Reads lines to the end of the table. -/
def readLines (p : Progress) (lines : List (List Char)) : Except Error (List Record) := do
  let q ← lines.foldlM nextLine p
  readFrom q []

theorem readLines_cons : p.readLines (line :: lines) = p.nextLine line >>= (·.readLines lines) := by
  unfold readLines
  rw [List.foldlM_cons, bind_assoc]

theorem readLines_append (others : List (List Char)) :
    p.readLines (lines ++ others) = lines.foldlM nextLine p >>= (·.readLines others) := by
  unfold readLines
  rw [List.foldlM_append, bind_assoc]

theorem readLines_after :
    (p.after n found).readLines lines = outcomeAfter n found (p.readLines lines) := by
  induction lines generalizing p with
  | nil => exact readFrom_nil_after
  | cons line lines ih =>
      rw [readLines_cons, readLines_cons, nextLine_after]
      cases p.nextLine line with
      | error e => rfl
      | ok q => exact ih

/-! ### Readers between lines -/

/-- Before a line a reader is in a quoted cell or as good as new. -/
structure Between (p : Progress) : Prop where
  lineOver_eq : p.lineOver = true
  quoted_or_new : p.place = .quoted ∨ p = start.after p.lines p.records

theorem Between.line_eq (h : p.Between) : p.line = p.lines + 1 := by
  simp [line, h.lineOver_eq]

theorem between_start : start.Between := ⟨rfl, .inr rfl⟩

theorem between_start_after (n : Nat) (found : List Record) : (start.after n found).Between :=
  ⟨rfl, .inr rfl⟩

/-- What is read of a line leaves a quoted cell open or closes a record. -/
def Leaves (p q : Progress) : Prop :=
  (q.lineOver = true ∧ q.place = .quoted ∧ q.lines = p.line ∧ q.records = p.records) ∨
    ∃ cells, q = start.after p.line (⟨p.line, cells⟩ :: p.records)

theorem endLine_eq_ok {ending : List Char}
    (hp : p.place = .recordStart → p.cell = [] ∧ p.size = 0) (h : p.endLine ending = .ok q) :
    p.Leaves q := by
  unfold endLine lineEnd at h
  cases hplace : p.place with
  | quoted =>
      rw [hplace] at h
      dsimp only at h
      cases hpush : p.pushAll .quoted ending with
      | error fault =>
          rw [hpush] at h
          cases h
      | ok r =>
          rw [hpush] at h
          obtain rfl := Except.ok.inj h
          obtain ⟨hrecords, hquoted⟩ := pushAll_eq_ok hpush
          exact .inl ⟨rfl, hquoted hplace, rfl, hrecords⟩
  | recordStart =>
      rw [hplace] at h
      obtain rfl := Except.ok.inj h
      obtain ⟨hcell, hsize⟩ := hp hplace
      refine .inr ⟨p.cells.reverse, ?_⟩
      simp [closeRecord, after, start, hcell, hsize]
  | cellStart | bare | closing =>
      rw [hplace] at h
      obtain rfl := Except.ok.inj h
      exact .inr ⟨p.closeCell.cells.reverse, rfl⟩

theorem takeLine_eq_ok (hp : p.place = .recordStart → p.cell = [] ∧ p.size = 0)
    (h : p.takeLine line = .ok q) : p.Leaves q := by
  induction line generalizing p with
  | nil => exact endLine_eq_ok hp h
  | cons c cs ih =>
      rw [takeLine] at h
      split at h
      · exact endLine_eq_ok hp h
      · obtain ⟨r, hput, hrest⟩ := bind_eq_ok_iff.mp h
        obtain ⟨hr, hline, hrecords⟩ := put_eq_ok hput
        have hleaves := ih (fun hplace => absurd hplace hr.place_ne) hrest
        unfold Leaves at hleaves ⊢
        rwa [hline, hrecords] at hleaves

theorem Between.cell_eq (h : p.Between) (hplace : p.place = .recordStart) :
    p.cell = [] ∧ p.size = 0 := by
  rcases h.quoted_or_new with hquoted | hnew
  · rw [hquoted] at hplace
    cases hplace
  · rw [hnew]
    exact ⟨rfl, rfl⟩

theorem Between.leaves (hp : p.Between) (h : p.nextLine line = .ok q) : p.Leaves q :=
  takeLine_eq_ok hp.cell_eq (mapError_eq_ok_iff.mp h)

theorem Leaves.between (h : p.Leaves q) : q.Between := by
  rcases h with ⟨hover, hquoted, -, -⟩ | ⟨cells, rfl⟩
  · exact ⟨hover, .inl hquoted⟩
  · exact between_start_after _ _

theorem Leaves.lines_eq (h : p.Leaves q) : q.lines = p.line := by
  rcases h with ⟨-, -, hlines, -⟩ | ⟨cells, rfl⟩
  · exact hlines
  · rfl

theorem Between.foldlM (hp : p.Between) (h : lines.foldlM nextLine p = .ok q) :
    q.Between ∧ q.lines = p.lines + lines.length := by
  induction lines generalizing p with
  | nil =>
      obtain rfl := Except.ok.inj h
      exact ⟨hp, rfl⟩
  | cons line lines ih =>
      rw [List.foldlM_cons] at h
      obtain ⟨r, hline, hrest⟩ := bind_eq_ok_iff.mp h
      have hleaves := hp.leaves hline
      obtain ⟨hq, hlines⟩ := ih hleaves.between hrest
      refine ⟨hq, ?_⟩
      rw [hlines, hleaves.lines_eq, hp.line_eq, List.length_cons]
      omega

theorem between_of_foldlM (h : lines.foldlM nextLine start = .ok q) :
    q.Between ∧ q.lines = lines.length := by
  have hq := between_start.foldlM h
  rwa [show start.lines = 0 from rfl, Nat.zero_add] at hq

theorem readFrom_start_after : readFrom (start.after n found) [] = .ok found.reverse := by
  simp [readFrom, finish, start, after]

theorem readFrom_quoted (h : p.place = .quoted) :
    readFrom p [] = .error ⟨p.lines, .unexpectedEnd⟩ := by
  simp [readFrom, finish, h]

theorem push_ne_unexpectedEnd (place : Place) (c : Char) :
    p.push place c ≠ .error .unexpectedEnd := by
  unfold push
  split <;> simp

theorem pushAll_ne_unexpectedEnd (place : Place) (cs : List Char) :
    p.pushAll place cs ≠ .error .unexpectedEnd := by
  induction cs generalizing p with
  | nil => simp [pushAll]
  | cons c cs ih =>
      intro h
      rcases bind_eq_error_iff.mp h with hpush | ⟨q, -, hrest⟩
      · exact push_ne_unexpectedEnd place c hpush
      · exact ih hrest

theorem char_ne_unexpectedEnd (c : Char) : p.char c ≠ .error .unexpectedEnd := by
  unfold char
  cases p.place <;> dsimp only <;> (repeat' split) <;>
    first | exact push_ne_unexpectedEnd _ c | simp

theorem lineEnd_ne_unexpectedEnd (ending : List Char) :
    p.lineEnd ending ≠ .error .unexpectedEnd := by
  unfold lineEnd
  cases p.place with
  | quoted => exact pushAll_ne_unexpectedEnd .quoted ending
  | recordStart | cellStart | bare | closing => simp

/-- Only the end of a table ends it unexpectedly. -/
theorem takeLine_ne_unexpectedEnd : p.takeLine line ≠ .error .unexpectedEnd := by
  induction line generalizing p with
  | nil => exact fun h => lineEnd_ne_unexpectedEnd [] (map_eq_error_iff.mp h)
  | cons c cs ih =>
      rw [takeLine]
      split
      · exact fun h => lineEnd_ne_unexpectedEnd _ (map_eq_error_iff.mp h)
      · intro h
        rcases bind_eq_error_iff.mp h with hput | ⟨q, -, hrest⟩
        · exact char_ne_unexpectedEnd c (map_eq_error_iff.mp hput)
        · exact ih hrest

end Progress

open Progress

theorem Progress.nextLine_eq_error {p : Progress} {line : List Char} {e : Error}
    (h : p.nextLine line = .error e) : e.line = p.line ∧ e.fault ≠ .unexpectedEnd := by
  unfold nextLine at h
  cases hline : p.takeLine line with
  | ok q =>
      rw [hline] at h
      cases h
  | error fault =>
      rw [hline] at h
      obtain rfl := Except.error.inj h
      refine ⟨rfl, ?_⟩
      rintro rfl
      exact takeLine_ne_unexpectedEnd hline

/-! ### Tables as rows of blocks -/

/-- What a table gives whose lines stand after a number of others. -/
inductive Reading : (before : Nat) → (lines : List (List Char)) → Except Error (List Record) → Prop
  | nil (before : Nat) : Reading before [] (.ok [])
  | record {before : Nat} {block rest : List (List Char)} {cells : List String}
      {outcome : Except Error (List Record)}
      (hblock : read (String.ofList block.flatten) = .ok [⟨block.length, cells⟩])
      (hrest : Reading (before + block.length) rest outcome) :
      Reading before (block ++ rest) (outcome.map (⟨before + block.length, cells⟩ :: ·))
  | fault {before : Nat} {block rest : List (List Char)} {fault : Fault}
      (hblock : read (String.ofList block.flatten) = .error ⟨block.length, fault⟩)
      (hrest : fault = .unexpectedEnd → rest = []) :
      Reading before (block ++ rest) (.error ⟨before + block.length, fault⟩)

variable {before : Nat} {ls block rest : List (List Char)} {outcome : Except Error (List Record)}

theorem read_eq_readLines (raw : String) : read raw = start.readLines (lines raw.toList) :=
  readFrom_eq_foldlM start raw.toList

theorem read_block (hlines : lines block.flatten = block) :
    read (String.ofList block.flatten) = start.readLines block := by
  rw [read_eq_readLines, String.toList_ofList, hlines]

/-- Lines that have been read and hold no whole record. -/
structure Opens (block : List (List Char)) (q : Progress) : Prop where
  reads : block.foldlM nextLine start = .ok q
  records_eq : q.records = []
  quoted_or_start : q.place = .quoted ∨ q = start ∧ block = []

theorem opens_nil : Opens [] start := ⟨rfl, rfl, .inr ⟨rfl, rfl⟩⟩

section Opens

variable {q r : Progress} {line : List Char}

theorem Opens.readLines_append (h : Opens block q) (rest : List (List Char)) :
    start.readLines (block ++ rest) = q.readLines rest := by
  rw [Progress.readLines_append, h.reads, ok_bind]

theorem Opens.line_eq (h : Opens block q) (line : List Char) :
    q.line = (block ++ [line]).length := by
  obtain ⟨hbetween, hcount⟩ := between_of_foldlM h.reads
  rw [hbetween.line_eq, hcount, List.length_append, List.length_singleton]

theorem Opens.readLines_nil (h : Opens block q) (hquoted : q.place = .quoted) :
    q.readLines [] = .error ⟨block.length, .unexpectedEnd⟩ := by
  obtain ⟨-, hcount⟩ := between_of_foldlM h.reads
  rw [← hcount]
  exact readFrom_quoted hquoted

theorem Opens.concat (h : Opens block q) (hline : q.nextLine line = .ok r)
    (hquoted : r.place = .quoted) (hrecords : r.records = q.records) :
    Opens (block ++ [line]) r where
  reads := by
    rw [List.foldlM_append, h.reads, ok_bind, List.foldlM_cons, hline]
    rfl
  records_eq := hrecords.trans h.records_eq
  quoted_or_start := .inl hquoted

end Opens

theorem reading_of_opens {q : Progress} (h : Opens block q)
    (hlines : lines (block ++ rest).flatten = block ++ rest) :
    Reading before (block ++ rest) (outcomeAfter before [] (q.readLines rest)) := by
  induction rest generalizing before block q with
  | nil =>
      rcases h.quoted_or_start with hquoted | ⟨rfl, rfl⟩
      · have hread := h.readLines_append []
        rw [List.append_nil] at hlines hread
        rw [h.readLines_nil hquoted] at hread ⊢
        exact .fault ((read_block hlines).trans hread) fun _ => rfl
      · exact .nil before
  | cons line rest ih =>
      have hsplit : block ++ line :: rest = (block ++ [line]) ++ rest := by simp
      rw [hsplit] at hlines ⊢
      obtain ⟨hblock, hrest⟩ := lines_flatten_of_append hlines
      have hread := (read_block hblock).trans (h.readLines_append [line])
      have hnumber := h.line_eq line
      rw [readLines_cons] at hread ⊢
      cases hline : q.nextLine line with
      | error e =>
          obtain ⟨hnumberError, hfault⟩ := nextLine_eq_error hline
          have he : e = ⟨(block ++ [line]).length, e.fault⟩ := by rw [← hnumber, ← hnumberError]
          rw [hline, he] at hread
          rw [he]
          exact .fault hread fun hend => absurd hend hfault
      | ok r =>
          rw [hline, ok_bind] at hread
          rw [ok_bind]
          obtain ⟨hbetween, -⟩ := between_of_foldlM h.reads
          rcases hbetween.leaves hline with ⟨-, hquoted, -, hrecords⟩ | ⟨cells, rfl⟩
          · exact ih (h.concat hline hquoted hrecords) hlines
          · -- The reader is as good as new, so the lines left are read as a table of their own.
            rw [h.records_eq, hnumber] at hread ⊢
            rw [readLines_after, outcomeAfter_singleton]
            exact .record (hread.trans readFrom_start_after) (ih opens_nil hrest)

theorem Reading.eq_outcomeAfter (h : Reading before ls outcome) (hlines : lines ls.flatten = ls) :
    outcome = outcomeAfter before [] (start.readLines ls) := by
  induction h with
  | nil before => rfl
  | @record before block rest cells outcome hblock hrest ih =>
      obtain ⟨hblockLines, hrestLines⟩ := lines_flatten_of_append hlines
      rw [read_block hblockLines] at hblock
      obtain ⟨q, hfold, hend⟩ := bind_eq_ok_iff.mp hblock
      obtain ⟨hbetween, hcount⟩ := between_of_foldlM hfold
      have hq : q = start.after block.length [⟨block.length, cells⟩] := by
        rcases hbetween.quoted_or_new with hquoted | hnew
        · rw [readFrom_quoted hquoted] at hend
          cases hend
        · rw [hnew, readFrom_start_after] at hend
          have hrecords : q.records = [⟨block.length, cells⟩] :=
            List.reverse_eq_iff.mp (Except.ok.inj hend)
          rw [hnew, hrecords, hcount]
      rw [readLines_append, hfold, ok_bind, hq, readLines_after, outcomeAfter_singleton,
        ← ih hrestLines]
      rfl
  | @fault before block rest fault hblock hrest =>
      obtain ⟨hblockLines, -⟩ := lines_flatten_of_append hlines
      rw [read_block hblockLines] at hblock
      rcases bind_eq_error_iff.mp hblock with hfold | ⟨q, hfold, hend⟩
      · rw [readLines_append, hfold]
        rfl
      · have hfault : fault = .unexpectedEnd := by
          rcases (between_of_foldlM hfold).1.quoted_or_new with hquoted | hnew
          · rw [readFrom_quoted hquoted] at hend
            injection hend with herror
            injection herror with _ hfault
            exact hfault.symm
          · rw [hnew, readFrom_start_after] at hend
            cases hend
        rw [hrest hfault, List.append_nil, hblock]
        rfl

/-- Every table is read block by block. -/
theorem reading_iff (raw : String) :
    Reading 0 (lines raw.toList) outcome ↔ read raw = outcome := by
  have hlines : lines (lines raw.toList).flatten = lines raw.toList := by rw [flatten_lines]
  rw [read_eq_readLines]
  constructor
  · intro h
    rw [h.eq_outcomeAfter hlines, outcomeAfter_zero]
  · rintro rfl
    have hreading : Reading 0 ([] ++ lines raw.toList) _ :=
      reading_of_opens opens_nil hlines
    rwa [outcomeAfter_zero] at hreading

/-! ### Parts of a table -/

theorem Reading.append {found : List Record} (h : Reading before ls (.ok found))
    (hrest : Reading (before + ls.length) rest outcome) :
    Reading before (ls ++ rest) (outcome.map (found ++ ·)) := by
  generalize hok : Except.ok found = ok at h
  induction h generalizing found with
  | nil before =>
      obtain rfl := Except.ok.inj hok
      cases outcome <;> exact hrest
  | @record before block others cells later hblock _ ih =>
      cases later with
      | error e => cases hok
      | ok records =>
          obtain rfl := Except.ok.inj hok
          rw [List.length_append, ← Nat.add_assoc] at hrest
          have hreading := Reading.record hblock (ih hrest rfl)
          rw [List.append_assoc]
          cases outcome <;> exact hreading
  | fault => cases hok

theorem Reading.exists_of_ok {record : Record} {found others : List Record}
    (h : Reading before ls (.ok (found ++ record :: others))) :
    ∃ earlier block later, ls = earlier ++ (block ++ later) ∧ Reading before earlier (.ok found) ∧
      read (String.ofList block.flatten) = .ok [⟨block.length, record.cells⟩] ∧
      Reading (before + earlier.length + block.length) later (.ok others) ∧
      record.line = before + earlier.length + block.length := by
  generalize hok : Except.ok (found ++ record :: others) = ok at h
  induction h generalizing found with
  | nil => simp at hok
  | @record before block rest cells outcome hblock hrest ih =>
      cases outcome with
      | error e => cases hok
      | ok records =>
          have hrecords := Except.ok.inj hok
          cases found with
          | nil =>
              obtain ⟨rfl, rfl⟩ := List.cons.inj hrecords
              exact ⟨[], block, rest, rfl, .nil before, hblock, hrest, rfl⟩
          | cons first found =>
              obtain ⟨rfl, rfl⟩ := List.cons.inj hrecords
              obtain ⟨earlier, own, later, rfl, hearlier, hown, hlater, hline⟩ := ih rfl
              refine ⟨block ++ earlier, own, later, ?_, .record hblock hearlier, hown, ?_⟩
              · rw [List.append_assoc]
              · rw [List.length_append, ← Nat.add_assoc]
                exact ⟨hlater, hline⟩
  | fault => cases hok

theorem Reading.exists_of_error {e : Error} (h : Reading before ls (.error e)) :
    ∃ earlier block later found, ls = earlier ++ (block ++ later) ∧
      Reading before earlier (.ok found) ∧
      read (String.ofList block.flatten) = .error ⟨block.length, e.fault⟩ ∧
      e.line = before + earlier.length + block.length ∧
      (e.fault = .unexpectedEnd → later = []) := by
  generalize herror : Except.error e = error at h
  induction h with
  | nil => cases herror
  | @record before block rest cells outcome hblock hrest ih =>
      cases outcome with
      | ok records => cases herror
      | error other =>
          obtain rfl := Except.error.inj herror
          obtain ⟨earlier, own, later, found, rfl, hearlier, hown, hline, hend⟩ := ih rfl
          refine ⟨block ++ earlier, own, later, _, ?_, .record hblock hearlier, hown, ?_, hend⟩
          · rw [List.append_assoc]
          · rw [hline, List.length_append, ← Nat.add_assoc]
  | @fault before block rest fault hblock hrest =>
      obtain rfl := Except.error.inj herror
      exact ⟨[], block, rest, [], rfl, .nil before, hblock, rfl, hrest⟩

end Interlinear.Csv
