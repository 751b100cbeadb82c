import Interlinear.Proofs.Lexicon.TableText
import Interlinear.Proofs.Outcome

/-!
# Physical lines

A text is a row of lines, each with what ends it: a line feed, a carriage return or both in this
order.  The last line may end with the text.  The reader of tables goes through a text character by
character, and it goes through it line by line: before every line it stands at the start of a record
or inside a quoted cell, and a line takes it from one such place to another or to a fault.
-/

namespace Interlinear.Csv

open Outcome

def IsBreak (c : Char) : Prop :=
  c = '\r' ∨ c = '\n'

instance (c : Char) : Decidable (IsBreak c) :=
  inferInstanceAs (Decidable (c = '\r' ∨ c = '\n'))

/-- The lines of a text, each with what ends it. -/
def lines : List Char → List (List Char)
  | [] => []
  | '\r' :: '\n' :: cs => ['\r', '\n'] :: lines cs
  | c :: cs =>
      if IsBreak c then [c] :: lines cs
      else
        match lines cs with
        | [] => [[c]]
        | line :: rest => (c :: line) :: rest

/-- What may stand between the characters of a line and the rest of a text that goes on. -/
inductive Terminator : (ending rest : List Char) → Prop
  | lf (rest : List Char) : Terminator ['\n'] rest
  | cr {rest : List Char} (hrest : ∀ others, rest ≠ '\n' :: others) : Terminator ['\r'] rest
  | crlf (rest : List Char) : Terminator ['\r', '\n'] rest

variable {body ending rest : List Char}

theorem Terminator.ne_nil (h : Terminator ending rest) : ending ≠ [] := by
  cases h <;> simp

theorem Terminator.isBreak_of_mem (h : Terminator ending rest) {c : Char} (hc : c ∈ ending) :
    IsBreak c := by
  cases h with
  | lf | cr =>
      rw [List.mem_singleton] at hc
      simp [IsBreak, hc]
  | crlf => simpa [IsBreak] using hc

theorem Terminator.lines_append (h : Terminator ending rest) :
    lines (ending ++ rest) = ending :: lines rest := by
  cases h with
  | lf =>
      rw [List.singleton_append, lines, if_pos (.inr rfl)]
      rintro others ⟨⟩
  | cr hrest =>
      rw [List.singleton_append, lines, if_pos (.inl rfl)]
      intro others _ heq
      exact hrest others heq
  | crlf => rw [List.cons_append, List.singleton_append, lines]

theorem lines_cons_of_not_isBreak {c : Char} (hc : ¬ IsBreak c) (cs : List Char) :
    lines (c :: cs) =
      match lines cs with
      | [] => [[c]]
      | line :: rest => (c :: line) :: rest := by
  rw [lines, if_neg hc]
  rintro others rfl
  exact absurd (.inl rfl) hc

theorem lines_append_of_terminator (hbody : ∀ c ∈ body, ¬ IsBreak c)
    (hending : Terminator ending rest) :
    lines (body ++ (ending ++ rest)) = (body ++ ending) :: lines rest := by
  induction body with
  | nil => exact hending.lines_append
  | cons c body ih =>
      obtain ⟨hc, hbody⟩ := List.forall_mem_cons.mp hbody
      rw [List.cons_append, lines_cons_of_not_isBreak hc, ih hbody, List.cons_append]

theorem lines_eq_singleton (hbody : ∀ c ∈ body, ¬ IsBreak c) (hne : body ≠ []) :
    lines body = [body] := by
  induction body with
  | nil => exact absurd rfl hne
  | cons c body ih =>
      obtain ⟨hc, hbody⟩ := List.forall_mem_cons.mp hbody
      rw [lines_cons_of_not_isBreak hc]
      by_cases hnil : body = []
      · rw [hnil, lines]
      · rw [ih hbody hnil]

theorem exists_terminator {c : Char} (hc : IsBreak c) (cs : List Char) :
    ∃ ending rest, c :: cs = ending ++ rest ∧ Terminator ending rest := by
  rcases hc with rfl | rfl
  · by_cases hlf : ∃ rest, cs = '\n' :: rest
    · obtain ⟨rest, rfl⟩ := hlf
      exact ⟨['\r', '\n'], rest, rfl, .crlf rest⟩
    · have hrest : ∀ others, cs ≠ '\n' :: others := fun others heq => hlf ⟨others, heq⟩
      exact ⟨['\r'], cs, rfl, .cr hrest⟩
  · exact ⟨['\n'], cs, rfl, .lf cs⟩

theorem exists_first_line (cs : List Char) :
    (∀ c ∈ cs, ¬ IsBreak c) ∨ ∃ body ending rest, cs = body ++ (ending ++ rest) ∧
      (∀ c ∈ body, ¬ IsBreak c) ∧ Terminator ending rest := by
  induction cs with
  | nil => exact .inl (by simp)
  | cons c cs ih =>
      by_cases hc : IsBreak c
      · obtain ⟨ending, rest, heq, hending⟩ := exists_terminator hc cs
        exact .inr ⟨[], ending, rest, heq, by simp, hending⟩
      · rcases ih with hcs | ⟨body, ending, rest, rfl, hbody, hending⟩
        · exact .inl (List.forall_mem_cons.mpr ⟨hc, hcs⟩)
        · exact .inr ⟨c :: body, ending, rest, rfl, List.forall_mem_cons.mpr ⟨hc, hbody⟩, hending⟩

/-- A text is empty, a line without an end, or a line with its end before another text. -/
theorem lines_induction {motive : List Char → Prop} (nil : motive [])
    (last : ∀ body, (∀ c ∈ body, ¬ IsBreak c) → body ≠ [] → motive body)
    (cons : ∀ body ending rest, (∀ c ∈ body, ¬ IsBreak c) → Terminator ending rest →
      motive rest → motive (body ++ (ending ++ rest)))
    (cs : List Char) : motive cs := by
  rcases exists_first_line cs with hbody | ⟨body, ending, rest, hcs, hbody, hending⟩
  · by_cases hnil : cs = []
    · rw [hnil]
      exact nil
    · exact last cs hbody hnil
  · have hshorter : rest.length < cs.length := by
      have hpos := List.length_pos_iff.mpr hending.ne_nil
      rw [hcs, List.length_append, List.length_append]
      omega
    rw [hcs]
    exact cons body ending rest hbody hending (lines_induction nil last cons rest)
termination_by cs.length

theorem flatten_lines (cs : List Char) : (lines cs).flatten = cs := by
  induction cs using lines_induction with
  | nil => rfl
  | last body hbody hne => rw [lines_eq_singleton hbody hne, List.flatten_singleton]
  | cons body ending rest hbody hending ih =>
      rw [lines_append_of_terminator hbody hending, List.flatten_cons, ih, List.append_assoc]

theorem Terminator.of_append {others : List Char} (h : Terminator ending (rest ++ others)) :
    Terminator ending rest := by
  generalize hall : rest ++ others = all at h
  cases h with
  | lf => exact .lf rest
  | crlf => exact .crlf rest
  | cr hrest =>
      apply Terminator.cr
      intro tail htail
      apply hrest (tail ++ others)
      rw [← hall, htail, List.cons_append]

/-- The first and the last lines of a text are the lines of what they make up. -/
theorem lines_flatten_of_append {cs : List Char} {before after : List (List Char)}
    (h : lines cs = before ++ after) :
    lines before.flatten = before ∧ lines after.flatten = after := by
  induction cs using lines_induction generalizing before with
  | nil =>
      obtain ⟨rfl, rfl⟩ := List.append_eq_nil_iff.mp h.symm
      exact ⟨rfl, rfl⟩
  | last body hbody hne =>
      have hline := lines_eq_singleton hbody hne
      rw [hline] at h
      rcases List.singleton_eq_append_iff.mp h with ⟨rfl, rfl⟩ | ⟨rfl, rfl⟩
      · exact ⟨rfl, by rw [List.flatten_singleton, hline]⟩
      · exact ⟨by rw [List.flatten_singleton, hline], rfl⟩
  | cons body ending rest hbody hending ih =>
      cases before with
      | nil =>
          rw [List.nil_append] at h
          exact ⟨rfl, by rw [← h, flatten_lines]⟩
      | cons line before =>
          rw [lines_append_of_terminator hbody hending, List.cons_append] at h
          obtain ⟨hline, hrest⟩ := List.cons.inj h
          obtain ⟨hbefore, hafter⟩ := ih hrest
          have hflat : rest = before.flatten ++ after.flatten := by
            rw [← List.flatten_append, ← hrest, flatten_lines]
          rw [hflat] at hending
          refine ⟨?_, hafter⟩
          rw [← hline, List.flatten_cons, List.append_assoc,
            lines_append_of_terminator hbody hending.of_append, hbefore]

/-! ### Reading line by line -/

namespace Progress

/-- Reads a character that ends no line. -/
def put (p : Progress) (c : Char) : Except Fault Progress :=
  (p.char c).map fun q => { q with lines := p.line, lineOver := false }

def endLine (p : Progress) (ending : List Char) : Except Fault Progress :=
  (p.lineEnd ending).map fun q => { q with lines := p.line, lineOver := true }

/-- Reads a line or what is left of it. -/
def takeLine (p : Progress) : List Char → Except Fault Progress
  | [] => p.endLine []
  | c :: cs =>
      if IsBreak c then p.endLine (c :: cs)
      else do
        let q ← p.put c
        q.takeLine cs

/-- Reads a line; a fault is one of that line. -/
def nextLine (p : Progress) (line : List Char) : Except Error Progress :=
  (p.takeLine line).mapError (Error.mk p.line)

/-- A line has been begun and goes on. -/
structure InLine (p : Progress) : Prop where
  place_ne : p.place ≠ .recordStart
  lineOver_eq : p.lineOver = false

variable {p q : Progress} {c : Char}

theorem pushAll_eq_ok {place : Place} {cs : List Char} (h : p.pushAll place cs = .ok q) :
    q.records = p.records ∧ (p.place = place → q.place = place) := by
  induction cs generalizing p with
  | nil =>
      obtain rfl := Except.ok.inj h
      exact ⟨rfl, id⟩
  | cons c cs ih =>
      obtain ⟨r, hpush, hrest⟩ := bind_eq_ok_iff.mp h
      obtain ⟨hrecords, hplace⟩ := ih hrest
      unfold push at hpush
      split at hpush
      · cases hpush
      · obtain rfl := Except.ok.inj hpush
        exact ⟨hrecords, fun _ => hplace rfl⟩

theorem char_eq_ok (h : p.char c = .ok q) : q.place ≠ .recordStart ∧ q.records = p.records := by
  unfold char push at h
  split at h <;> (repeat' split at h) <;> cases h <;> simp [closeCell]

theorem put_eq_ok (h : p.put c = .ok q) :
    q.InLine ∧ q.line = p.line ∧ q.records = p.records := by
  unfold put at h
  cases hchar : p.char c with
  | error fault =>
      rw [hchar] at h
      cases h
  | ok r =>
      rw [hchar] at h
      obtain rfl := Except.ok.inj h
      obtain ⟨hplace, hrecords⟩ := char_eq_ok hchar
      exact ⟨⟨hplace, rfl⟩, rfl, hrecords⟩

theorem readFrom_put (p : Progress) (hc : ¬ IsBreak c) (rest : List Char) :
    readFrom p (c :: rest) =
      (p.put c).mapError (Error.mk p.line) >>= fun q => readFrom q rest := by
  rw [readFrom]
  · have hnot : ¬ (c = '\r' ∨ c = '\n') := hc
    rw [if_neg hnot, put]
    cases p.char c <;> rfl
  · rintro cs rfl
    exact absurd (.inl rfl) hc

theorem readFrom_terminator (p : Progress) (h : Terminator ending rest) :
    readFrom p (ending ++ rest) =
      (p.endLine ending).mapError (Error.mk p.line) >>= fun q => readFrom q rest := by
  cases h with
  | lf =>
      rw [List.singleton_append, readFrom]
      · rw [if_pos (.inr rfl), endLine]
        cases p.lineEnd ['\n'] <;> rfl
      · rintro cs ⟨⟩
  | cr hrest =>
      rw [List.singleton_append, readFrom]
      · rw [if_pos (.inl rfl), endLine]
        cases p.lineEnd ['\r'] <;> rfl
      · intro cs _ hcs
        exact hrest cs hcs
  | crlf =>
      rw [List.cons_append, List.singleton_append, readFrom, endLine]
      cases p.lineEnd ['\r', '\n'] <;> rfl

theorem takeLine_terminator (p : Progress) (h : Terminator ending rest) :
    p.takeLine ending = p.endLine ending := by
  cases ending with
  | nil => exact absurd rfl h.ne_nil
  | cons c cs => rw [takeLine, if_pos (h.isBreak_of_mem (by simp))]

theorem readFrom_line (p : Progress) (hbody : ∀ c ∈ body, ¬ IsBreak c)
    (hending : Terminator ending rest) :
    readFrom p (body ++ (ending ++ rest)) =
      p.nextLine (body ++ ending) >>= fun q => readFrom q rest := by
  unfold nextLine
  induction body generalizing p with
  | nil => rw [List.nil_append, List.nil_append, takeLine_terminator p hending,
      readFrom_terminator p hending]
  | cons c body ih =>
      obtain ⟨hc, hbody⟩ := List.forall_mem_cons.mp hbody
      rw [List.cons_append, readFrom_put p hc, List.cons_append, takeLine, if_neg hc]
      cases hput : p.put c with
      | error fault => rfl
      | ok q =>
          obtain ⟨-, hline, -⟩ := put_eq_ok hput
          rw [mapError_ok, ok_bind, ok_bind, ih q hbody, hline]

/-- The end of a text ends the line that has been begun. -/
theorem InLine.readFrom_nil (h : p.InLine) :
    readFrom p [] = (p.endLine []).mapError (Error.mk p.line) >>= fun q => readFrom q [] := by
  have hplace := h.place_ne
  have hline : p.line = p.lines := by simp [line, h.lineOver_eq]
  unfold readFrom endLine finish lineEnd
  cases hp : p.place <;> simp_all [Except.map, pushAll, closeRecord]

theorem readFrom_last (p : Progress) (hbody : ∀ c ∈ body, ¬ IsBreak c) (hne : body ≠ []) :
    readFrom p body = p.nextLine body >>= fun q => readFrom q [] := by
  unfold nextLine
  induction body generalizing p with
  | nil => exact absurd rfl hne
  | cons c body ih =>
      obtain ⟨hc, hbody⟩ := List.forall_mem_cons.mp hbody
      rw [readFrom_put p hc, takeLine, if_neg hc]
      cases hput : p.put c with
      | error fault => rfl
      | ok q =>
          obtain ⟨hq, hline, -⟩ := put_eq_ok hput
          rw [mapError_ok, ok_bind, ok_bind, ← hline]
          by_cases hnil : body = []
          · rw [hnil]
            exact hq.readFrom_nil
          · exact ih q hbody hnil

/-- A text is read line by line, and then its end. -/
theorem readFrom_eq_foldlM (p : Progress) (cs : List Char) :
    readFrom p cs = (Csv.lines cs).foldlM nextLine p >>= fun q => readFrom q [] := by
  induction cs using lines_induction generalizing p with
  | nil => rfl
  | last body hbody hne =>
      rw [lines_eq_singleton hbody hne, List.foldlM_cons, readFrom_last p hbody hne]
      simp only [List.foldlM_nil, bind_pure]
  | cons body ending rest hbody hending ih =>
      rw [lines_append_of_terminator hbody hending, readFrom_line p hbody hending, List.foldlM_cons,
        bind_assoc]
      simp only [ih]

end Progress

end Interlinear.Csv
