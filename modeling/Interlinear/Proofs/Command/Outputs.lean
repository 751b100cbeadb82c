import Interlinear.Proofs.Command.Sequences

/-!
# Texts as they come out

What comes out for a text is what comes out for the characters that are shown of it, one after the
other, and nothing at all if one of them cannot be written.  Where every character is written as
itself, the text comes out as it is shown.

Lines come out alike together and each by itself, as long as all of them can be written.
-/

namespace Interlinear.Command.Output

variable {output : Output}

theorem writtenAll?_append (cs ds : List Char) :
    output.writtenAll? (cs ++ ds) =
      (output.writtenAll? cs).bind fun first => (output.writtenAll? ds).map (first ++ ·) := by
  induction cs with
  | nil => simp [writtenAll?]
  | cons c cs ih =>
      rw [List.cons_append, writtenAll?, writtenAll?, ih]
      cases output.written? c with
      | none => rfl
      | some first =>
          cases output.writtenAll? cs with
          | none => rfl
          | some others => cases output.writtenAll? ds <;> simp

theorem writtenAll?_eq_none_iff {cs : List Char} :
    output.writtenAll? cs = none ↔ ∃ c ∈ cs, output.written? c = none := by
  induction cs with
  | nil => simp [writtenAll?]
  | cons c cs ih =>
      simp only [writtenAll?, List.mem_cons, exists_eq_or_imp, ← ih]
      cases output.written? c with
      | none => simp
      | some first => cases output.writtenAll? cs <;> simp

theorem writtenAll?_eq_self {cs : List Char} (h : ∀ c ∈ cs, output.written? c = some [c]) :
    output.writtenAll? cs = some cs := by
  induction cs with
  | nil => rfl
  | cons c cs ih =>
      obtain ⟨hfirst, hothers⟩ := List.forall_mem_cons.mp h
      rw [writtenAll?, hfirst, ih hothers]
      rfl

/-- Nothing comes out if and only if a character that is shown cannot be written. -/
theorem prints?_eq_none_iff {text : String} :
    output.prints? text = none ↔
      ∃ c ∈ (shown output.terminal text).toList, output.written? c = none := by
  rw [prints?, Option.map_eq_none_iff, writtenAll?_eq_none_iff]

theorem prints?_eq_shown {text : String} (h : ∀ c ∈ text.toList, output.written? c = some [c]) :
    output.prints? text = some (shown output.terminal text) := by
  rw [prints?, writtenAll?_eq_self fun c hc => h c (mem_of_mem_shown hc), Option.map_some,
    String.ofList_toList]

theorem prints?_empty : output.prints? "" = some "" := by
  have hnone : ∀ c ∈ "".toList, output.written? c = some [c] := by simp
  rw [prints?_eq_shown hnone]
  cases output.terminal <;> rfl

theorem prints?_line_append (line rest : String) :
    output.prints? (line ++ "\n" ++ rest) =
      (output.prints? (line ++ "\n")).bind fun first => (output.prints? rest).map (first ++ ·) := by
  simp only [prints?, shown_line_append, String.toList_append, writtenAll?_append]
  cases output.writtenAll? (shown output.terminal (line ++ "\n")).toList with
  | none => rfl
  | some first =>
      cases output.writtenAll? (shown output.terminal rest).toList with
      | none => rfl
      | some others => simp [String.ofList_append]

end Interlinear.Command.Output
