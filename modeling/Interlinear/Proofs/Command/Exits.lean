import Interlinear.Proofs.Command.Printing

/-!
# How translating ends

A command that translates ends with its translation printed, with a report, or in the refusal of a
wrong use.  In the last two nothing is printed.  It goes astray if it breaks off on the way to the
translation, or if the output has something else for the translation, or nothing.
-/

namespace Interlinear.Command

open Outcome

section Translating

variable [Unicode.Names]

inductive GoesAstray (output : Output) (surroundings : Surroundings) (arguments : List String) :
    Prop
  | breaksOff (h : RunBreaks surroundings arguments) : GoesAstray output surroundings arguments
  /-- A character that is shown of the translation cannot be written. -/
  | unwritten {translation : String} (h : Answers surroundings arguments translation) {c : Char}
      (hshown : c ∈ (shown output.terminal translation).toList)
      (hnone : output.written? c = none) : GoesAstray output surroundings arguments
  /-- The translation comes out as another text. -/
  | altered {translation written : String} (h : Answers surroundings arguments translation)
      (hwritten : output.prints? translation = some written) (hne : written ≠ translation) :
      GoesAstray output surroundings arguments

variable {output : Output} {surroundings : Surroundings} {arguments : List String}

section

variable (hcompletion : surroundings.completion? arguments = none)
  (hasks : AsksForResult arguments)
  (htranslates : ∀ directory? rest,
    Request.read? arguments ≠ some (.task directory? .generate rest))

include hcompletion hasks htranslates

theorem goesAstray_iff_of_ok {result : String} (hrun : run surroundings arguments = .ok result) :
    GoesAstray output surroundings arguments ↔ output.prints? result ≠ some result := by
  have hresult {text : String} (h : Answers surroundings arguments text) : text = result := by
    rw [← run_eq_ok_iff_answers hcompletion hasks, hrun] at h
    exact (Except.ok.inj h).symm
  have hanswers := (run_eq_ok_iff_answers hcompletion hasks).mp hrun
  constructor
  · rintro (hbreaks | ⟨h, hshown, hnone⟩ | ⟨h, hwritten, hne⟩)
    · rw [← breaks_run_iff hcompletion hasks htranslates, hrun] at hbreaks
      exact absurd hbreaks (not_breaks_ok result)
    · obtain rfl := hresult h
      rw [Output.prints?_eq_none_iff.mpr ⟨_, hshown, hnone⟩]
      simp
    · obtain rfl := hresult h
      simpa [hwritten] using hne
  · intro hne
    cases hwritten : output.prints? result with
    | none =>
        obtain ⟨c, hshown, hnone⟩ := Output.prints?_eq_none_iff.mp hwritten
        exact .unwritten hanswers hshown hnone
    | some written => exact .altered hanswers hwritten (by simpa [hwritten] using hne)

theorem goesAstray_iff_of_error {fault : Fault} (hrun : run surroundings arguments = .error fault) :
    GoesAstray output surroundings arguments ↔ fault.BreaksOff := by
  have hnone {text : String} : ¬ Answers surroundings arguments text := by
    rw [← run_eq_ok_iff_answers hcompletion hasks, hrun]
    simp
  have hbreaks := breaks_run_iff hcompletion hasks htranslates
  rw [hrun, breaks_error] at hbreaks
  rw [hbreaks]
  constructor
  · rintro (h | ⟨h, -⟩ | ⟨h, -⟩)
    · exact h
    · exact absurd h hnone
    · exact absurd h hnone
  · exact .breaksOff

end

/-- A command that translates ends in one of three ways exactly when it does not go astray. -/
theorem perform_ends_iff {ending : Ending}
    (h : RunsCommand output surroundings arguments ending)
    (htranslates : ∀ directory? rest,
      Request.read? arguments ≠ some (.task directory? .generate rest)) :
    ((ending.exitCode = 0 ∧ Answers surroundings arguments ending.printed) ∨
      (ending.exitCode = 1 ∧ ending.printed = "" ∧
        ∃ message, ending.report? = some ("Error: " ++ message)) ∨
      (ending.exitCode = 2 ∧ ending.printed = "")) ↔
    ¬ GoesAstray output surroundings arguments := by
  have hends := perform_ends output surroundings arguments
  rw [h.ending_eq] at hends
  cases hends with
  | @printed result written hrun hwritten =>
      rw [goesAstray_iff_of_ok h.completion h.asks htranslates hrun, hwritten]
      have hanswers : Answers surroundings arguments written ↔ result = written := by
        rw [← run_eq_ok_iff_answers h.completion h.asks, hrun, Except.ok.injEq]
      simp [Ending.exitCode, hanswers, eq_comm]
  | unwritten hrun hnone =>
      rw [goesAstray_iff_of_ok h.completion h.asks htranslates hrun, hnone]
      simp [Ending.exitCode, Ending.report?, Fault.exitCode, Fault.report?]
  | @broken fault hrun =>
      rw [goesAstray_iff_of_error h.completion h.asks htranslates hrun]
      rcases fault.ends with hexit | ⟨hexit, message, hreport⟩ | ⟨hexit, hreport⟩
      · simp [Ending.exitCode, Fault.BreaksOff, hexit]
      · refine iff_of_true (.inr (.inl ⟨hexit, rfl, Command.printed message, ?_⟩)) ?_
        · simp [Ending.report?, hreport, reportStart]
        · simp [Fault.BreaksOff, hreport]
      · simp [Ending.exitCode, Ending.report?, Fault.BreaksOff, hexit, hreport]
  | cutOff hcut =>
      obtain ⟨⟨hread, -⟩, -⟩ := hcut
      exact absurd hread (htranslates _ _)

end Translating

section Fixed

attribute [local instance] Unicode.Names.none

theorem perform_ends_iff_bear :
    ∃ ending, RunsCommand (.plain true) (bearSurroundings "2") ["tr", "bear"] ending ∧
      ending.exitCode = 0 ∧ Answers (bearSurroundings "2") ["tr", "bear"] ending.printed ∧
      ¬ GoesAstray (.plain true) (bearSurroundings "2") ["tr", "bear"] := by
  have hread : Request.read? ["tr", "bear"] = some (.task none .translate ["bear"]) := by
    decide +kernel
  have hruns := runsCommand_bear
  have hanswers : Answers (bearSurroundings "2") ["tr", "bear"] "arth\n" :=
    (run_eq_ok_iff_answers hruns.completion hruns.asks).mp run_bear
  have hends := perform_ends_iff hruns (by simp [hread])
  exact ⟨_, hruns, rfl, hanswers, hends.mp (.inl ⟨rfl, hanswers⟩)⟩

/-- A depth limit of zero ends a command without a report. -/
theorem not_perform_ends :
    ¬ ∀ (output : Output) (surroundings : Surroundings) (arguments : List String)
        (ending : Ending), RunsCommand output surroundings arguments ending →
      (∀ directory? rest, Request.read? arguments ≠ some (.task directory? .generate rest)) →
      (ending.exitCode = 0 ∧ Answers surroundings arguments ending.printed) ∨
        (ending.exitCode = 1 ∧ ending.printed = "" ∧
          ∃ message, ending.report? = some ("Error: " ++ message)) ∨
        (ending.exitCode = 2 ∧ ending.printed = "") := by
  intro h
  have hread : Request.read? ["tr", "bear"] = some (.task none .translate ["bear"]) := by
    decide +kernel
  have hcompletion : (bearSurroundings "0").completion? ["tr", "bear"] = none := by decide +kernel
  have hexit : (perform (.plain false) (bearSurroundings "0") ["tr", "bear"]).ending.exitCode = 1 :=
    by decide +kernel
  have hreport : (perform (.plain false) (bearSurroundings "0") ["tr", "bear"]).ending.report? =
      none := by decide +kernel
  have hwhole : (perform (.plain false) (bearSurroundings "0") ["tr", "bear"]).ending.fault? ≠
      some (.morphology .halfSurrogate) := by
    intro hhalf
    simp [Ending.report?, hhalf, Fault.report?, Fault.configReport?] at hreport
  rcases h (.plain false) (bearSurroundings "0") ["tr", "bear"] _
    ⟨hcompletion, asksForResult_bear, rfl, hwhole⟩ (by simp [hread]) with
    ⟨hgood, -⟩ | ⟨-, -, message, hmessage⟩ | ⟨husage, -⟩
  · simp [hexit] at hgood
  · simp [hreport] at hmessage
  · simp [hexit] at husage

end Fixed

end Interlinear.Command
