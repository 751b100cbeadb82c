import Interlinear.Proofs.Command.Endings
import Interlinear.Proofs.Command.Outputs
import Interlinear.Proofs.Generator.Faults

/-!
# What runs print

A run that is asked for a result prints what comes out for it, if that can be written.  When a
translation is printed all of it is there, and it is printed whole or not at all.  Words are printed
one by one, each before the next is generated, so a word that cannot be written leaves those before
it behind.  Nothing else can go wrong between two words but that one nests too deeply, since the
rules were read before the first of them.

What comes out need not be the result.  Elsewhere than on a terminal there are no terminal sequences
in it, and an output may have others for the characters it lacks.
-/

namespace Interlinear.Command

open Outcome
open Project (Disk Settings)

/-! ## Results -/

/-- The words that are generated one after the other, from one state of the twister to another. -/
inductive InTurn (generator : Generator.Compiled Float) (rule? : Option String) :
    Generator.Twister → List String → Generator.Twister → Prop
  | nil (twister : Generator.Twister) : InTurn generator rule? twister [] twister
  | cons {twister next last : Generator.Twister} {word : String} {words : List String}
      (hword : generator.generate twisterSource rule? twister = (.ok word, next))
      (hwords : InTurn generator rule? next words last) :
      InTurn generator rule? twister (word :: words) last

section Words

variable {generator : Generator.Compiled Float} {rule? : Option String}

theorem generateWords_eq_ok_iff {count : Nat} {twister : Generator.Twister} {lines : List String} :
    generateWords generator rule? count twister = .ok lines ↔
      ∃ words last, InTurn generator rule? twister words last ∧ words.length = count ∧
        lines = words.map (· ++ "\n") := by
  induction count generalizing twister lines with
  | zero =>
      constructor
      · intro h
        obtain rfl := Except.ok.inj h
        exact ⟨[], twister, .nil twister, rfl, rfl⟩
      · rintro ⟨words, last, -, hlength, rfl⟩
        rw [List.eq_nil_of_length_eq_zero hlength]
        rfl
  | succ count ih =>
      rw [generateWords]
      constructor
      · intro h
        split at h
        next => cases h
        next word next hword =>
            obtain ⟨others, hothers, hlines⟩ := bind_eq_ok_iff.mp h
            obtain rfl := Except.ok.inj hlines
            obtain ⟨words, last, hwords, rfl, rfl⟩ := ih.mp hothers
            exact ⟨word :: words, last, .cons hword hwords, rfl, rfl⟩
      · rintro ⟨words, last, hwords, hlength, rfl⟩
        cases hwords with
        | nil => cases hlength
        | cons hword hwords =>
            have hothers := ih.mpr ⟨_, _, hwords, Nat.succ.inj hlength, rfl⟩
            rw [hword]
            dsimp only
            rw [hothers]
            rfl

theorem generate_eq_error {disk : Disk} {settings : Settings}
    (hload : loadGenerator disk settings = .ok generator) {twister next : Generator.Twister}
    {error : Generator.ExpansionError}
    (h : generator.generate twisterSource rule? twister = (.error error, next)) :
    error = .nestedTooDeeply := by
  simp only [loadGenerator, bind_eq_ok_iff, mapError_eq_ok_iff] at hload
  obtain ⟨text, -, rules, hparse, hcompile⟩ := hload
  have hrows := (Generator.areRows_of_parse hparse).toFloat
  exact (Generator.isCompiled_of_compile hcompile).expand_eq_error hrows (congrArg Prod.fst h)

end Words

section Results

variable [Unicode.Names]

/-- The result that a task asks for: a translation, or so many words on lines of their own. -/
inductive IsResult (surroundings : Surroundings) (settings : Settings) : Task → String → Prop
  | translation {task : Task} {result : String}
      (h : IsTranslation surroundings settings task result) :
      IsResult surroundings settings task result
  | words {rule? : Option String} {count : Int} {seed? : Option Int}
      {generator : Generator.Compiled Float} {words : List String} {last : Generator.Twister}
      (hload : loadGenerator surroundings.disk settings = .ok generator)
      (hwords : InTurn generator rule? (.ofSeed (seed?.getD surroundings.freshSeed)) words last)
      (hcount : (words.length : Int) = max count 0) :
      IsResult surroundings settings (.generate rule? count seed?)
        (String.join (words.map (· ++ "\n")))

/-- The text is the result that the arguments ask for. -/
inductive Answers (surroundings : Surroundings) (arguments : List String) (result : String) : Prop
  | intro {directory? : Option String} {name : TaskName} {rest : List String} {settings : Settings}
      {task : Task} (hread : Request.read? arguments = some (.task directory? name rest))
      (hdirectory : checkDirectory surroundings.disk directory? = .ok ())
      (hsettings : Settings.ofEnvironment surroundings.environment = .ok settings)
      (htask : Task.read? name rest = some task)
      (hresult : IsResult surroundings (settings.within directory?) task result) :
      Answers surroundings arguments result

variable {surroundings : Surroundings} {settings : Settings}

theorem Task.run_eq_ok_iff {task : Task} (hhelp : task ≠ .help) {result : String} :
    task.run surroundings settings = .ok result ↔ IsResult surroundings settings task result := by
  cases task with
  | help => exact absurd rfl hhelp
  | translate texts =>
      rw [run_translate_eq_ok_iff]
      constructor
      · exact .translation
      · rintro (h | -)
        exact h
  | text source includeSources =>
      rw [run_text_eq_ok_iff]
      constructor
      · exact .translation
      · rintro (h | -)
        exact h
  | generate rule? count seed? =>
      simp only [Task.run, bind_eq_ok_iff, generateWords_eq_ok_iff, Except.ok.injEq]
      constructor
      · rintro ⟨generator, hload, _, ⟨words, last, hwords, hlength, rfl⟩, rfl⟩
        exact .words hload hwords (by omega)
      · intro h
        cases h with
        | translation h => cases h
        | words hload hwords hcount => exact ⟨_, hload, _, ⟨_, _, hwords, by omega, rfl⟩, rfl⟩

theorem run_eq_ok_iff_answers {arguments : List String}
    (hcompletion : surroundings.completion? arguments = none) (hasks : AsksForResult arguments)
    {result : String} :
    run surroundings arguments = .ok result ↔ Answers surroundings arguments result := by
  unfold AsksForResult at hasks
  simp only [run, hcompletion]
  cases hread : Request.read? arguments with
  | none =>
      constructor
      · intro h
        simp [runRequest] at h
      · rintro ⟨hother, -⟩
        simp [hread] at hother
  | some request =>
      cases request with
      | version => simp [hread] at hasks
      | help => simp [hread] at hasks
      | task directory? name rest =>
          simp only [hread] at hasks
          simp only [runRequest, bind_eq_ok_iff, mapError_eq_ok_iff]
          constructor
          · rintro ⟨_, hdirectory, settings, hsettings, h⟩
            cases htask : Task.read? name rest with
            | none => simp [htask] at h
            | some task =>
                have hhelp : task ≠ .help := by
                  rintro rfl
                  exact hasks htask
                simp only [htask] at h
                exact ⟨hread, hdirectory, hsettings, htask, (Task.run_eq_ok_iff hhelp).mp h⟩
          · rintro ⟨hother, hdirectory, hsettings, htask, hresult⟩
            rw [hread] at hother
            cases hother
            have hhelp := fun hhelp => hasks (htask.trans (congrArg some hhelp))
            refine ⟨(), hdirectory, _, hsettings, ?_⟩
            simp only [htask]
            exact (Task.run_eq_ok_iff hhelp).mpr hresult

end Results

/-! ## Words on an output -/

section Lines

variable (output : Output) (generator : Generator.Compiled Float) (rule? : Option String)

/-- What comes out for words on lines of their own. -/
def ComeOut (words lines : List String) : Prop :=
  List.Forall₂ (fun word line => output.prints? (word ++ "\n") = some line) words lines

/-- The next word nests too deeply, or it cannot be written. -/
inductive StopsAt (twister : Generator.Twister) : Fault → Prop
  | nested {next : Generator.Twister}
      (hword : generator.generate twisterSource rule? twister = (.error .nestedTooDeeply, next)) :
      StopsAt twister (.expansion .nestedTooDeeply)
  | unwritten {word : String} {next : Generator.Twister}
      (hword : generator.generate twisterSource rule? twister = (.ok word, next))
      (hnone : output.prints? (word ++ "\n") = none) : StopsAt twister .output

variable {output generator rule?}

theorem ComeOut.prints?_join {words lines : List String} (h : ComeOut output words lines) :
    output.prints? (String.join (words.map (· ++ "\n"))) = some (String.join lines) := by
  induction h with
  | nil => exact Output.prints?_empty
  | cons hline _ ih =>
      rw [List.map_cons, String.join_cons, String.join_cons, Output.prints?_line_append, hline, ih]
      rfl

end Lines

section Steps

variable {output : Output} {generator : Generator.Compiled Float} {rule? : Option String}

theorem Printing.ending_of_ok {run : Printing Unit} {printed : String}
    (h : run.run.run "" = (.ok (), printed)) : run.ending = ⟨printed, none⟩ := by
  rw [Printing.ending, h]

theorem Printing.ending_of_error {run : Printing Unit} {fault : Fault} {printed : String}
    (h : run.run.run "" = (.error fault, printed)) : run.ending = ⟨printed, some fault⟩ := by
  rw [Printing.ending, h]

theorem run_echo_of_some {text written : String} (h : output.prints? text = some written)
    (printed : String) : (echo output text).run.run printed = (.ok (), printed ++ written) := by
  unfold echo
  rw [h]
  rfl

theorem run_echo_of_none {text : String} (h : output.prints? text = none) (printed : String) :
    (echo output text).run.run printed = (.error .output, printed) := by
  unfold echo
  rw [h]
  rfl

theorem stopsAt_or_comesOut {disk : Disk} {settings : Settings}
    (hload : loadGenerator disk settings = .ok generator) (twister : Generator.Twister) :
    (∃ fault, StopsAt output generator rule? twister fault) ∨
      ∃ word next line, generator.generate twisterSource rule? twister = (.ok word, next) ∧
        output.prints? (word ++ "\n") = some line := by
  cases hword : generator.generate twisterSource rule? twister with
  | mk outcome next =>
      cases outcome with
      | error error =>
          obtain rfl := generate_eq_error hload hword
          exact .inl ⟨_, .nested hword⟩
      | ok word =>
          cases hline : output.prints? (word ++ "\n") with
          | none => exact .inl ⟨_, .unwritten hword hline⟩
          | some line => exact .inr ⟨word, next, line, rfl, hline⟩

theorem StopsAt.run_printWords {twister : Generator.Twister} {fault : Fault}
    (h : StopsAt output generator rule? twister fault) (count : Nat) (printed : String) :
    (printWords output generator rule? (count + 1) twister).run.run printed =
      (.error fault, printed) := by
  cases h with
  | nested hword =>
      simp only [printWords, hword]
      rfl
  | unwritten hword hnone =>
      simp only [printWords, hword, echo, hnone]
      rfl

theorem run_printWords_succ {twister next : Generator.Twister} {word line : String}
    (hword : generator.generate twisterSource rule? twister = (.ok word, next))
    (hline : output.prints? (word ++ "\n") = some line) (count : Nat) (printed : String) :
    (printWords output generator rule? (count + 1) twister).run.run printed =
      (printWords output generator rule? count next).run.run (printed ++ line) := by
  simp only [printWords, hword, echo, hline]
  rfl

/-- If all words can be written they are. -/
theorem InTurn.run_printWords {twister last : Generator.Twister} {words : List String}
    (h : InTurn generator rule? twister words last) {written : String}
    (hwritten : output.prints? (String.join (words.map (· ++ "\n"))) = some written)
    (printed : String) :
    (printWords output generator rule? words.length twister).run.run printed =
      (.ok (), printed ++ written) := by
  induction h generalizing written printed with
  | nil =>
      obtain rfl := Option.some.inj (Output.prints?_empty.symm.trans hwritten)
      rw [String.append_empty]
      rfl
  | cons hword _ ih =>
      rw [List.map_cons, String.join_cons, Output.prints?_line_append,
        Option.bind_eq_some_iff] at hwritten
      obtain ⟨line, hline, hwritten⟩ := hwritten
      obtain ⟨others, hothers, rfl⟩ := Option.map_eq_some_iff.mp hwritten
      rw [List.length_cons, run_printWords_succ hword hline, ih hothers, String.append_assoc]

/-- Words come out until there are enough of them, or until one stops the run. -/
theorem run_printWords {disk : Disk} {settings : Settings}
    (hload : loadGenerator disk settings = .ok generator) (count : Nat)
    (twister : Generator.Twister) (printed : String) :
    ∃ words last lines, InTurn generator rule? twister words last ∧ ComeOut output words lines ∧
      (words.length = count ∧ (printWords output generator rule? count twister).run.run printed =
          (.ok (), printed ++ String.join lines) ∨
        words.length < count ∧ ∃ fault, StopsAt output generator rule? last fault ∧
          (printWords output generator rule? count twister).run.run printed =
            (.error fault, printed ++ String.join lines)) := by
  induction count generalizing twister printed with
  | zero =>
      refine ⟨[], twister, [], .nil twister, .nil, .inl ⟨rfl, ?_⟩⟩
      rw [String.join_nil, String.append_empty]
      rfl
  | succ count ih =>
      rcases stopsAt_or_comesOut hload twister with
        ⟨fault, hstops⟩ | ⟨word, next, line, hword, hline⟩
      · refine ⟨[], twister, [], .nil twister, .nil, .inr ⟨Nat.succ_pos count, fault, hstops, ?_⟩⟩
        rw [hstops.run_printWords, String.join_nil, String.append_empty]
      · obtain ⟨words, last, lines, hwords, hlines, h⟩ := ih next (printed ++ line)
        refine ⟨word :: words, last, line :: lines, .cons hword hwords, .cons hline hlines, ?_⟩
        rw [run_printWords_succ hword hline, String.join_cons, ← String.append_assoc,
          List.length_cons]
        rcases h with ⟨hlength, hrun⟩ | ⟨hlength, hstops⟩
        · exact .inl ⟨congrArg Nat.succ hlength, hrun⟩
        · exact .inr ⟨Nat.succ_lt_succ hlength, hstops⟩

end Steps

/-! ## Runs that print -/

/-- A run prints what it comes to last, or it prints the words of a generator one by one. -/
inductive Prints (output : Output)
    (Generates : Generator.Compiled Float → Option String → Int → Generator.Twister → Prop) :
    Except Fault String → Printing Unit → Prop
  | last (outcome : Except Fault String) :
      Prints output Generates outcome (liftM outcome >>= echo output)
  | words {generator : Generator.Compiled Float} {rule? : Option String} {count : Int}
      {twister : Generator.Twister} (h : Generates generator rule? count twister) :
      Prints output Generates
        (generateWords generator rule? count.toNat twister >>= fun lines =>
          .ok (String.join lines))
        (printWords output generator rule? count.toNat twister)

namespace Prints

variable {output : Output}
variable {Generates : Generator.Compiled Float → Option String → Int → Generator.Twister → Prop}

theorem echo (text : String) : Prints output Generates (.ok text) (echo output text) :=
  last (.ok text)

theorem throw (fault : Fault) : Prints output Generates (.error fault) (throw fault) :=
  last (.error fault)

/-- A step that prints nothing comes before a run. -/
theorem bind {α : Type} {first : Except Fault α} {step : α → Except Fault String}
    {print : α → Printing Unit}
    (h : ∀ a, first = .ok a → Prints output Generates (step a) (print a)) :
    Prints output Generates (first >>= step) (liftM first >>= print) := by
  cases first with
  | ok a => exact h a rfl
  | error fault => exact throw fault

end Prints

/-- The arguments ask for so many words by a rule of the generator that is loaded. -/
inductive Generates (surroundings : Surroundings) (arguments : List String) :
    Generator.Compiled Float → Option String → (count : Int) → Generator.Twister → Prop
  | intro {directory? : Option String} {rest : List String} {settings : Settings}
      {rule? : Option String} {count : Int} {seed? : Option Int}
      {generator : Generator.Compiled Float}
      (hread : Request.read? arguments = some (.task directory? .generate rest))
      (hdirectory : checkDirectory surroundings.disk directory? = .ok ())
      (hsettings : Settings.ofEnvironment surroundings.environment = .ok settings)
      (htask : Task.read? .generate rest = some (.generate rule? count seed?))
      (hload : loadGenerator surroundings.disk (settings.within directory?) = .ok generator) :
      Generates surroundings arguments generator rule? count
        (.ofSeed (seed?.getD surroundings.freshSeed))

theorem Generates.exists_load {surroundings : Surroundings} {arguments : List String}
    {generator : Generator.Compiled Float} {rule? : Option String} {count : Int}
    {twister : Generator.Twister}
    (h : Generates surroundings arguments generator rule? count twister) :
    ∃ settings, loadGenerator surroundings.disk settings = .ok generator := by
  cases h with
  | intro _ _ _ _ hload => exact ⟨_, hload⟩

theorem eq_generate_of_read? {name : TaskName} {arguments : List String} {rule? : Option String}
    {count : Int} {seed? : Option Int}
    (h : Task.read? name arguments = some (.generate rule? count seed?)) : name = .generate := by
  by_contra hname
  rcases read?_eq_some hname h with htask | ⟨_, htask⟩ | ⟨_, _, htask⟩ <;> cases htask

section Runs

variable [Unicode.Names] (output : Output) (surroundings : Surroundings) (arguments : List String)

theorem perform_prints :
    Prints output (Generates surroundings arguments) (run surroundings arguments)
      (perform output surroundings arguments) := by
  unfold run perform
  cases surroundings.completion? arguments with
  | some answer => exact .last answer
  | none =>
      dsimp only
      cases hread : Request.read? arguments with
      | none => exact .throw .usage
      | some request =>
          cases request with
          | version => exact .echo versionText
          | help => exact .echo helpText
          | task directory? name rest =>
              refine .bind fun _ hdirectory => .bind fun settings hsettings => ?_
              cases htask : Task.read? name rest with
              | none => exact .throw .usage
              | some task =>
                  cases task with
                  | generate rule? count seed? =>
                      obtain rfl := eq_generate_of_read? htask
                      have hfound := mapError_eq_ok_iff.mp hsettings
                      exact .bind fun generator hload => .words
                        ⟨hread, hdirectory, hfound, htask, hload⟩
                  | help => exact .last _
                  | translate texts => exact .last _
                  | text source includeSources => exact .last _

/-! ## Endings -/

/-- Words are printed up to one that stops the run before there are enough. -/
inductive IsCutOff : Ending → Prop
  | intro {generator : Generator.Compiled Float} {rule? : Option String} {count : Int}
      {twister last : Generator.Twister} {words lines : List String} {fault : Fault}
      (h : Generates surroundings arguments generator rule? count twister)
      (hwords : InTurn generator rule? twister words last) (hcount : words.length < count)
      (hlines : ComeOut output words lines) (hstops : StopsAt output generator rule? last fault) :
      IsCutOff ⟨String.join lines, some fault⟩

/-- A run ends in what it comes to, or it is cut off between two words. -/
inductive Ends : Ending → Prop
  | printed {result written : String} (hrun : run surroundings arguments = .ok result)
      (hwritten : output.prints? result = some written) : Ends ⟨written, none⟩
  | unwritten {result : String} (hrun : run surroundings arguments = .ok result)
      (hnone : output.prints? result = none) : Ends ⟨"", some .output⟩
  | broken {fault : Fault} (hrun : run surroundings arguments = .error fault) :
      Ends ⟨"", some fault⟩
  | cutOff {ending : Ending} (h : IsCutOff output surroundings arguments ending)
      (hnone : ∀ result, run surroundings arguments = .ok result →
        output.prints? result = none) : Ends ending

theorem perform_ends :
    Ends output surroundings arguments (perform output surroundings arguments).ending := by
  have hprints := perform_prints output surroundings arguments
  generalize hrun : run surroundings arguments = outcome at hprints
  generalize perform output surroundings arguments = print at hprints ⊢
  cases hprints with
  | last =>
      cases outcome with
      | error fault => exact .broken hrun
      | ok result =>
          change Ends output surroundings arguments (echo output result).ending
          cases hwritten : output.prints? result with
          | some written =>
              rw [Printing.ending_of_ok (run_echo_of_some hwritten ""), String.empty_append]
              exact .printed hrun hwritten
          | none =>
              rw [Printing.ending_of_error (run_echo_of_none hwritten "")]
              exact .unwritten hrun hwritten
  | words h =>
      obtain ⟨settings, hload⟩ := h.exists_load
      obtain ⟨words, last, lines, hwords, hlines, hends⟩ := run_printWords hload _ _ ""
      rw [String.empty_append] at hends
      rcases hends with ⟨hlength, hprinted⟩ | ⟨hlength, fault, hstops, hprinted⟩
      · rw [Printing.ending_of_ok hprinted]
        rw [generateWords_eq_ok_iff.mpr ⟨words, last, hwords, hlength, rfl⟩, ok_bind] at hrun
        exact .printed hrun hlines.prints?_join
      · rw [Printing.ending_of_error hprinted]
        refine .cutOff (.intro h hwords (by omega) hlines hstops) fun result hresult => ?_
        rw [hrun, bind_eq_ok_iff] at hresult
        obtain ⟨_, hgenerated, hresult⟩ := hresult
        obtain rfl := Except.ok.inj hresult
        obtain ⟨all, final, hall, hcount, rfl⟩ := generateWords_eq_ok_iff.mp hgenerated
        cases hwritten : output.prints? (String.join (all.map (· ++ "\n"))) with
        | none => rfl
        | some written =>
            have hwhole := hall.run_printWords hwritten ""
            rw [hcount, hprinted] at hwhole
            cases hwhole

variable {output surroundings arguments}

theorem ending_of_written {result written : String} (hrun : run surroundings arguments = .ok result)
    (hwritten : output.prints? result = some written) :
    (perform output surroundings arguments).ending = ⟨written, none⟩ := by
  have hends := perform_ends output surroundings arguments
  generalize (perform output surroundings arguments).ending = ending at hends
  cases hends with
  | printed hother hwrittenOther =>
      rw [hrun] at hother
      obtain rfl := Except.ok.inj hother
      rw [hwritten] at hwrittenOther
      rw [Option.some.inj hwrittenOther]
  | unwritten hother hnone =>
      rw [hrun] at hother
      obtain rfl := Except.ok.inj hother
      simp [hwritten] at hnone
  | broken hother => simp [hrun] at hother
  | cutOff _ hnone => simp [hnone result hrun] at hwritten

end Runs

/-! ## Commands -/

/-- The ending is that of a command that is asked for a result.  It does not come of half of a
surrogate pair in the configuration, which is no part of a text here. -/
structure RunsCommand [Unicode.Names] (output : Output) (surroundings : Surroundings)
    (arguments : List String) (ending : Ending) : Prop where
  completion : surroundings.completion? arguments = none
  asks : AsksForResult arguments
  ending_eq : (perform output surroundings arguments).ending = ending
  whole : ending.fault? ≠ some (.morphology .halfSurrogate)

theorem Ending.exitCode_eq_zero_iff {ending : Ending} :
    ending.exitCode = 0 ↔ ending.fault? = none := by
  unfold Ending.exitCode
  cases ending.fault? with
  | none => simp
  | some fault => cases fault <;> simp [Fault.exitCode]

theorem IsCutOff.fault?_ne_none [Unicode.Names] {output : Output} {surroundings : Surroundings}
    {arguments : List String} {ending : Ending}
    (h : IsCutOff output surroundings arguments ending) : ending.fault? ≠ none := by
  cases h
  simp

/-- A command goes well if and only if there is a result that can be written, and then it prints
what comes out for the result.  On an output that has all its characters this is what is left of it
without terminal sequences, and to a terminal the whole of it.  A command that goes wrong prints
nothing, unless it is cut off between two words. -/
theorem perform_prints_or_isCutOff [Unicode.Names] {output : Output} {surroundings : Surroundings}
    {arguments : List String} {ending : Ending}
    (h : RunsCommand output surroundings arguments ending) :
    (ending.exitCode = 0 ↔ ∃ result written, Answers surroundings arguments result ∧
      output.prints? result = some written) ∧
    (∀ result other, Answers surroundings arguments result → Answers surroundings arguments other →
      result = other) ∧
    (∀ result, Answers surroundings arguments result → ending.exitCode = 0 →
      output.prints? result = some ending.printed ∧
      ((∀ c ∈ result.toList, output.written? c = some [c]) →
        (output.terminal = false → Strips result.toList ending.printed.toList) ∧
        (ending.printed = result ↔ output.terminal = true ∨
          ∀ sequence, IsSequence sequence → ¬ sequence <:+: result.toList))) ∧
    (ending.exitCode ≠ 0 →
      ending.printed = "" ∨ IsCutOff output surroundings arguments ending) := by
  have hends := perform_ends output surroundings arguments
  rw [h.ending_eq] at hends
  simp only [← run_eq_ok_iff_answers h.completion h.asks, Ending.exitCode_eq_zero_iff]
  refine ⟨⟨?result, ?fault⟩, ?unique, ?printed, ?wrong⟩
  case result =>
    intro hfault
    cases hends with
    | printed hrun hwritten => exact ⟨_, _, hrun, hwritten⟩
    | cutOff hcut => exact absurd hfault hcut.fault?_ne_none
    | _ => cases hfault
  case fault =>
    rintro ⟨result, written, hresult, hwritten⟩
    rw [← h.ending_eq, ending_of_written hresult hwritten]
  case unique =>
    intro result other hresult hother
    exact Except.ok.inj (hresult.symm.trans hother)
  case printed =>
    intro result hresult hfault
    cases hends with
    | @printed other written hrun hwritten =>
        rw [hresult] at hrun
        obtain rfl := Except.ok.inj hrun
        refine ⟨hwritten, fun hchars => ?_⟩
        have hshown := Output.prints?_eq_shown hchars
        rw [hwritten] at hshown
        obtain rfl := Option.some.inj hshown
        refine ⟨fun hterminal => ?_, shown_eq_self_iff⟩
        rw [hterminal]
        exact strips_shown result
    | cutOff hcut => exact absurd hfault hcut.fault?_ne_none
    | _ => cases hfault
  case wrong =>
    intro hfault
    cases hends with
    | printed => exact absurd rfl hfault
    | unwritten => exact .inl rfl
    | broken => exact .inl rfl
    | cutOff hcut => exact .inr hcut

section Fixed

attribute [local instance] Unicode.Names.none

/-- A project with one lexeme, without rules. -/
def bearFiles : List (String × ByteArray) :=
  [("lexicon.csv", "id,translation,generator\nbear,arth,\n".toUTF8),
    ("morphology.yaml", "inflections: \x7b\x7d\n".toUTF8)]

def bearSurroundings (depth : String) : Surroundings where
  disk := (Project.FileTree.ofList bearFiles).disk
  environment := .ofList [(Settings.depthVariable, depth)]
  input := .empty
  freshSeed := 0
  complete _ _ := none

theorem asksForResult_bear : AsksForResult ["tr", "bear"] := by
  have hread : Request.read? ["tr", "bear"] = some (.task none .translate ["bear"]) := by
    decide +kernel
  rw [AsksForResult, hread]
  decide +kernel

theorem run_bear : run (bearSurroundings "2") ["tr", "bear"] = .ok "arth\n" := by
  have hresult : (run (bearSurroundings "2") ["tr", "bear"]).toOption = some "arth\n" := by
    decide +kernel
  cases hrun : run (bearSurroundings "2") ["tr", "bear"] with
  | error fault => simp [hrun, Except.toOption] at hresult
  | ok result => simpa [hrun, Except.toOption] using hresult

theorem runsCommand_bear :
    RunsCommand (.plain true) (bearSurroundings "2") ["tr", "bear"] ⟨"arth\n", none⟩ := by
  have hwritten : (Output.plain true).prints? "arth\n" = some "arth\n" := by decide
  exact ⟨by decide +kernel, asksForResult_bear, ending_of_written run_bear hwritten, by simp⟩

theorem perform_prints_or_isCutOff_bear :
    ∃ ending, RunsCommand (.plain true) (bearSurroundings "2") ["tr", "bear"] ending ∧
      ending.exitCode = 0 ∧ ending.printed = "arth\n" ∧
      Answers (bearSurroundings "2") ["tr", "bear"] "arth\n" := by
  obtain ⟨hgood, -, hresult, -⟩ := perform_prints_or_isCutOff runsCommand_bear
  obtain ⟨result, written, hanswers, -⟩ := hgood.mp rfl
  obtain ⟨-, hchars⟩ := hresult result hanswers rfl
  obtain ⟨-, hwhole⟩ := hchars fun c _ => rfl
  rw [← hwhole.mpr (.inl rfl)] at hanswers
  exact ⟨_, runsCommand_bear, rfl, rfl, hanswers⟩

/-- A text with a terminal sequence. -/
def boldSurroundings : Surroundings :=
  { bearSurroundings "2" with input := "\x1b[1mx".toUTF8 }

/-- What is printed elsewhere than to a terminal need not be the whole result. -/
theorem not_perform_prints_result :
    ¬ ∀ (output : Output) (surroundings : Surroundings) (arguments : List String)
        (ending : Ending), RunsCommand output surroundings arguments ending →
      ending.fault? ≠ some (.expansion .nestedTooDeeply) →
      (ending.exitCode ≠ 0 → ending.printed = "") ∧
      (ending.exitCode = 0 → Answers surroundings arguments ending.printed) := by
  intro h
  have hread : Request.read? ["text"] = some (.task none .text []) := by decide +kernel
  have hasks : AsksForResult ["text"] := by
    rw [AsksForResult, hread]
    decide +kernel
  have hprinted : (perform (.plain false) boldSurroundings ["text"]).ending.printed = "x" := by
    decide +kernel
  have hexit : (perform (.plain false) boldSurroundings ["text"]).ending.exitCode = 0 := by
    decide +kernel
  have hcompletion : boldSurroundings.completion? ["text"] = none := by decide +kernel
  have hresult : (run boldSurroundings ["text"]).toOption = some "\x1b[1mx" := by decide +kernel
  have hfault := Ending.exitCode_eq_zero_iff.mp hexit
  -- No other text answers than the one that the run comes to, which has the sequence.
  have hanswers := (h (.plain false) boldSurroundings ["text"] _
    ⟨hcompletion, hasks, rfl, by simp [hfault]⟩ (by simp [hfault])).2 hexit
  rw [← run_eq_ok_iff_answers hcompletion hasks] at hanswers
  simp [hanswers, hprinted, Except.toOption] at hresult

end Fixed

end Interlinear.Command
