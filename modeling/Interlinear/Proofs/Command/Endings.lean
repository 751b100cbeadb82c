import Interlinear.Command.Run
import Interlinear.Proofs.Document.Rewriting
import Interlinear.Proofs.Lexicon.Entries
import Interlinear.Proofs.Morphology.Reports

/-!
# How runs end

A run that translates prints a translation, reports a fault, or is refused as a wrong use; or it
breaks off without a report.  A row of steps breaks off when one of them does after all before it
went well, so what breaks a run off can be listed stage by stage: a path that cannot be asked for, a
text that is not in UTF-8, a configuration whose reading breaks off, a depth limit that is not
positive, and a gloss that fails to translate, which a template of the morphology is the cause of.
Everything else is reported or refused.
-/

namespace Interlinear

open Outcome

namespace Document

/-! ## Rendering what was read -/

/-- Rendering goes well if all words translate, and otherwise ends in a failure of a translation.
-/
theorem Spells.render_ends {ε : Type} {translate : Gloss → Except ε String} {sources : Bool}
    {parts : List Part} {segments : List Segment} (h : Spells parts segments)
    (htext : ∀ word ∈ words parts, word ≠ "" ∧ ∀ c ∈ word.toList, isSeparator c = false) :
    ((∃ text, render translate sources segments = .ok text) ∧
        ∀ word ∈ words parts, ∀ gloss e, Glosses word gloss → translate gloss ≠ .error e) ∨
      ∃ word ∈ words parts, ∃ gloss e, Glosses word gloss ∧ translate gloss = .error e ∧
        render translate sources segments = .error (.translation e) := by
  induction h with
  | nil => exact .inl ⟨⟨"", rfl⟩, by simp [words]⟩
  | blank _ ih =>
      rw [render, renderSegment, ok_bind]
      rcases ih htext with ⟨⟨text, hothers⟩, hall⟩ | ⟨word, hword, gloss, e, hgloss, he, hothers⟩
      · exact .inl ⟨⟨_, by rw [hothers, ok_bind]⟩, hall⟩
      · exact .inr ⟨word, hword, gloss, e, hgloss, he, by rw [hothers, error_bind]⟩
  | kept _ _ ih =>
      rw [render, renderSegment, ok_bind]
      rcases ih htext with ⟨⟨text, hothers⟩, hall⟩ | ⟨word, hword, gloss, e, hgloss, he, hothers⟩
      · exact .inl ⟨⟨_, by rw [hothers, ok_bind]⟩, hall⟩
      · exact .inr ⟨word, hword, gloss, e, hgloss, he, by rw [hothers, error_bind]⟩
  | @word first gloss parts segments hgloss _ ih =>
      obtain ⟨hne, hchars⟩ := htext first (List.mem_cons_self ..)
      rw [render]
      cases hfirst : translate gloss with
      | error e =>
          refine .inr ⟨first, List.mem_cons_self .., gloss, e, hgloss, hfirst, ?_⟩
          rw [renderSegment_fails hfirst, error_bind]
      | ok translation =>
          rw [renderSegment_glossed hne hchars hgloss hfirst, ok_bind]
          rcases ih fun word hword => htext word (List.mem_cons_of_mem _ hword) with
            ⟨⟨text, hothers⟩, hall⟩ | ⟨word, hword, other, e, hother, he, hothers⟩
          · refine .inl ⟨⟨_, by rw [hothers, ok_bind]⟩, ?_⟩
            intro word hword other e hother
            rcases List.mem_cons.mp hword with rfl | hword
            · rw [Glosses, hgloss] at hother
              obtain rfl := Except.ok.inj hother
              simp [hfirst]
            · exact hall word hword other e hother
          · exact .inr ⟨word, List.mem_cons_of_mem _ hword, other, e, hother, he,
              by rw [hothers, error_bind]⟩

end Document

namespace Command

open Document (Glosses LaidOut words)
open Project (Disk Path Settings decodeText?)

/-! ## Steps that break off -/

/-- The fault has the exit code of a report, and no report. -/
def Fault.BreaksOff (fault : Fault) : Prop :=
  fault.exitCode = 1 ∧ fault.report? = none

theorem Fault.ends (fault : Fault) :
    fault.exitCode = 2 ∨ (fault.exitCode = 1 ∧ ∃ message, fault.report? = some message) ∨
      fault.BreaksOff := by
  cases hreport : fault.report? with
  | some message =>
      refine .inr (.inl ⟨?_, message, rfl⟩)
      cases fault <;> simp [exitCode, report?] at hreport ⊢
  | none =>
      cases fault <;> simp [exitCode, BreaksOff, hreport]

variable {α β ε : Type}

def Breaks (outcome : Except Fault α) : Prop :=
  ∃ fault, outcome = .error fault ∧ fault.BreaksOff

@[simp]
theorem not_breaks_ok (a : α) : ¬ Breaks (.ok a : Except Fault α) := by
  simp [Breaks]

@[simp]
theorem breaks_error (fault : Fault) :
    Breaks (.error fault : Except Fault α) ↔ fault.BreaksOff := by
  simp [Breaks]

theorem breaks_bind_iff {first : Except Fault α} {step : α → Except Fault β} :
    Breaks (first >>= step) ↔ Breaks first ∨ ∃ a, first = .ok a ∧ Breaks (step a) := by
  cases first with
  | error fault => simp
  | ok a => simp

theorem breaks_mapError_iff {outcome : Except ε α} {faultOf : ε → Fault} :
    Breaks (outcome.mapError faultOf) ↔ ∃ e, outcome = .error e ∧ (faultOf e).BreaksOff := by
  cases outcome with
  | error e => simp
  | ok a => simp

theorem Fault.breaksOff_morphology_iff (error : Morphology.Config.Error) :
    (Fault.morphology error).BreaksOff ↔ ¬ error.IsReported := by
  cases error <;>
    simp [BreaksOff, exitCode, report?, configReport?, Morphology.Config.Error.IsReported]

/-! ## Loading a translator -/

inductive FileBreaks (disk : Disk) (path : Path) : Prop
  | nullInPath (hpath : disk.read path.text = .error .nullInPath) : FileBreaks disk path
  | encoding {bytes : ByteArray} (hbytes : disk.read path.text = .ok bytes)
      (hdecode : decodeText? bytes = none) : FileBreaks disk path

theorem breaks_decode_iff (bytes : ByteArray) :
    Breaks (decode bytes) ↔ decodeText? bytes = none := by
  rw [decode]
  cases decodeText? bytes <;> simp [Fault.BreaksOff, Fault.exitCode, Fault.report?]

theorem decode_eq_ok_iff {bytes : ByteArray} {text : String} :
    decode bytes = .ok text ↔ decodeText? bytes = some text := by
  rw [decode]
  cases decodeText? bytes <;> simp

theorem breaks_readFile_iff (disk : Disk) (path : Path) :
    Breaks (readFile disk path) ↔ FileBreaks disk path := by
  rw [readFile]
  cases hbytes : disk.read path.text with
  | ok bytes =>
      rw [breaks_decode_iff]
      constructor
      · exact .encoding hbytes
      · rintro (hpath | ⟨hother, hdecode⟩)
        · simp [hbytes] at hpath
        · rw [hbytes] at hother
          obtain rfl := Except.ok.inj hother
          exact hdecode
  | error fault =>
      rw [breaks_error]
      constructor
      · intro hbreaks
        cases fault with
        | refused number cause => simp [Fault.BreaksOff, Fault.report?] at hbreaks
        | nullInPath => exact .nullInPath hbytes
      · rintro (hpath | ⟨hother, -⟩)
        · rw [hbytes] at hpath
          obtain rfl := Except.error.inj hpath
          simp [Fault.BreaksOff, Fault.exitCode, Fault.report?]
        · simp [hbytes] at hother

theorem breaks_lexicon (table : String) :
    ¬ Breaks ((Lexicon.parse table).mapError Fault.lexicon) := by
  rw [breaks_mapError_iff]
  simp [Fault.BreaksOff, Fault.report?]

theorem breaks_make_iff (index : Index) (morphology : Morphology) (limit : Int) :
    Breaks ((Translator.make index morphology limit).mapError Fault.depth) ↔ limit < 1 := by
  rw [breaks_mapError_iff, Translator.make]
  by_cases hlimit : 0 < limit
  · rw [dif_pos hlimit]
    simp
    omega
  · rw [dif_neg hlimit]
    simp [Fault.BreaksOff, Fault.exitCode, Fault.report?]
    omega

section Loading

variable [Unicode.Names]

/-- Loading the translator of a project breaks off at a file, at what the configuration holds, or at
the depth limit, when all before it went well. -/
inductive LoadBreaks (disk : Disk) (settings : Settings) : Prop
  | lexicon (h : FileBreaks disk settings.lexicon) : LoadBreaks disk settings
  | morphology {table : String} {lexicon : Lexicon}
      (htable : readFile disk settings.lexicon = .ok table)
      (hlexicon : Lexicon.parse table = .ok lexicon) (h : FileBreaks disk settings.morphology) :
      LoadBreaks disk settings
  | configuration {table raw : String} {lexicon : Lexicon}
      (htable : readFile disk settings.lexicon = .ok table)
      (hlexicon : Lexicon.parse table = .ok lexicon)
      (hraw : readFile disk settings.morphology = .ok raw) (h : Morphology.BreaksOff raw) :
      LoadBreaks disk settings
  | depth {table raw : String} {lexicon : Lexicon} {morphology : Morphology}
      (htable : readFile disk settings.lexicon = .ok table)
      (hlexicon : Lexicon.parse table = .ok lexicon)
      (hraw : readFile disk settings.morphology = .ok raw)
      (hmorphology : Morphology.parse raw = .ok morphology) (h : settings.maxDepth < 1) :
      LoadBreaks disk settings

theorem breaks_morphology_iff (raw : String) :
    Breaks ((Morphology.parse raw).mapError Fault.morphology) ↔ Morphology.BreaksOff raw := by
  rw [breaks_mapError_iff]
  simp only [Fault.breaksOff_morphology_iff]
  constructor
  · rintro ⟨error, hparse, hreported⟩
    exact Morphology.breaksOff_of_parse hparse hreported
  · exact Morphology.BreaksOff.not_reported

theorem breaks_loadTranslator_iff (disk : Disk) (settings : Settings) :
    Breaks (loadTranslator disk settings) ↔ LoadBreaks disk settings := by
  simp only [loadTranslator, breaks_bind_iff, breaks_readFile_iff, breaks_lexicon,
    breaks_morphology_iff, breaks_make_iff, mapError_eq_ok_iff, false_or]
  constructor
  · rintro (h | ⟨table, htable, lexicon, hlexicon, h | ⟨raw, hraw, h | ⟨morphology, hparse, h⟩⟩⟩)
    · exact .lexicon h
    · exact .morphology htable hlexicon h
    · exact .configuration htable hlexicon hraw h
    · exact .depth htable hlexicon hraw hparse h
  · intro h
    cases h with
    | lexicon h => exact .inl h
    | morphology htable hlexicon h => exact .inr ⟨_, htable, _, hlexicon, .inl h⟩
    | configuration htable hlexicon hraw h =>
        exact .inr ⟨_, htable, _, hlexicon, .inr ⟨_, hraw, .inl h⟩⟩
    | depth htable hlexicon hraw hmorphology h =>
        exact .inr ⟨_, htable, _, hlexicon, .inr ⟨_, hraw, .inr ⟨_, hmorphology, h⟩⟩⟩

theorem loadTranslator_eq_ok {disk : Disk} {settings : Settings} {translator : Translator}
    (h : loadTranslator disk settings = .ok translator) :
    ∃ lexemes, translator.index = .build lexemes ∧
      ∀ lexeme ∈ lexemes, lexeme.translation.WellTyped := by
  simp only [loadTranslator, bind_eq_ok_iff, mapError_eq_ok_iff] at h
  obtain ⟨table, -, lexicon, hlexicon, raw, -, morphology, -, hmake⟩ := h
  rw [Translator.make] at hmake
  split at hmake
  · obtain rfl := Except.ok.inj hmake
    exact ⟨lexicon.lexemes, rfl, Lexicon.wellTyped_of_parse hlexicon⟩
  · cases hmake

end Loading

/-! ## Translating -/

/-- The text is a gloss whose translation fails, which a template of the morphology is the cause of.
-/
def FailsOn (translator : Translator) (text : String) : Prop :=
  ∃ gloss error, Glosses text gloss ∧ translator.translate gloss = .error (.template error) ∧
    translator.morphology.Raises error

theorem failsOn_iff [Unicode.Names] {disk : Disk} {settings : Settings} {translator : Translator}
    (hload : loadTranslator disk settings = .ok translator) (text : String) :
    FailsOn translator text ↔
      ∃ gloss e, Glosses text gloss ∧ translator.translate gloss = .error e := by
  constructor
  · rintro ⟨gloss, error, hgloss, htranslate, -⟩
    exact ⟨gloss, _, hgloss, htranslate⟩
  · rintro ⟨gloss, e, hgloss, htranslate⟩
    obtain ⟨lexemes, hindex, hlexemes⟩ := loadTranslator_eq_ok hload
    obtain ⟨error, rfl, hraises⟩ :=
      Translator.translate_eq_error hindex hlexemes hgloss htranslate
    exact ⟨gloss, error, hgloss, htranslate, hraises⟩

theorem readGlosses_eq_ok_iff {texts : List String} {glosses : List Gloss} :
    readGlosses texts = .ok glosses ↔ List.Forall₂ Glosses texts glosses := by
  induction texts generalizing glosses with
  | nil => cases glosses <;> simp [readGlosses]
  | cons text texts ih =>
      simp only [readGlosses, bind_eq_ok_iff, mapError_eq_ok_iff, ih, List.forall₂_cons_left_iff]
      constructor
      · rintro ⟨gloss, hgloss, others, hothers, hok⟩
        exact ⟨gloss, others, hgloss, hothers, (Except.ok.inj hok).symm⟩
      · rintro ⟨gloss, others, hgloss, hothers, rfl⟩
        exact ⟨gloss, hgloss, others, hothers, rfl⟩

theorem exists_readGlosses_iff {texts : List String} :
    (∃ glosses, readGlosses texts = .ok glosses) ↔
      ∀ text ∈ texts, ∃ gloss, Glosses text gloss := by
  induction texts with
  | nil => simp [readGlosses]
  | cons text texts ih =>
      rw [List.forall_mem_cons, ← ih]
      simp only [readGlosses, bind_eq_ok_iff, mapError_eq_ok_iff]
      constructor
      · rintro ⟨_, gloss, hgloss, others, hothers, -⟩
        exact ⟨⟨gloss, hgloss⟩, ⟨others, hothers⟩⟩
      · rintro ⟨⟨gloss, hgloss⟩, ⟨others, hothers⟩⟩
        exact ⟨_, gloss, hgloss, others, hothers, rfl⟩

theorem exists_mem_readGlosses_iff {texts : List String} {glosses : List Gloss}
    (h : readGlosses texts = .ok glosses) (P : Gloss → Prop) :
    (∃ gloss ∈ glosses, P gloss) ↔ ∃ text ∈ texts, ∃ gloss, Glosses text gloss ∧ P gloss := by
  rw [readGlosses_eq_ok_iff] at h
  induction h with
  | nil => simp
  | @cons text gloss texts glosses hgloss _ ih =>
      have hhead : (∃ other, Glosses text other ∧ P other) ↔ P gloss := by
        constructor
        · rintro ⟨other, hother, hP⟩
          rw [Glosses, hgloss] at hother
          obtain rfl := Except.ok.inj hother
          exact hP
        · exact fun hP => ⟨gloss, hgloss, hP⟩
      simp only [List.mem_cons, exists_eq_or_imp, ih, hhead]

theorem breaks_readGlosses (texts : List String) : ¬ Breaks (readGlosses texts) := by
  induction texts with
  | nil => exact not_breaks_ok []
  | cons text texts ih =>
      simp [readGlosses, breaks_bind_iff, breaks_mapError_iff, ih, Fault.BreaksOff, Fault.report?]

theorem translateAll_eq_ok_iff {translator : Translator} {glosses : List Gloss}
    {translations : List String} :
    translateAll translator glosses = .ok translations ↔
      List.Forall₂ (fun gloss text => translator.translate gloss = .ok text)
        glosses translations := by
  induction glosses generalizing translations with
  | nil => cases translations <;> simp [translateAll]
  | cons gloss glosses ih =>
      simp only [translateAll, bind_eq_ok_iff, mapError_eq_ok_iff, ih,
        List.forall₂_cons_left_iff]
      constructor
      · rintro ⟨text, htext, others, hothers, hok⟩
        exact ⟨text, others, htext, hothers, (Except.ok.inj hok).symm⟩
      · rintro ⟨text, others, htext, hothers, rfl⟩
        exact ⟨text, htext, others, hothers, rfl⟩

theorem breaks_translateAll_iff (translator : Translator) (glosses : List Gloss) :
    Breaks (translateAll translator glosses) ↔
      ∃ gloss ∈ glosses, ∃ e, translator.translate gloss = .error e := by
  induction glosses with
  | nil => simp [translateAll]
  | cons gloss glosses ih =>
      rw [translateAll, breaks_bind_iff, breaks_mapError_iff]
      simp only [breaks_bind_iff, ih, not_breaks_ok, and_false, exists_false, or_false,
        mapError_eq_ok_iff, List.mem_cons, exists_eq_or_imp]
      cases translator.translate gloss <;>
        simp [Fault.BreaksOff, Fault.exitCode, Fault.report?]

theorem breaks_document_iff {translator : Translator} {sources : Bool} {raw : String}
    {parts : List Document.Part} (hlaid : LaidOut false raw.toList parts) :
    Breaks ((Document.translate translator.translate sources raw).mapError documentFault) ↔
      (∀ word ∈ words parts, ∃ gloss, Glosses word gloss) ∧
        ∃ word ∈ words parts, ∃ gloss e,
          Glosses word gloss ∧ translator.translate gloss = .error e := by
  rw [breaks_mapError_iff, Document.translate]
  have hreads := hlaid.parse_readsAs
  generalize Document.parse raw = outcome at hreads ⊢
  cases hreads with
  | fault hfault =>
      obtain ⟨word, hword, hnone⟩ := hfault.not_glosses
      constructor
      · rintro ⟨e, he, hbreaks⟩
        rw [mapError_error, error_bind, Except.error.injEq] at he
        subst he
        simp [documentFault, Fault.BreaksOff, Fault.report?] at hbreaks
      · rintro ⟨hall, -⟩
        obtain ⟨gloss, hgloss⟩ := hall word hword
        exact absurd hgloss (hnone gloss)
  | segments hspells =>
      rw [mapError_ok, ok_bind]
      have hwords := hspells.exists_glosses
      rcases @Document.Spells.render_ends _ translator.translate sources _ _ hspells
        fun word hword => hlaid.isWordText hword with
        ⟨⟨text, hrender⟩, hnone⟩ | ⟨word, hword, gloss, e, hgloss, he, hrender⟩
      · rw [hrender, mapError_ok]
        constructor
        · rintro ⟨e, he, -⟩
          cases he
        · rintro ⟨-, word, hword, gloss, e, hgloss, he⟩
          exact absurd he (hnone word hword gloss e hgloss)
      · rw [hrender, mapError_error]
        constructor
        · intro _
          exact ⟨hwords, word, hword, gloss, e, hgloss, he⟩
        · intro _
          exact ⟨_, rfl, by simp [documentFault, Fault.BreaksOff, Fault.exitCode, Fault.report?]⟩

/-! ## Tasks and runs -/

theorem breaks_openSource_iff (surroundings : Surroundings) (source : TextSource) :
    Breaks (openSource surroundings source) ↔
      ∃ path, source = .file path ∧ surroundings.disk.read path = .error .nullInPath := by
  cases source with
  | input => simp [openSource]
  | file path =>
      rw [openSource]
      cases hbytes : surroundings.disk.read path with
      | ok bytes => simp [hbytes]
      | error fault =>
          cases fault <;> simp [hbytes, Fault.BreaksOff, Fault.exitCode, Fault.report?]

theorem breaks_checkDirectory_iff (disk : Disk) (directory? : Option String) :
    Breaks (checkDirectory disk directory?) ↔
      ∃ path, directory? = some path ∧ disk.entry path = .error .nullInPath := by
  cases directory? with
  | none => simp [checkDirectory]
  | some path =>
      rw [checkDirectory]
      cases hentry : disk.entry path with
      | ok entry =>
          dsimp only
          split <;> simp [hentry, Fault.BreaksOff, Fault.exitCode]
      | error fault =>
          cases fault <;> simp [hentry, Fault.BreaksOff, Fault.exitCode, Fault.report?]

/-- The arguments ask for neither the version nor help, of the program or of a task. -/
def AsksForResult (arguments : List String) : Prop :=
  match Request.read? arguments with
  | none => True
  | some (.task _ name rest) => Task.read? name rest ≠ some .help
  | some _ => False

theorem read?_eq_some {name : TaskName} {arguments : List String} {task : Task}
    (hname : name ≠ .generate) (h : Task.read? name arguments = some task) :
    task = .help ∨ (∃ texts, task = .translate texts) ∨
      ∃ source includeSources, task = .text source includeSources := by
  cases name with
  | generate => exact absurd rfl hname
  | translate =>
      simp only [Task.read?, Task.readTranslate?, Option.bind_eq_bind,
        Option.bind_eq_some_iff] at h
      obtain ⟨read, -, h⟩ := h
      split at h
      · exact .inl (Option.some.inj h).symm
      · exact .inr (.inl ⟨_, (Option.some.inj h).symm⟩)
  | text =>
      simp only [Task.read?, Task.readText?, Option.bind_eq_bind,
        Option.bind_eq_some_iff] at h
      obtain ⟨read, -, h⟩ := h
      split at h
      · exact .inl (Option.some.inj h).symm
      · split at h
        · exact .inr (.inr ⟨_, _, (Option.some.inj h).symm⟩)
        · exact .inr (.inr ⟨_, _, (Option.some.inj h).symm⟩)
        · cases h

variable [Unicode.Names]

inductive TaskBreaks (surroundings : Surroundings) (settings : Settings) : Task → Prop
  | loadGlosses {texts : List String} (hglosses : ∀ text ∈ texts, ∃ gloss, Glosses text gloss)
      (h : LoadBreaks surroundings.disk settings) :
      TaskBreaks surroundings settings (.translate texts)
  | gloss {texts : List String} (hglosses : ∀ text ∈ texts, ∃ gloss, Glosses text gloss)
      {translator : Translator} (hload : loadTranslator surroundings.disk settings = .ok translator)
      {text : String} (htext : text ∈ texts) (h : FailsOn translator text) :
      TaskBreaks surroundings settings (.translate texts)
  | source {path : String} {includeSources : Bool}
      (h : surroundings.disk.read path = .error .nullInPath) :
      TaskBreaks surroundings settings (.text (.file path) includeSources)
  | loadText {source : TextSource} {includeSources : Bool} {bytes : ByteArray}
      (hbytes : openSource surroundings source = .ok bytes)
      (h : LoadBreaks surroundings.disk settings) :
      TaskBreaks surroundings settings (.text source includeSources)
  | encoding {source : TextSource} {includeSources : Bool} {bytes : ByteArray}
      {translator : Translator} (hbytes : openSource surroundings source = .ok bytes)
      (hload : loadTranslator surroundings.disk settings = .ok translator)
      (h : decodeText? bytes = none) :
      TaskBreaks surroundings settings (.text source includeSources)
  | word {source : TextSource} {includeSources : Bool} {bytes : ByteArray}
      {translator : Translator} {raw : String} {parts : List Document.Part}
      (hbytes : openSource surroundings source = .ok bytes)
      (hload : loadTranslator surroundings.disk settings = .ok translator)
      (hraw : decodeText? bytes = some raw) (hlaid : LaidOut false raw.toList parts)
      (hwords : ∀ word ∈ words parts, ∃ gloss, Glosses word gloss) {word : String}
      (hword : word ∈ words parts) (h : FailsOn translator word) :
      TaskBreaks surroundings settings (.text source includeSources)

theorem breaks_translate_iff (surroundings : Surroundings) (settings : Settings)
    (texts : List String) :
    Breaks (Task.run surroundings settings (.translate texts)) ↔
      TaskBreaks surroundings settings (.translate texts) := by
  simp only [Task.run, breaks_bind_iff, breaks_readGlosses, false_or, breaks_loadTranslator_iff,
    breaks_translateAll_iff, not_breaks_ok, and_false, exists_false, or_false]
  constructor
  · rintro ⟨glosses, hread, h⟩
    have hglosses := exists_readGlosses_iff.mp ⟨glosses, hread⟩
    rcases h with h | ⟨translator, hload, h⟩
    · exact .loadGlosses hglosses h
    · obtain ⟨text, htext, gloss, hgloss, e, he⟩ := (exists_mem_readGlosses_iff hread _).mp h
      exact .gloss hglosses hload htext ((failsOn_iff hload text).mpr ⟨gloss, e, hgloss, he⟩)
  · intro h
    cases h with
    | loadGlosses hglosses h =>
        obtain ⟨glosses, hread⟩ := exists_readGlosses_iff.mpr hglosses
        exact ⟨glosses, hread, .inl h⟩
    | @gloss _ hglosses translator hload text htext h =>
        obtain ⟨glosses, hread⟩ := exists_readGlosses_iff.mpr hglosses
        obtain ⟨gloss, e, hgloss, he⟩ := (failsOn_iff hload text).mp h
        refine ⟨glosses, hread, .inr ⟨translator, hload, ?_⟩⟩
        exact (exists_mem_readGlosses_iff hread _).mpr ⟨text, htext, gloss, hgloss, e, he⟩

theorem breaks_text_iff (surroundings : Surroundings) (settings : Settings) (source : TextSource)
    (includeSources : Bool) :
    Breaks (Task.run surroundings settings (.text source includeSources)) ↔
      TaskBreaks surroundings settings (.text source includeSources) := by
  simp only [Task.run, breaks_bind_iff, breaks_openSource_iff, breaks_loadTranslator_iff,
    breaks_decode_iff, decode_eq_ok_iff]
  constructor
  · rintro (⟨path, rfl, h⟩ |
      ⟨bytes, hbytes, h | ⟨translator, hload, h | ⟨raw, hraw, h⟩⟩⟩)
    · exact .source h
    · exact .loadText hbytes h
    · exact .encoding hbytes hload h
    · obtain ⟨parts, hlaid⟩ := Document.exists_laidOut false raw.toList
      obtain ⟨hwords, word, hword, hfails⟩ := (breaks_document_iff hlaid).mp h
      exact .word hbytes hload hraw hlaid hwords hword ((failsOn_iff hload word).mpr hfails)
  · intro h
    cases h with
    | source h => exact .inl ⟨_, rfl, h⟩
    | loadText hbytes h => exact .inr ⟨_, hbytes, .inl h⟩
    | encoding hbytes hload h => exact .inr ⟨_, hbytes, .inr ⟨_, hload, .inl h⟩⟩
    | @word _ _ bytes translator raw parts hbytes hload hraw hlaid hwords word hword h =>
        have hfails := (failsOn_iff hload word).mp h
        exact .inr ⟨bytes, hbytes, .inr ⟨translator, hload, .inr ⟨raw, hraw,
          (breaks_document_iff hlaid).mpr ⟨hwords, word, hword, hfails⟩⟩⟩⟩

/-- A run of a task breaks off at the path of its directory, or in the task. -/
inductive RunBreaks (surroundings : Surroundings) (arguments : List String) : Prop
  | directory {path : String} {name : TaskName} {rest : List String}
      (hread : Request.read? arguments = some (.task (some path) name rest))
      (h : surroundings.disk.entry path = .error .nullInPath) : RunBreaks surroundings arguments
  | task {directory? : Option String} {name : TaskName} {rest : List String} {settings : Settings}
      {task : Task} (hread : Request.read? arguments = some (.task directory? name rest))
      (hdirectory : checkDirectory surroundings.disk directory? = .ok ())
      (hsettings : Settings.ofEnvironment surroundings.environment = .ok settings)
      (htask : Task.read? name rest = some task)
      (h : TaskBreaks surroundings (settings.within directory?) task) :
      RunBreaks surroundings arguments

/-- The output is the translation that the task asks for. -/
inductive IsTranslation (surroundings : Surroundings) (settings : Settings) :
    Task → (output : String) → Prop
  | translate {texts : List String} {glosses : List Gloss} {translations : List String}
      {translator : Translator} (hglosses : List.Forall₂ Glosses texts glosses)
      (hload : loadTranslator surroundings.disk settings = .ok translator)
      (htranslate : List.Forall₂ (fun gloss text => translator.translate gloss = .ok text)
        glosses translations) :
      IsTranslation surroundings settings (.translate texts)
        (" ".intercalate translations ++ "\n")
  | text {source : TextSource} {includeSources : Bool} {bytes : ByteArray}
      {translator : Translator} {raw output : String}
      (hbytes : openSource surroundings source = .ok bytes)
      (hload : loadTranslator surroundings.disk settings = .ok translator)
      (hraw : decodeText? bytes = some raw)
      (htranslate : Document.translate translator.translate
        (settings.includeSources || includeSources) raw = .ok output) :
      IsTranslation surroundings settings (.text source includeSources) output

section Runs

variable {surroundings : Surroundings} {arguments : List String}

theorem breaks_run_iff (hcompletion : surroundings.completion? arguments = none)
    (hasks : AsksForResult arguments)
    (htranslates : ∀ directory? rest,
      Request.read? arguments ≠ some (.task directory? .generate rest)) :
    Breaks (run surroundings arguments) ↔ RunBreaks surroundings arguments := by
  unfold AsksForResult at hasks
  simp only [run, hcompletion]
  cases hread : Request.read? arguments with
  | none =>
      refine iff_of_false (by simp [runRequest, Fault.BreaksOff, Fault.exitCode]) ?_
      rintro (⟨hother, -⟩ | ⟨hother, -⟩) <;> simp [hread] at hother
  | some request =>
      cases request with
      | version => simp [hread] at hasks
      | help => simp [hread] at hasks
      | task directory? name rest =>
          simp only [hread] at hasks
          have hname : name ≠ .generate := by
            rintro rfl
            exact htranslates directory? rest hread
          have htasks : ∀ {settings task}, Task.read? name rest = some task →
              (Breaks (task.run surroundings settings) ↔
                TaskBreaks surroundings settings task) := by
            intro settings task htask
            rcases read?_eq_some hname htask with rfl | ⟨texts, rfl⟩ | ⟨source, _, rfl⟩
            · exact absurd htask hasks
            · exact breaks_translate_iff surroundings settings texts
            · exact breaks_text_iff surroundings settings source _
          simp only [runRequest, breaks_bind_iff, breaks_checkDirectory_iff, breaks_mapError_iff,
            mapError_eq_ok_iff]
          constructor
          · rintro (⟨path, rfl, h⟩ |
              ⟨_, hdirectory, ⟨fault, -, hbreaks⟩ | ⟨settings, hsettings, h⟩⟩)
            · exact .directory hread h
            · simp [Fault.BreaksOff, Fault.report?] at hbreaks
            · cases htask : Task.read? name rest with
              | none => simp [htask, Fault.BreaksOff, Fault.exitCode] at h
              | some task =>
                  simp only [htask] at h
                  exact .task hread hdirectory hsettings htask ((htasks htask).mp h)
          · rintro (⟨hother, h⟩ | ⟨hother, hdirectory, hsettings, htask, h⟩)
            · rw [hread] at hother
              cases hother
              exact .inl ⟨_, rfl, h⟩
            · rw [hread] at hother
              cases hother
              refine .inr ⟨(), hdirectory, .inr ⟨_, hsettings, ?_⟩⟩
              simp only [htask]
              exact (htasks htask).mpr h

theorem run_translate_eq_ok_iff {settings : Settings} {texts : List String} {output : String} :
    Task.run surroundings settings (.translate texts) = .ok output ↔
      IsTranslation surroundings settings (.translate texts) output := by
  simp only [Task.run, bind_eq_ok_iff, readGlosses_eq_ok_iff, translateAll_eq_ok_iff,
    Except.ok.injEq]
  constructor
  · rintro ⟨glosses, hglosses, translator, hload, translations, htranslate, rfl⟩
    exact .translate hglosses hload htranslate
  · intro h
    cases h with
    | translate hglosses hload htranslate => exact ⟨_, hglosses, _, hload, _, htranslate, rfl⟩

theorem run_text_eq_ok_iff {settings : Settings} {source : TextSource} {includeSources : Bool}
    {output : String} :
    Task.run surroundings settings (.text source includeSources) = .ok output ↔
      IsTranslation surroundings settings (.text source includeSources) output := by
  simp only [Task.run, bind_eq_ok_iff, mapError_eq_ok_iff, decode_eq_ok_iff]
  constructor
  · rintro ⟨bytes, hbytes, translator, hload, raw, hraw, htranslate⟩
    exact .text hbytes hload hraw htranslate
  · intro h
    cases h with
    | text hbytes hload hraw htranslate => exact ⟨_, hbytes, _, hload, _, hraw, htranslate⟩

end Runs

end Command

end Interlinear
