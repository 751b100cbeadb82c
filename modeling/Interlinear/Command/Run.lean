import Interlinear.Command.Console
import Interlinear.Command.Request
import Interlinear.Document.Render
import Interlinear.Generator.Basic
import Interlinear.Generator.Twister
import Interlinear.Morphology.Config
import Interlinear.Project.Disk
import Interlinear.Project.Settings

/-!
# Running a request

A run reads the files of a project and answers with the text that it prints, or with a fault.  It
sees the disk, the environment, the standard input, and a seed for runs that are given none.  Its
arguments and the values of variables are texts, so they were in UTF-8.  Of the environment it looks
at the variables of the settings, and at one in which a shell asks for completions instead of a
result.  Variables that are about the encoding of the output are left to what is printed to.
Variables that are about the system a run is on, as its limits and warnings, are taken to be as
usual.

Faults of the project and its files, and glosses that do not read, are reported.  A wrong use of the
program ends the run before any file of the project is read.  All other faults are not expected, and
a run that meets one breaks off without a report.
-/

namespace Interlinear.Command

open Project (Disk FileFault Settings)

inductive Fault where
  | usage
  | settings (fault : Settings.Fault)
  | gloss (error : Gloss.ParseError)
  | file (path : String) (fault : FileFault)
  /-- The text in a file or in the standard input is not in UTF-8. -/
  | encoding
  | lexicon (error : Lexicon.Error)
  | morphology (error : Morphology.Config.Error)
  | depth (fault : Translator.DepthFault)
  | translation (error : TranslationError)
  | source (error : Gloss.PrintError)
  | generator (error : Generator.ParseError)
  | emptyRule (rule : Generator.EmptyRule)
  | expansion (error : Generator.ExpansionError)
  /-- A shell asks for completions in a way that has no answer. -/
  | completion
  /-- The output cannot write a character. -/
  | output

namespace Fault

/-- What is reported of a configuration: its own faults and that its text cannot be read. -/
def configReport? (error : Morphology.Config.Error) : Option String :=
  match error with
  | .shape .. | .pattern .. | .document | .halfSurrogate => some error.message
  | _ => none

/-- The report of a fault. -/
def report? : Fault → Option String
  | settings fault => some fault.message
  | gloss error => some error.message
  | file path (.refused number cause) => some ((FileFault.refused number cause).message path)
  | lexicon error => some error.message
  | morphology error => configReport? error
  | generator error => some error.message
  | emptyRule rule => some rule.message
  | _ => none

def exitCode : Fault → Nat
  | usage => 2
  | _ => 1

end Fault

/-- What a run has to go on, apart from its arguments and what it prints to. -/
structure Surroundings where
  disk : Disk
  environment : Dictionary String String
  input : ByteArray
  /-- The seed for words if none is given. -/
  freshSeed : Int
  /-- The answer to a shell that asks, with an instruction, how arguments may go on; there may be
  none. -/
  complete : (instruction : String) → (arguments : List String) → Option String

/-- The variable in which a shell leaves its instruction. -/
def completionVariable : String := "_GLOSSATOR_COMPLETE"

/-- What a run comes to that a shell asks for completions. -/
def Surroundings.completion? (surroundings : Surroundings) (arguments : List String) :
    Option (Except Fault String) :=
  (Settings.valueOf? surroundings.environment completionVariable).map fun instruction =>
    match surroundings.complete instruction arguments with
    | some text => .ok text
    | none => .error .completion

def versionText : String := "glossator, version 0.1.0\n"

/-- Help is a line on the tasks. -/
def helpText : String := "glossator [-C DIRECTORY] tr GLOSSES... | text [SOURCE] | gen [RULE]\n"

def decode (bytes : ByteArray) : Except Fault String :=
  match Project.decodeText? bytes with
  | some text => .ok text
  | none => .error .encoding

/-- The text of a file of the project. -/
def readFile (disk : Disk) (path : Project.Path) : Except Fault String :=
  match disk.read path.text with
  | .ok bytes => decode bytes
  | .error fault => .error (.file path.text fault)

variable [Unicode.Names]

def loadTranslator (disk : Disk) (settings : Settings) : Except Fault Translator := do
  let table ← readFile disk settings.lexicon
  let lexicon ← (Lexicon.parse table).mapError .lexicon
  let configuration ← readFile disk settings.morphology
  let morphology ← (Morphology.parse configuration).mapError .morphology
  (Translator.make (Index.build lexicon.lexemes) morphology settings.maxDepth).mapError .depth

def loadGenerator (disk : Disk) (settings : Settings) :
    Except Fault (Generator.Compiled Float) := do
  let text ← readFile disk settings.generator
  let rules ← (Generator.parse text).mapError .generator
  (Generator.compile rules.toFloat).mapError .emptyRule

def readGlosses : List String → Except Fault (List Gloss)
  | [] => .ok []
  | text :: texts => do
      let gloss ← (Gloss.parse .implicitPointers text).mapError .gloss
      let glosses ← readGlosses texts
      .ok (gloss :: glosses)

def translateAll (translator : Translator) : List Gloss → Except Fault (List String)
  | [] => .ok []
  | gloss :: glosses => do
      let translation ← (translator.translate gloss).mapError .translation
      let translations ← translateAll translator glosses
      .ok (translation :: translations)

def documentFault : Document.Error TranslationError → Fault
  | .parse error => .gloss error
  | .render (.translation error) => .translation error
  | .render (.source error) => .source error

/-- The bytes of a text to translate; a file that cannot be opened is a wrong use. -/
def openSource (surroundings : Surroundings) : TextSource → Except Fault ByteArray
  | .input => .ok surroundings.input
  | .file path =>
      match surroundings.disk.read path with
      | .ok bytes => .ok bytes
      | .error .nullInPath => .error (.file path .nullInPath)
      | .error _ => .error .usage

def twisterSource : Generator.Source Generator.Twister Float :=
  ⟨Generator.Twister.nextFloat⟩

/-- So many words, each on a line of its own. -/
def generateWords (generator : Generator.Compiled Float) (rule? : Option String) :
    (count : Nat) → Generator.Twister → Except Fault (List String)
  | 0, _ => .ok []
  | count + 1, twister =>
      match generator.generate twisterSource rule? twister with
      | (.error error, _) => .error (.expansion error)
      | (.ok word, twister) => do
          let words ← generateWords generator rule? count twister
          .ok ((word ++ "\n") :: words)

def Task.run (surroundings : Surroundings) (settings : Settings) : Task → Except Fault String
  | .help => .ok helpText
  | .translate texts => do
      let glosses ← readGlosses texts
      let translator ← loadTranslator surroundings.disk settings
      let translations ← translateAll translator glosses
      .ok (" ".intercalate translations ++ "\n")
  | .text source includeSources => do
      let bytes ← openSource surroundings source
      let translator ← loadTranslator surroundings.disk settings
      let raw ← decode bytes
      (Document.translate translator.translate
        (settings.includeSources || includeSources) raw).mapError documentFault
  | .generate rule? count seed? => do
      let generator ← loadGenerator surroundings.disk settings
      let words ← generateWords generator rule? count.toNat
        (.ofSeed (seed?.getD surroundings.freshSeed))
      .ok (String.join words)

/-- What is named as a directory need not be there, but must be no file and readable. -/
def checkDirectory (disk : Disk) : Option String → Except Fault Unit
  | none => .ok ()
  | some path =>
      match disk.entry path with
      | .ok entry => if entry.isFile || !entry.isReadable then .error .usage else .ok ()
      | .error .nullInPath => .error (.file path .nullInPath)
      | .error _ => .ok ()

/-- The request that arguments make, or a wrong use. -/
def runRequest (surroundings : Surroundings) : Option Request → Except Fault String
  | none => .error .usage
  | some .version => .ok versionText
  | some .help => .ok helpText
  | some (.task directory? name arguments) => do
      checkDirectory surroundings.disk directory?
      let settings ← (Settings.ofEnvironment surroundings.environment).mapError .settings
      match Task.read? name arguments with
      | none => .error .usage
      | some task => task.run surroundings (settings.within directory?)

/-- A shell that asks for completions is answered before the arguments are read. -/
def run (surroundings : Surroundings) (arguments : List String) : Except Fault String :=
  match surroundings.completion? arguments with
  | some answer => answer
  | none => runRequest surroundings (Request.read? arguments)

/-- The paths that a run with these arguments may look at. -/
def pathsOf (environment : Dictionary String String) (arguments : List String) : List String :=
  match Request.read? arguments with
  | some (.task directory? name arguments) =>
      let ofSettings :=
        match Settings.ofEnvironment environment with
        | .ok settings =>
            let settings := settings.within directory?
            [settings.lexicon, settings.morphology, settings.generator].map Project.Path.text
        | .error _ => []
      let ofTask :=
        match Task.read? name arguments with
        | some (.text (.file path) _) => [path]
        | _ => []
      directory?.toList ++ ofSettings ++ ofTask
  | _ => []

/-- Whether a run with these arguments looks at the standard input. -/
def needsInput (arguments : List String) : Bool :=
  match Request.read? arguments with
  | some (.task _ name arguments) =>
      match Task.read? name arguments with
      | some (.text .input _) => true
      | _ => false
  | _ => false

end Interlinear.Command
