import Interlinear.Command.Options
import Interlinear.Numeral.Integer

/-!
# What a run is asked for

Arguments begin with options for the whole program, then name a task, and then give the options and
arguments of the task.  A version or help that is asked for goes before everything else, and of the
two the one that comes first.

Arguments that start with no task are read once more as options, so that a version or help can be
asked for there too.
-/

namespace Interlinear.Command

inductive GlobalOption where
  | version
  | help
  | directory
  /-- Asks for more to be reported, which changes nothing in what a run answers. -/
  | verbose
deriving DecidableEq

def globalForms : List (OptionForm GlobalOption) :=
  [⟨.version, none, "version", false⟩,
    ⟨.help, none, "help", false⟩,
    ⟨.directory, some 'C', "directory", true⟩,
    ⟨.verbose, some 'v', "verbose", false⟩]

inductive TaskName where
  | translate
  | text
  | generate
deriving DecidableEq

def TaskName.ofString? : String → Option TaskName
  | "tr" => some .translate
  | "text" => some .text
  | "gen" => some .generate
  | _ => none

/-- A task is asked for with its arguments, which are read later, and perhaps with a directory. -/
inductive Request where
  | version
  | help
  | task (directory? : Option String) (name : TaskName) (arguments : List String)
deriving DecidableEq

namespace Request

/-- The version or help that options ask for. -/
def ofOptions? (arguments : Arguments GlobalOption) : Option Request :=
  match arguments.firstOf? [.version, .help] with
  | some .version => some .version
  | some .help => some .help
  | _ => none

/-- The request that arguments make, if they are used rightly. -/
def read? (arguments : List String) : Option Request := do
  let read ← readArguments? globalForms false arguments
  match ofOptions? read, read.rest with
  | some request, _ => some request
  | none, [] => none
  | none, name :: rest =>
      match TaskName.ofString? name with
      | some found => some (.task (read.lastValue? .directory) found rest)
      | none => do
          let again ← readArguments? globalForms false (name :: rest)
          ofOptions? again

end Request

inductive TextOption where
  | includeSources
  | help
deriving DecidableEq

def textForms : List (OptionForm TextOption) :=
  [⟨.includeSources, some 's', "include-sources", false⟩, ⟨.help, none, "help", false⟩]

inductive GeneratorOption where
  | count
  | seed
  | help
deriving DecidableEq

def generatorForms : List (OptionForm GeneratorOption) :=
  [⟨.count, some 'n', "count", true⟩, ⟨.seed, none, "seed", true⟩, ⟨.help, none, "help", false⟩]

inductive TranslateOption where
  | help
deriving DecidableEq

def translateForms : List (OptionForm TranslateOption) :=
  [⟨.help, none, "help", false⟩]

/-- Where a text comes from. -/
inductive TextSource where
  | input
  | file (path : String)
deriving DecidableEq

/-- A single dash stands for the standard input. -/
def TextSource.ofString (name : String) : TextSource :=
  if name = "-" then .input else .file name

inductive Task where
  | help
  | translate (glosses : List String)
  | text (source : TextSource) (includeSources : Bool)
  /-- Words from a rule; without a seed every run gives others. -/
  | generate (rule? : Option String) (count : Int) (seed? : Option Int)
deriving DecidableEq

namespace Task

def readTranslate? (arguments : List String) : Option Task := do
  let read ← readArguments? translateForms true arguments
  if read.hasOption .help then some .help else some (.translate read.rest)

def readText? (arguments : List String) : Option Task := do
  let read ← readArguments? textForms true arguments
  let includeSources := read.hasOption .includeSources
  if read.hasOption .help then some .help
  else
    match read.rest with
    | [] => some (.text .input includeSources)
    | [name] => some (.text (.ofString name) includeSources)
    | _ => none

/-- The integer that an option is given last. -/
def lastInteger? (read : Arguments GeneratorOption) (option : GeneratorOption) :
    Option (Option Int) :=
  match read.lastValue? option with
  | none => some none
  | some value => (Numeral.readInteger value).toOption.map some

def usualCount : Int := 1

/-- The rule may be left out. -/
def readGenerate? (arguments : List String) : Option Task := do
  let read ← readArguments? generatorForms true arguments
  if read.hasOption .help then some .help
  else do
    let count? ← lastInteger? read .count
    let seed? ← lastInteger? read .seed
    match read.rest with
    | [] => some (.generate none (count?.getD usualCount) seed?)
    | [rule] => some (.generate (some rule) (count?.getD usualCount) seed?)
    | _ => none

/-- The task that arguments describe, if they are used rightly. -/
def read? : TaskName → List String → Option Task
  | .translate, arguments => readTranslate? arguments
  | .text, arguments => readText? arguments
  | .generate, arguments => readGenerate? arguments

end Task

end Interlinear.Command
