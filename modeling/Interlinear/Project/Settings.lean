import Interlinear.Dictionary
import Interlinear.Numeral.Integer
import Interlinear.Project.Path
import Interlinear.Translation.Translator

/-!
# Settings of a project

A project is a directory with three files.  The environment may name the directory and set the depth
to which references are followed; what it leaves empty or out has its usual value.
-/

namespace Interlinear.Project

structure Settings where
  directory : Path
  maxDepth : Int
  includeSources : Bool

namespace Settings

def usual : Settings :=
  ⟨.here, Translator.defaultDepth, false⟩

def lexicon (settings : Settings) : Path :=
  settings.directory.child "lexicon.csv"

def morphology (settings : Settings) : Path :=
  settings.directory.child "morphology.yaml"

def generator (settings : Settings) : Path :=
  settings.directory.child "generators.txt"

def directoryVariable : String := "GLOSSATOR_WORKDIR"

def depthVariable : String := "GLOSSATOR_MAX_DEPTH"

/-- The depth that the environment asks for is not an integer. -/
structure Fault where
  value : String
deriving DecidableEq

def Fault.message (fault : Fault) : String :=
  depthVariable ++ " must be an integer, got " ++ Text.quoted fault.value

/-- The value of a variable, unless it is empty. -/
def valueOf? (environment : Dictionary String String) (name : String) : Option String :=
  (environment.get? name).filter (· ≠ "")

def ofEnvironment (environment : Dictionary String String) : Except Fault Settings := do
  let directory := ((valueOf? environment directoryVariable).map Path.ofString).getD .here
  let maxDepth ←
    match valueOf? environment depthVariable with
    | none => .ok usual.maxDepth
    | some value => (Numeral.readInteger value).mapError fun _ => ⟨value⟩
  .ok ⟨directory, maxDepth, usual.includeSources⟩

/-- The settings for a project in the directory given; an empty text names none. -/
def within (settings : Settings) (directory? : Option String) : Settings :=
  match directory?.filter (· ≠ "") with
  | none => settings
  | some directory => { settings with directory := .ofString directory }

end Settings

end Interlinear.Project
