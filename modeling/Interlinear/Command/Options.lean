/-!
# Command line options

An option has a long name and perhaps a short one of a single letter, and may take a value.  Short
names can be run together after one dash, the last with its value; a long name can be joined to its
value by an equals sign.  After two dashes by themselves there are only arguments.  Options are read
either up to the first argument, or among the arguments as well.
-/

namespace Interlinear.Command

/-- An option, by what it means. -/
structure OptionForm (ω : Type) where
  meaning : ω
  letter? : Option Char
  name : String
  takesValue : Bool

/-- Options in the order in which they are given, with their values, and the arguments. -/
structure Arguments (ω : Type) where
  options : List (ω × String)
  rest : List String

namespace Arguments

variable {ω : Type}

def addOption (arguments : Arguments ω) (meaning : ω) (value : String) : Arguments ω :=
  { arguments with options := (meaning, value) :: arguments.options }

def addOptions (arguments : Arguments ω) (meanings : List ω) : Arguments ω :=
  { arguments with
    options := (meanings.map fun meaning => (meaning, "")) ++ arguments.options }

def addRest (arguments : Arguments ω) (argument : String) : Arguments ω :=
  { arguments with rest := argument :: arguments.rest }

end Arguments

/-- What one argument with a dash gives: options without values, and perhaps one that takes a value,
which may be in the argument too. -/
structure Cluster (ω : Type) where
  flags : List ω
  valued : Option (ω × Option String)

variable {ω : Type}

/-- A long name, perhaps with a value after an equals sign. -/
def readLong? (forms : List (OptionForm ω)) (cs : List Char) : Option (Cluster ω) := do
  let name := String.ofList (cs.takeWhile (· != '='))
  let form ← forms.find? fun form => form.name == name
  match cs.dropWhile (· != '='), form.takesValue with
  | _ :: value, true => some ⟨[], some (form.meaning, some (String.ofList value))⟩
  | [], true => some ⟨[], some (form.meaning, none)⟩
  | [], false => some ⟨[form.meaning], none⟩
  | _ :: _, false => none

/-- Letters run together. -/
def readLetters? (forms : List (OptionForm ω)) : List Char → Option (Cluster ω)
  | [] => some ⟨[], none⟩
  | c :: cs => do
      let form ← forms.find? fun form => form.letter? == some c
      if form.takesValue then
        let value := if cs.isEmpty then none else some (String.ofList cs)
        some ⟨[], some (form.meaning, value)⟩
      else
        let cluster ← readLetters? forms cs
        some { cluster with flags := form.meaning :: cluster.flags }

def readCluster? (forms : List (OptionForm ω)) : List Char → Option (Cluster ω)
  | '-' :: '-' :: cs => readLong? forms cs
  | '-' :: cs => readLetters? forms cs
  | _ => none

/-- Whether an argument is one or more options. -/
def isOption (argument : String) : Bool :=
  match argument.toList with
  | '-' :: _ :: _ => true
  | _ => false

/-- Reads options and arguments; nothing if an option is unknown, lacks its value or has one that it
does not take. -/
def readArguments? (forms : List (OptionForm ω)) (amongArguments : Bool) :
    List String → Option (Arguments ω)
  | [] => some ⟨[], []⟩
  | argument :: arguments =>
      if argument = "--" then some ⟨[], arguments⟩
      else if isOption argument then do
        let cluster ← readCluster? forms argument.toList
        match cluster.valued, arguments with
        | none, arguments => do
            let read ← readArguments? forms amongArguments arguments
            some (read.addOptions cluster.flags)
        | some (meaning, some value), arguments => do
            let read ← readArguments? forms amongArguments arguments
            some ((read.addOption meaning value).addOptions cluster.flags)
        | some (meaning, none), value :: arguments => do
            let read ← readArguments? forms amongArguments arguments
            some ((read.addOption meaning value).addOptions cluster.flags)
        | some (_, none), [] => none
      else if amongArguments then do
        let read ← readArguments? forms amongArguments arguments
        some (read.addRest argument)
      else some ⟨[], argument :: arguments⟩

namespace Arguments

variable [DecidableEq ω]

def hasOption (arguments : Arguments ω) (meaning : ω) : Bool :=
  arguments.options.any fun option => option.1 = meaning

/-- The value that an option is given last. -/
def lastValue? (arguments : Arguments ω) (meaning : ω) : Option String :=
  (arguments.options.reverse.find? fun option => option.1 = meaning).map Prod.snd

/-- The first of some options that is given. -/
def firstOf? (arguments : Arguments ω) (meanings : List ω) : Option ω :=
  (arguments.options.find? fun option => meanings.contains option.1).map Prod.fst

end Arguments

end Interlinear.Command
