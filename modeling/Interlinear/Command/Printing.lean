import Interlinear.Command.Run

/-!
# Printing results

A run prints its results as it gets them, and what is printed before a fault stays printed.  A
translation is printed when all of it is there, words one by one.

Some sequences of characters mean something to a terminal, such as to change the colour of what
follows.  They begin with an escape and a bracket, go on with parameters, and end with a letter.
Where the output goes elsewhere, to a file or to another program, they are left out.

An output has its own encoding, in which some characters may be missing.  What is done about these
is for the output to say: it may put others in their place, or have none, and then nothing is
printed of the text that the character is in.
-/

namespace Interlinear.Command

open Project (Settings)

/-! ## Terminal sequences -/

/-- Parameters of a sequence are numbers, between semicolons or after a question mark. -/
def isParameter (c : Char) : Bool :=
  c == ';' || c == '?' || Numeral.isAsciiDigit c

/-- The number of the parameters and the letter that a text begins with. -/
def parametersLength? : List Char → Option Nat
  | [] => none
  | c :: cs =>
      if isParameter c then (parametersLength? cs).map (· + 1)
      else if Pattern.isAsciiLetter c then some 1
      else none

/-- The length of the sequence that a text begins with. -/
def sequenceLength? : List Char → Option Nat
  | '\x1b' :: '[' :: cs => (parametersLength? cs).map (· + 2)
  | _ => none

/-- Drops the sequences of a text, the first of which goes on for `more` characters. -/
def dropSequences : (more : Nat) → List Char → List Char
  | _, [] => []
  | more + 1, _ :: cs => dropSequences more cs
  | 0, c :: cs =>
      match sequenceLength? (c :: cs) with
      | some length => dropSequences (length - 1) cs
      | none => c :: dropSequences 0 cs

def shown (terminal : Bool) (text : String) : String :=
  if terminal then text else String.ofList (dropSequences 0 text.toList)

/-! ## Outputs -/

/-- What a run prints to.  It takes all that is written to it. -/
structure Output where
  terminal : Bool
  /-- What is written for a character: the character itself, others in place of it, or nothing, if
  it cannot be written. -/
  written? : Char → Option (List Char)

namespace Output

def writtenAll? (output : Output) : List Char → Option (List Char)
  | [] => some []
  | c :: cs => do
      let first ← output.written? c
      let others ← output.writtenAll? cs
      some (first ++ others)

/-- What comes out for a text, if all of what is shown of it can be written. -/
def prints? (output : Output) (text : String) : Option String :=
  (output.writtenAll? (shown output.terminal text).toList).map String.ofList

/-- An output that writes every character as itself. -/
def plain (terminal : Bool) : Output :=
  ⟨terminal, fun c => some [c]⟩

end Output

/-! ## Runs that print -/

/-- A part of a run, which goes on with what is printed so far and may end in a fault. -/
abbrev Printing := ExceptT Fault (StateM String)

/-- A text is printed whole or not at all. -/
def echo (output : Output) (text : String) : Printing Unit :=
  match output.prints? text with
  | some written => modify fun printed => printed ++ written
  | none => throw .output

def printWords (output : Output) (generator : Generator.Compiled Float) (rule? : Option String) :
    (count : Nat) → Generator.Twister → Printing Unit
  | 0, _ => pure ()
  | count + 1, twister =>
      match generator.generate twisterSource rule? twister with
      | (.error error, _) => throw (.expansion error)
      | (.ok word, twister) => do
          echo output (word ++ "\n")
          printWords output generator rule? count twister

variable [Unicode.Names]

def Task.perform (output : Output) (surroundings : Surroundings) (settings : Settings) :
    Task → Printing Unit
  | .generate rule? count seed? => do
      let generator ← loadGenerator surroundings.disk settings
      printWords output generator rule? count.toNat
        (.ofSeed (seed?.getD surroundings.freshSeed))
  | task => do
      let result ← task.run surroundings settings
      echo output result

def performRequest (output : Output) (surroundings : Surroundings) :
    Option Request → Printing Unit
  | none => throw .usage
  | some .version => echo output versionText
  | some .help => echo output helpText
  | some (.task directory? name arguments) => do
      checkDirectory surroundings.disk directory?
      let settings ← (Settings.ofEnvironment surroundings.environment).mapError Fault.settings
      match Task.read? name arguments with
      | none => throw .usage
      | some task => task.perform output surroundings (settings.within directory?)

def perform (output : Output) (surroundings : Surroundings) (arguments : List String) :
    Printing Unit :=
  match surroundings.completion? arguments with
  | some answer => do
      let text ← answer
      echo output text
  | none => performRequest output surroundings (Request.read? arguments)

/-- What a run prints, and the fault that it ends in, if any. -/
structure Ending where
  printed : String
  fault? : Option Fault

/-- Performs a run with nothing printed before it. -/
def Printing.ending (run : Printing Unit) : Ending :=
  match run.run.run "" with
  | (.ok _, printed) => ⟨printed, none⟩
  | (.error fault, printed) => ⟨printed, some fault⟩

namespace Ending

def exitCode (ending : Ending) : Nat :=
  match ending.fault? with
  | none => 0
  | some fault => fault.exitCode

/-- What is reported to the console at the end of a run. -/
def report? (ending : Ending) : Option String :=
  (ending.fault?.bind Fault.report?).map fun message => reportStart ++ Command.printed message

end Ending

end Interlinear.Command
