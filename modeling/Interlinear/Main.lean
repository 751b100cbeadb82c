import Interlinear.Command.Printing

/-!
# The program

Looks up what a run may look at, performs it, prints what it prints and reports its fault.  The
output is in UTF-8 and writes every character.  Completions are not given.
-/

namespace Interlinear.Command

open Project (Disk FileFault Settings)

/-- Why the system does not give the bytes of a file. -/
def faultOfError : IO.Error → FileFault
  | .noFileOrDirectory .. => .notFound
  | .inappropriateType _ 21 _ => .isDirectory
  | .inappropriateType .. => .notDirectory
  | .permissionDenied .. => .accessDenied
  | error => .refused 5 (toString error)

def lookAt (path : String) : IO (String × Except FileFault ByteArray) := do
  if path.toList.contains '\x00' then
    return (path, .error .nullInPath)
  else
    try
      let bytes ← IO.FS.readBinFile path
      return (path, .ok bytes)
    catch error =>
      return (path, .error (faultOfError error))

def readInput : IO ByteArray := do
  let stdin ← IO.getStdin
  let mut bytes := ByteArray.empty
  repeat
    let block ← stdin.read 65536
    if block.isEmpty then break
    bytes := bytes ++ block
  return bytes

def readEnvironment : IO (Dictionary String String) := do
  let mut environment := .empty
  for name in [Settings.directoryVariable, Settings.depthVariable, completionVariable] do
    if let some value ← IO.getEnv name then
      environment := environment.insert name value
  return environment

/-- Where systems keep the table of characters. -/
def namesPath : String := "/usr/share/unicode/UnicodeData.txt"

/-- The names in a table, in which lines begin with a number in hexadecimal digits and a name. -/
@[reducible]
def namesOfTable (table : String) : Unicode.Names where
  code? name :=
    let name := String.ofList (name.map Char.toUpper)
    (table.splitOn "\n").findSome? fun line =>
      match line.splitOn ";" with
      | number :: other :: _ =>
          -- Names in angle brackets are none, but say what kind of character there is.
          if other = name && other.front != '<' then some (Pattern.numberIn 16 number.toList)
          else none
      | _ => none

def readNames : IO Unicode.Names := do
  try
    let table ← IO.FS.readFile namesPath
    return namesOfTable table
  catch _ => return .none

/-- Runs the program and gives its exit code. -/
def runProgram (arguments : List String) : IO UInt32 := do
  let environment ← readEnvironment
  let found ← (pathsOf environment arguments).mapM lookAt
  let disk : Disk := .ofRead fun path => (found.lookup path).getD (.error .notFound)
  let input ← if needsInput arguments then readInput else pure ByteArray.empty
  let freshSeed ← IO.rand 0 (Nat.pow 2 62)
  let _names ← readNames
  let output := Output.plain (← (← IO.getStdout).isTty)
  let surroundings : Surroundings := ⟨disk, environment, input, freshSeed, fun _ _ => none⟩
  let ending := (perform output surroundings arguments).ending
  IO.print ending.printed
  if let some report := ending.report? then
    IO.eprintln report
  return ending.exitCode.toUInt32

end Interlinear.Command

def main (arguments : List String) : IO UInt32 :=
  Interlinear.Command.runProgram arguments
