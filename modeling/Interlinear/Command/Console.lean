/-!
# Printing reports

Reports go to a console that gives some characters a meaning of their own.  Tabs are expanded to
columns of eight, counted from the start of the line, and a few control characters are not printed.
Brackets around a word are printed as they are, with whatever stands before them.  A backslash
before any other opening bracket is not printed.
-/

namespace Interlinear.Command

/-- Whether an opening bracket, given what follows it, opens a word in brackets. -/
def opensWord : List Char → Bool
  | c :: cs =>
      (('a' ≤ c && c ≤ 'z') || c == '#' || c == '/' || c == '@') &&
        (cs.dropWhile fun c => c != '[' && c != ']').head? == some ']'
  | [] => false

/-- Drops the backslash before a bracket that opens no word. -/
def dropEscapes : List Char → List Char
  | '\\' :: '[' :: cs =>
      if opensWord cs then '\\' :: '[' :: dropEscapes cs else '[' :: dropEscapes cs
  | c :: cs => c :: dropEscapes cs
  | [] => []

/-- The bell, the backspace, the two vertical blanks and the carriage return. -/
def isSilent (c : Char) : Bool :=
  c == '\x07' || c == '\x08' || c == '\x0b' || c == '\x0c' || c == '\r'

def tabWidth : Nat := 8

/-- Expands tabs from a column on. -/
def expandTabs (column : Nat) : List Char → List Char
  | [] => []
  | c :: cs =>
      if c = '\n' then '\n' :: expandTabs 0 cs
      else if c = '\t' then
        let spaces := tabWidth - column % tabWidth
        List.replicate spaces ' ' ++ expandTabs (column + spaces) cs
      else c :: expandTabs (column + 1) cs

/-- What a report starts with. -/
def reportStart : String := "Error: "

/-- A report as it comes out of the console, after its start. -/
def printed (message : String) : String :=
  String.ofList
    (expandTabs reportStart.length ((dropEscapes message.toList).filter fun c => !isSilent c))

end Interlinear.Command
