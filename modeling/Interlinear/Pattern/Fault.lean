import Interlinear.Numeral.Integer
import Interlinear.Text.Quoted

/-!
# Faults in patterns and templates

A fault has a cause and, for most causes, a position in the text of the pattern or template.  When
that text has several lines the message adds line and column.
-/

namespace Interlinear.Pattern

inductive Cause where
  | danglingBackslash
  | badEscape (escape : List Char)
  | incompleteEscape (escape : List Char)
  | octalTooLarge (escape : List Char)
  | missingBrace
  | unknownCharacter (name : List Char)
  | missingName (what : String)
  | unterminatedName (terminator : Char)
  | badGroupName (name : List Char)
  | unknownGroup (name : List Char)
  | redefinedGroup (name : List Char) (index previous : Nat)
  | openGroup
  | groupInSameLookbehind
  | invalidGroup (index : Nat)
  | zeroGroup
  | unterminatedSet
  | badRange (low high : List Char)
  | leastAboveMost
  | nothingToRepeat
  | multipleRepeat
  | patternEnd
  | unknownExtension (text : List Char)
  | unterminatedComment
  | unterminatedPart
  | unbalancedParenthesis
  | thirdBranch
  | lateGlobalFlags
  | localeFlag
  | incompatibleFlags
  | missingFlagsEnd
  | missingFlag
  | missingColon
  | unknownFlag
  | globalFlagOn
  | globalFlagOff
  | alphabetFlagOff
  | flagOnAndOff
  | variableLookbehind
  | farLookbehind
  /-- An escape for a number of more than 31 bits. -/
  | numberTooLarge
  | refusedRepeat (kind : String)
  | missingAngle

namespace Cause

def text : Cause → String
  | danglingBackslash => "bad escape (end of pattern)"
  | badEscape escape => "bad escape " ++ String.ofList escape
  | incompleteEscape escape => "incomplete escape " ++ String.ofList escape
  | octalTooLarge escape =>
      "octal escape value " ++ String.ofList escape ++ " outside of range 0-0o377"
  | missingBrace => "missing \x7b"
  | unknownCharacter name => "undefined character name " ++ Text.quoted (String.ofList name)
  | missingName what => "missing " ++ what
  | unterminatedName terminator => "missing " ++ terminator.toString ++ ", unterminated name"
  | badGroupName name => "bad character in group name " ++ Text.quoted (String.ofList name)
  | unknownGroup name => "unknown group name " ++ Text.quoted (String.ofList name)
  | redefinedGroup name index previous =>
      "redefinition of group name " ++ Text.quoted (String.ofList name) ++ " as group " ++
        toString index ++ "; was group " ++ toString previous
  | openGroup => "cannot refer to an open group"
  | groupInSameLookbehind =>
      "cannot refer to group defined in the same lookbehind subpattern"
  | invalidGroup index => "invalid group reference " ++ toString index
  | zeroGroup => "bad group number"
  | unterminatedSet => "unterminated character set"
  | badRange low high =>
      "bad character range " ++ String.ofList low ++ "-" ++ String.ofList high
  | leastAboveMost => "min repeat greater than max repeat"
  | nothingToRepeat => "nothing to repeat"
  | multipleRepeat => "multiple repeat"
  | patternEnd => "unexpected end of pattern"
  | unknownExtension text => "unknown extension ?" ++ String.ofList text
  | unterminatedComment => "missing ), unterminated comment"
  | unterminatedPart => "missing ), unterminated subpattern"
  | unbalancedParenthesis => "unbalanced parenthesis"
  | thirdBranch => "conditional backref with more than two branches"
  | lateGlobalFlags => "global flags not at the start of the expression"
  | localeFlag => "bad inline flags: cannot use 'L' flag with a str pattern"
  | incompatibleFlags => "bad inline flags: flags 'a', 'u' and 'L' are incompatible"
  | missingFlagsEnd => "missing -, : or )"
  | missingFlag => "missing flag"
  | missingColon => "missing :"
  | unknownFlag => "unknown flag"
  | globalFlagOn => "bad inline flags: cannot turn on global flag"
  | globalFlagOff => "bad inline flags: cannot turn off global flag"
  | alphabetFlagOff => "bad inline flags: cannot turn off flags 'a', 'u' and 'L'"
  | flagOnAndOff => "bad inline flags: flag turned on and off"
  | variableLookbehind => "look-behind requires fixed-width pattern"
  | farLookbehind => "looks too much behind"
  | numberTooLarge => "Python int too large to convert to C int"
  | refusedRepeat kind => "internal: unsupported template operator " ++ kind
  | missingAngle => "missing <"

end Cause

/-- A fault in the text `source`. -/
structure Fault where
  source : String
  cause : Cause
  position : Option Nat

/-- Line and column of a position, both as messages count them: lines from one, and columns from the
last newline before the position. -/
def lineAndColumn (source : List Char) (position : Nat) : Nat × Nat :=
  let before := source.take position
  (before.count '\n' + 1, (before.reverse.takeWhile (· != '\n')).length + 1)

def Fault.message (fault : Fault) : String :=
  match fault.position with
  | none => fault.cause.text
  | some position =>
      let text := fault.cause.text ++ " at position " ++ toString position
      if fault.source.toList.contains '\n' then
        let (line, column) := lineAndColumn fault.source.toList position
        text ++ " (line " ++ toString line ++ ", column " ++ toString column ++ ")"
      else
        text

/-- Why a pattern does not compile. -/
inductive CompileError where
  | fault (fault : Fault)
  /-- Both alphabets are asked for. -/
  | bothAlphabets
  | repetitionTooLarge
  | escapeTooLarge
  | numberTooLong (fault : Numeral.IntegerFault)

/-- Escapes for numbers that are too large are not faults of the pattern like others. -/
def CompileError.ofFault (fault : Fault) : CompileError :=
  match fault.cause with
  | .numberTooLarge => .escapeTooLarge
  | _ => .fault fault

def CompileError.message : CompileError → String
  | fault e => e.message
  | bothAlphabets => "ASCII and UNICODE flags are incompatible"
  | repetitionTooLarge => "the repetition number is too large"
  | escapeTooLarge => Cause.numberTooLarge.text
  | numberTooLong e => e.message

end Interlinear.Pattern
