import Interlinear.Calendar.Date
import Interlinear.Numeral.Integer

/-!
# Faults in configuration documents

Where a text is no document, only that much is said.  A document can also hold a scalar whose text
does not have the form that its tag asks for, and for these there are causes.  Halves of surrogate
pairs are no characters, so a scalar that asks for one has no text.
-/

namespace Interlinear.Yaml

inductive Fault where
  | malformed
  /-- An escape for a number that is no code point. -/
  | codePoint
  /-- An escape for a number of 32 bits. -/
  | escapeTooLarge
  /-- An escape for half of a surrogate pair. -/
  | halfSurrogate
  | integer (fault : Numeral.IntegerFault)
  | fraction (text : String)
  /-- A number without digits and without a sign. -/
  | emptyNumber
  | numberTooLarge
  | truthValue (text : String)
  | calendar (fault : Calendar.Fault)
  | notTimestamp
  /-- A mapping in the place of a timestamp. -/
  | notText

def Fault.message : Fault → String
  | malformed => "Invalid YAML"
  | codePoint => "chr() arg not in range(0x110000)"
  | escapeTooLarge => "Python int too large to convert to C int"
  | halfSurrogate => "half of a surrogate pair"
  | integer fault => fault.message
  | fraction text => "could not convert string to float: " ++ Text.quoted text
  | emptyNumber => "string index out of range"
  | numberTooLarge => "int too large to convert to float"
  | truthValue text => Text.quoted text
  | calendar fault => fault.message
  | notTimestamp => "'NoneType' object has no attribute 'groupdict'"
  | notText => "expected string or bytes-like object, got 'list'"

end Interlinear.Yaml
