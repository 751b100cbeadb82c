import Interlinear.Unicode.Ranges

/-!
# Blank characters

The characters that separate words: the ASCII controls from tab to carriage return and from the
file separator to the unit separator, the next-line control, and the space, line and paragraph
separators.  The zero-width space and the byte-order mark are not among them.
-/

namespace Interlinear.Unicode

def blankRanges : Ranges :=
  [(0x9, 0xD), (0x1C, 0x20), (0x85, 0x85), (0xA0, 0xA0), (0x1680, 0x1680),
   (0x2000, 0x200A), (0x2028, 0x2029), (0x202F, 0x202F), (0x205F, 0x205F), (0x3000, 0x3000)]

def isBlankCode (code : Nat) : Bool :=
  blankRanges.contains code

def isBlank (c : Char) : Bool :=
  isBlankCode c.toNat

end Interlinear.Unicode
