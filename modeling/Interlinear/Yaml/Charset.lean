/-!
# Characters of configuration documents

Lines end with a line feed, a carriage return, both in this order, a next-line control, or one of
the line and paragraph separators; the last two keep their identity in the text of a scalar, and the
others are read as a line feed.  What may follow an indicator is asked of the next character, of
which there is none at the end of the document.
-/

namespace Interlinear.Yaml

/-- Whether a character may occur in a document at all. -/
def isAllowed (c : Char) : Bool :=
  c == '\t' || c == '\n' || c == '\r' || c == '\x85' ||
    (0x20 ≤ c.toNat && c.toNat ≤ 0x7E) || (0xA0 ≤ c.toNat && c.toNat ≤ 0xFFFD) ||
    0x10000 ≤ c.toNat

def byteOrderMark : Char := '\uFEFF'

def isBreak (c : Char) : Bool :=
  c == '\n' || c == '\r' || c == '\x85' || c == '\u2028' || c == '\u2029'

def isSpaceOrBreak (c : Char) : Bool :=
  c == ' ' || isBreak c

def isBlankOrBreak (c : Char) : Bool :=
  c == '\t' || isSpaceOrBreak c

/-- The end of the document or a line end. -/
def endsLine (next : Option Char) : Bool :=
  next.all isBreak

/-- The end of the document, a space or a line end. -/
def endsField (next : Option Char) : Bool :=
  next.all isSpaceOrBreak

/-- The end of the document, a space, a tab or a line end. -/
def endsWord (next : Option Char) : Bool :=
  next.all isBlankOrBreak

/-- The characters of anchors and handles. -/
def isNameChar (c : Char) : Bool :=
  ('0' ≤ c && c ≤ '9') || ('A' ≤ c && c ≤ 'Z') || ('a' ≤ c && c ≤ 'z') || c == '-' || c == '_'

/-- The characters of tags, escapes included. -/
def isTagChar (c : Char) : Bool :=
  isNameChar c || ";/?:@&=+$,.!~*'()[]%".toList.contains c

def isFlowIndicator (c : Char) : Bool :=
  ",[]\x7b\x7d".toList.contains c

end Interlinear.Yaml
