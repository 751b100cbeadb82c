import Interlinear.Gloss.Parser

/-!
# Interlinear documents

A document is prose with regions between markers of two underscores.  Markers are found from left to
right and do not overlap; the text between the first and the second, the third and the fourth, and
so on, is glossed, and an unclosed region runs to the end.  In a region, runs of punctuation and
white space separate words, and every word is a gloss in which bare words are pointers.

Reading a document keeps every character: markers, separators and the text outside regions become
segments that pass through.
-/

namespace Interlinear

inductive Segment where
  | passthrough (text : String)
  | glossed (gloss : Gloss)

namespace Document

def marker : String := "__"

/-- The stretches between markers, the first of which begins with the characters of `before` in
reverse. -/
def stretchesAfter (before : List Char) : List Char → List (List Char)
  | '_' :: '_' :: cs => before.reverse :: stretchesAfter [] cs
  | c :: cs => stretchesAfter (c :: before) cs
  | [] => [before.reverse]

/-- The stretches between markers: one more than there are markers. -/
def stretches (cs : List Char) : List (List Char) :=
  stretchesAfter [] cs

/-- White space here is ASCII only. -/
def separators : List Char :=
  ['~', '`', '!', '@', '$', '%', '&', '(', ')', '=', '{', '}', '\\', '|', ';', ':', '\'', '"', ',',
    '<', '.', '>', '/', '?', ' ', '\t', '\n', '\r']

def isSeparator (c : Char) : Bool :=
  separators.contains c

/-- The maximal runs of separators and of other characters. -/
def runs (region : List Char) : List (List Char) :=
  region.splitBy fun a b => isSeparator a == isSeparator b

def isSeparatorRun (run : List Char) : Bool :=
  match run with
  | [] => false
  | c :: _ => isSeparator c

def readRun (run : List Char) : Except Gloss.ParseError Segment :=
  if isSeparatorRun run then
    .ok (.passthrough (String.ofList run))
  else
    (Gloss.parse .implicitPointers (String.ofList run)).map .glossed

def readRuns : List (List Char) → Except Gloss.ParseError (List Segment)
  | [] => .ok []
  | run :: runs => do
      let segment ← readRun run
      let segments ← readRuns runs
      .ok (segment :: segments)

/-- A region that does not begin or end with a word has an empty passage there. -/
def edgePassage : Option (List Char) → List Segment
  | none => [.passthrough ""]
  | some run => if isSeparatorRun run then [.passthrough ""] else []

/-- The segments of a region.  An empty region is one empty passage. -/
def readRegion (region : List Char) : Except Gloss.ParseError (List Segment) := do
  let runs := runs region
  let segments ← readRuns runs
  .ok (edgePassage runs.head? ++ segments ++ (runs.getLast?.map fun run =>
    edgePassage (some run)).getD [])

mutual
/-- The segments from a stretch of prose on. -/
def readProse : List (List Char) → Except Gloss.ParseError (List Segment)
  | [] => .ok []
  | [prose] => .ok [.passthrough (String.ofList prose)]
  | prose :: stretches => do
      let segments ← readRegions stretches
      .ok (.passthrough (String.ofList prose) :: .passthrough marker :: segments)
/-- The segments from a region on. -/
def readRegions : List (List Char) → Except Gloss.ParseError (List Segment)
  | [] => .ok []
  | [region] => readRegion region
  | region :: stretches => do
      let segments ← readRegion region
      let others ← readProse stretches
      .ok (segments ++ .passthrough marker :: others)
end

/-- Reads a document; the error is that of the first word that is no gloss. -/
def parse (raw : String) : Except Gloss.ParseError (List Segment) :=
  readProse (stretches raw.toList)

end Document

end Interlinear
