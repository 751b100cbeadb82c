/-!
# Comma-separated tables

A table is a row of records.  A record ends with its line, and cells are separated by commas.  A
cell that starts with a double quote goes on to the next double quote that is not doubled, across
line ends too; nothing but a comma or a line end may follow it.  A quote inside a bare cell is an
ordinary character.  Lines end with a line feed, a carriage return, or both in this order.

The reader is a machine with five places, fed one character or line end at a time.  It counts the
lines it has begun, so that every record knows the line that it ends on and a fault the line that it
arose on.
-/

namespace Interlinear.Csv

inductive Fault where
  | unexpectedEnd
  | commaExpected
  | cellTooLarge
deriving DecidableEq

/-- The greatest number of characters in a cell. -/
def cellLimit : Nat := 131072

def Fault.message : Fault → String
  | unexpectedEnd => "unexpected end of data"
  | commaExpected => "',' expected after '\"'"
  | cellTooLarge => "field larger than field limit (131072)"

/-- A record and the number of the line that it ends on. -/
structure Record where
  line : Nat
  cells : List String
deriving DecidableEq

inductive Place where
  | recordStart
  | cellStart
  | bare
  | quoted
  /-- After a double quote in a quoted cell. -/
  | closing
deriving DecidableEq

/-- What has been read.  Rows under construction are kept in reverse. -/
structure Progress where
  place : Place
  /-- The characters of the cell under construction and their number. -/
  cell : List Char
  size : Nat
  cells : List String
  records : List Record
  /-- The lines begun, and whether the next character begins another. -/
  lines : Nat
  lineOver : Bool

namespace Progress

def start : Progress where
  place := .recordStart
  cell := []
  size := 0
  cells := []
  records := []
  lines := 0
  lineOver := true

/-- The line of the next character. -/
def line (p : Progress) : Nat :=
  if p.lineOver then p.lines + 1 else p.lines

def push (p : Progress) (place : Place) (c : Char) : Except Fault Progress :=
  if cellLimit ≤ p.size then
    .error .cellTooLarge
  else
    .ok { p with place := place, cell := c :: p.cell, size := p.size + 1 }

def pushAll (p : Progress) (place : Place) : List Char → Except Fault Progress
  | [] => .ok p
  | c :: cs => do pushAll (← p.push place c) place cs

def closeCell (p : Progress) : Progress :=
  { p with
    place := .cellStart
    cell := []
    size := 0
    cells := String.ofList p.cell.reverse :: p.cells }

def closeRecord (p : Progress) : Progress :=
  { p with
    place := .recordStart
    cells := []
    records := ⟨p.line, p.cells.reverse⟩ :: p.records }

def char (p : Progress) (c : Char) : Except Fault Progress :=
  match p.place with
  | .recordStart | .cellStart =>
      if c = '"' then .ok { p with place := .quoted }
      else if c = ',' then .ok p.closeCell
      else p.push .bare c
  | .bare => if c = ',' then .ok p.closeCell else p.push .bare c
  | .quoted => if c = '"' then .ok { p with place := .closing } else p.push .quoted c
  | .closing =>
      if c = '"' then p.push .quoted c
      else if c = ',' then .ok p.closeCell
      else .error .commaExpected

def lineEnd (p : Progress) (ending : List Char) : Except Fault Progress :=
  match p.place with
  | .recordStart => .ok p.closeRecord
  | .quoted => p.pushAll .quoted ending
  | .cellStart | .bare | .closing => .ok p.closeCell.closeRecord

def finish (p : Progress) : Except Fault Progress :=
  match p.place with
  | .recordStart => .ok p
  | .quoted => .error .unexpectedEnd
  | .cellStart | .bare | .closing => .ok p.closeCell.closeRecord

end Progress

/-- A fault and the number of lines begun when it arose. -/
structure Error where
  line : Nat
  fault : Fault
deriving DecidableEq

def readFrom (p : Progress) : List Char → Except Error (List Record)
  | [] =>
      match p.finish with
      | .ok p => .ok p.records.reverse
      | .error fault => .error ⟨p.lines, fault⟩
  | '\r' :: '\n' :: cs =>
      match p.lineEnd ['\r', '\n'] with
      | .ok next => readFrom { next with lines := p.line, lineOver := true } cs
      | .error fault => .error ⟨p.line, fault⟩
  | c :: cs =>
      if c = '\r' ∨ c = '\n' then
        match p.lineEnd [c] with
        | .ok next => readFrom { next with lines := p.line, lineOver := true } cs
        | .error fault => .error ⟨p.line, fault⟩
      else
        match p.char c with
        | .ok next => readFrom { next with lines := p.line, lineOver := false } cs
        | .error fault => .error ⟨p.line, fault⟩

/-- The records of a table, blank lines as records without cells. -/
def read (raw : String) : Except Error (List Record) :=
  readFrom .start raw.toList

end Interlinear.Csv
