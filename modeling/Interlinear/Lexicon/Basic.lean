import Interlinear.Gloss.Parser
import Interlinear.Lexicon.Csv

/-!
# Lexicons

A lexicon is a table whose first row names its columns.  Three columns are required, in any place:
the id of a lexeme, its translation as a gloss in which bare words are literals, and the generator
it was coined with.  All other columns belong to the user and are carried along.

Rows without cells and rows of one blank cell are dropped before anything else, short rows are
padded, and a row that is longer than the header keeps its further cells as user cells.
-/

namespace Interlinear

structure Lexeme where
  id : String
  translation : Gloss
  generator : String
  userCells : List String

structure Lexicon where
  columns : List String
  lexemes : List Lexeme

namespace Lexicon

def requiredColumns : List String :=
  ["id", "translation", "generator"]

def userColumns (lexicon : Lexicon) : List String :=
  lexicon.columns.filter fun name => !requiredColumns.contains name

inductive Error where
  | malformed (error : Csv.Error)
  | missingHeader
  | missingColumns (names : List String)
  | translation (line : Nat) (error : Gloss.ParseError)

namespace Error

def line? : Error → Option Nat
  | malformed error => some error.line
  | missingHeader => none
  | missingColumns _ => none
  | translation line _ => some line

def detail : Error → String
  | malformed error => "malformed CSV: " ++ error.fault.message
  | missingHeader => "missing header row"
  | missingColumns names => "missing header columns: " ++ ", ".intercalate names
  | translation _ error => error.message

def message (e : Error) : String :=
  match e.line? with
  | some line => "Line " ++ toString line ++ ": " ++ e.detail
  | none => e.detail

end Error

def isBlankRow (cells : List String) : Bool :=
  match cells with
  | [] => true
  | [cell] => cell.toList.all Unicode.isBlank
  | _ => false

/-- Adds empty cells up to the given number. -/
def pad (width : Nat) (cells : List String) : List String :=
  cells ++ List.replicate (width - cells.length) ""

/-- The places of the required columns in a header. -/
structure Layout where
  width : Nat
  id : Nat
  translation : Nat
  generator : Nat

def Layout.ofHeader (header : List String) : Layout where
  width := header.length
  id := header.idxOf "id"
  translation := header.idxOf "translation"
  generator := header.idxOf "generator"

/-- The cells that stand in no required column. -/
def Layout.userCells (layout : Layout) (cells : List String) : List String :=
  (cells.zipIdx.filter fun (_, i) =>
    i != layout.id && i != layout.translation && i != layout.generator).map Prod.fst

def readLexeme (layout : Layout) (record : Csv.Record) : Except Error Lexeme :=
  let cells := pad layout.width record.cells
  match Gloss.parse .implicitLiterals (cells.getD layout.translation "") with
  | .error error => .error (.translation record.line error)
  | .ok translation =>
      .ok {
        id := cells.getD layout.id ""
        translation := translation
        generator := cells.getD layout.generator ""
        userCells := layout.userCells cells
      }

def readLexemes (layout : Layout) : List Csv.Record → Except Error (List Lexeme)
  | [] => .ok []
  | record :: records => do
      let lexeme ← readLexeme layout record
      let lexemes ← readLexemes layout records
      .ok (lexeme :: lexemes)

def missingColumns (header : List String) : List String :=
  requiredColumns.filter fun name => !header.contains name

def parse (raw : String) : Except Error Lexicon := do
  let records ← (Csv.read raw).mapError .malformed
  match records.filter fun record => !isBlankRow record.cells with
  | [] => .error .missingHeader
  | header :: rows =>
      if missingColumns header.cells = [] then do
        let lexemes ← readLexemes (.ofHeader header.cells) rows
        .ok ⟨header.cells, lexemes⟩
      else
        .error (.missingColumns (missingColumns header.cells))

end Lexicon

end Interlinear
