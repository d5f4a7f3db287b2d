/-
Writing comma separated values: every cell in double quotes, a quote inside written twice, and every
line ended alike.
-/
import MailMerge.Data.Record

namespace MailMerge.Data

/-- The record with the given fields, in their order. -/
def Record.inOrder (names : List String) (r : Record) : Record :=
  ⟨names.map fun name => (name, (r.get? name).getD "")⟩

/-- The texts of all fields. -/
def Record.texts (r : Record) : List String :=
  r.fields.map (·.2)

namespace Csv

/-- How written lines end. -/
inductive LineEnd
  | lineFeed
  | both
  deriving DecidableEq, Repr

/-- The characters of a line end. -/
def LineEnd.chars : LineEnd → List Char
  | lineFeed => ['\n']
  | both => ['\r', '\n']

/-- A cell in double quotes. -/
def writeCell (cell : String) : List Char :=
  '"' :: cell.toList.flatMap (fun c => if c = '"' then ['"', '"'] else [c]) ++ ['"']

/-- The cells of a row, with commas between them. -/
def writeCells : List String → List Char
  | [] => []
  | [cell] => writeCell cell
  | cell :: cells => writeCell cell ++ ',' :: writeCells cells

/-- A row, with the line end behind it. -/
def writeRow (lineEnd : LineEnd) (cells : List String) : List Char :=
  writeCells cells ++ lineEnd.chars

/-- The text of a header and the rows below it. -/
def write (lineEnd : LineEnd) (header : List String) (rows : List (List String)) : String :=
  String.ofList ((header :: rows).flatMap (writeRow lineEnd))

/-- The text of some records that have the given fields. -/
def writeRecords (lineEnd : LineEnd) (names : List String) (records : List Record) : String :=
  write lineEnd names (records.map fun r => (r.inOrder names).texts)

end Csv

end MailMerge.Data
