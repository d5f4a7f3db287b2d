/-
Comma separated values. A text comes as lines; a row usually ends with its line, but a quoted cell
can hold line ends. A quote opens a quoted cell only at the start of a cell, and is written twice
inside; what follows the closing quote is added as it is.
-/
import MailMerge.Data.Definition
import MailMerge.Text.Lines

namespace MailMerge.Data.Csv

/-! ## Cells -/

/-- Where in a row the reading stands. -/
inductive Spot
  | rowStart
  | cellStart
  | plain
  | quoted
  | quoteInQuoted
  | lineEnd
  deriving DecidableEq, Repr

/-- Why a text is not comma separated values. -/
inductive Fault
  | cellTooLong
  | strayLineEnd
  deriving DecidableEq, Repr

/-- The most characters that a cell can have. -/
def cellLimit : Nat := 131072

/-- The wording of a fault in a text. -/
def Fault.message : Fault → String
  | cellTooLong => s!"field larger than field limit ({cellLimit})"
  | strayLineEnd =>
    "new-line character seen in unquoted field - do you need to open the file in " ++
      "universal-newline mode?"

/-- A row while it is read: the cells that are complete, the last one first, and the characters of
the one that is not, the last one first, with their number. -/
structure Partial where
  spot : Spot
  cells : List String
  cell : List Char
  size : Nat
  deriving Repr

namespace Partial

/-- A row of which nothing is read. -/
def start : Partial := ⟨.rowStart, [], [], 0⟩

/-- Completes the cell. -/
def save (p : Partial) (spot : Spot) : Partial :=
  ⟨spot, String.ofList p.cell.reverse :: p.cells, [], 0⟩

/-- Adds a character to the cell. -/
def add (p : Partial) (spot : Spot) (c : Char) : Except Fault Partial :=
  if p.size < cellLimit then .ok { p with spot, cell := c :: p.cell, size := p.size + 1 }
  else .error .cellTooLong

/-- Whether a character ends a line. -/
def isLineEnd (c : Char) : Bool :=
  c = '\n' || c = '\r'

/-- The row after one more character. -/
def feed (p : Partial) (c : Char) : Except Fault Partial :=
  match p.spot with
  | .rowStart => if isLineEnd c then .ok { p with spot := .lineEnd } else cellStart p
  | .cellStart => cellStart p
  | .plain =>
    if isLineEnd c then .ok (p.save .lineEnd)
    else if c = ',' then .ok (p.save .cellStart)
    else p.add .plain c
  | .quoted => if c = '"' then .ok { p with spot := .quoteInQuoted } else p.add .quoted c
  | .quoteInQuoted =>
    if c = '"' then p.add .quoted c
    else if c = ',' then .ok (p.save .cellStart)
    else if isLineEnd c then .ok (p.save .lineEnd)
    else p.add .plain c
  | .lineEnd => if isLineEnd c then .ok p else .error .strayLineEnd
where
  /-- The first character of a cell. -/
  cellStart (p : Partial) : Except Fault Partial :=
    if isLineEnd c then .ok (p.save .lineEnd)
    else if c = '"' then .ok { p with spot := .quoted }
    else if c = ',' then .ok (p.save .cellStart)
    else p.add .plain c

/-- The row at the end of a line. It is complete unless a quoted cell is open. -/
def endLine (p : Partial) : Partial :=
  match p.spot with
  | .rowStart | .lineEnd => { p with spot := .rowStart }
  | .quoted => p
  | .cellStart | .plain | .quoteInQuoted => p.save .rowStart

/-- The row after one more line. -/
def feedLine (p : Partial) (line : List Char) : Except Fault Partial := do
  return (← line.foldlM feed p).endLine

/-- The cells that are complete. -/
def row (p : Partial) : List String :=
  p.cells.reverse

end Partial

/-! ## Rows -/

/-- A row with the number of the line in which it ends. -/
structure NumberedRow where
  line : Nat
  cells : List String
  deriving DecidableEq, Repr

/-- The rows of some lines, up to the first fault, and the row that is left open, with the number of
its last line. `line` lines were read before these, and left the row `p` open. -/
def rowsFrom (line : Nat) (p : Partial) :
    List (List Char) → List NumberedRow × Except Fault (Nat × Partial)
  | [] => ([], .ok (line, p))
  | chars :: lines =>
    match p.feedLine chars with
    | .error fault => ([], .error fault)
    | .ok p =>
      if p.spot = .rowStart then
        let more := rowsFrom (line + 1) .start lines
        (⟨line + 1, p.row⟩ :: more.1, more.2)
      else rowsFrom (line + 1) p lines

/-- The row that is left open at the end of a text: only a quoted cell keeps a row open. -/
def lastRow (line : Nat) (p : Partial) : List NumberedRow :=
  if p.spot = .quoted then [⟨line, (p.save .rowStart).row⟩] else []

/-- The rows of all lines of a text, up to the first fault. -/
def rows (lines : List (List Char)) : List NumberedRow × Option Fault :=
  match rowsFrom 0 .start lines with
  | (rows, .ok (line, p)) => (rows ++ lastRow line p, none)
  | (rows, .error fault) => (rows, some fault)

/-! ## Tables -/

/-- A row that does not have as many cells as the header. -/
structure WidthFault where
  table : String
  line : Nat
  expected : Nat
  found : Nat
  deriving DecidableEq, Repr

/-- The wording of a wrong width. -/
def WidthFault.message (e : WidthFault) : String :=
  "Table \x60" ++ e.table ++
    s!"\x60 line {e.line}: expected {e.expected} fields, found {e.found}"

/-- Why no table can be made of a text. -/
inductive TableFault
  | width (e : WidthFault)
  | csv (e : Fault)
  deriving DecidableEq, Repr

/-- The wording of what keeps a text from being a table. -/
def TableFault.message : TableFault → String
  | width e => e.message
  | csv e => e.message

/-- The records of the rows below a header; blank rows are passed over. -/
def recordsOf (table : String) (header : List String) :
    List NumberedRow → Except WidthFault (List Record)
  | [] => .ok []
  | row :: rows =>
    if row.cells = [] then recordsOf table header rows
    else if row.cells.length ≠ header.length then
      .error ⟨table, row.line, header.length, row.cells.length⟩
    else do return .ofFields (header.zip row.cells) :: (← recordsOf table header rows)

/-- The table of some rows, of which the first one is the header. -/
def tableOfRows (name : String) : List NumberedRow → Except WidthFault Table
  | [] => .ok (.ofRecords name [])
  | header :: rows => (recordsOf name header.cells rows).map (.ofRecords name)

/-- The table of some lines. A row of a wrong width wins over a fault behind it. -/
def tableOfLines (name : String) (lines : List (List Char)) : Except TableFault Table := do
  let (rows, fault) := rows lines
  let table ← (tableOfRows name rows).mapError .width
  match fault with
  | none => return table
  | some e => throw (.csv e)

/-- The table of a text, of which lines end after line feeds only. -/
def tableOfText (name text : String) : Except TableFault Table :=
  tableOfLines name (Text.cutLines .lineFeed text.toList)

/-- The definition of texts. The vars table is read first. -/
def definitionOfTexts (vars : String) (tables : List (String × String)) :
    Except TableFault Definition := do
  let vars ← tableOfText varsName vars
  let tables ← tables.mapM fun (name, text) => do return (name, ← tableOfText name text)
  return ⟨vars, tables⟩

end MailMerge.Data.Csv
