/-
Loading what a run needs: the template, and the tables from files of comma separated values.
-/
import MailMerge.CommandLine.Arguments
import MailMerge.Data.Csv
import MailMerge.Files.Disk
import MailMerge.Text.Utf8

namespace MailMerge.CommandLine

open MailMerge.Data MailMerge.Files MailMerge.Text

/-- Why a file cannot be loaded. -/
inductive LoadFault
  | blankPath
  | file (fault : Files.Fault)
  | encoding (fault : Utf8.Fault)
  | width (e : Csv.WidthFault)
  | csv (e : Csv.Fault)
  | namelessTable (path : Path)
  | duplicateTable (name : String) (path : Path)
  deriving DecidableEq, Repr

/-- The wording of what went wrong while loading. -/
def LoadFault.message : LoadFault → String
  | blankPath => BlankFault.path.message
  | file fault => fault.message
  | encoding fault => fault.message
  | width e => e.message
  | csv e => e.message
  | namelessTable path =>
    "path \x60" ++ path.shown ++ "\x60 is missing a filename, which is needed to name the table"
  | duplicateTable name path =>
    "Duplicate table name \x60" ++ name ++ s!"\x60 (from {path.shown})"

/-! ## Files -/

/-- The text of a template file, with line feeds for all line ends. -/
def templateOfBytes (bytes : List UInt8) : Except LoadFault String := do
  return String.ofList (unifyLineEnds (← (Utf8.decode bytes).mapError .encoding))

/-- The lines that can be told before a fault: all but one that the fault may belong to. -/
def linesBeforeFault (text : List Char) : List (List Char) :=
  let lines := cutLines .universal text
  if text.getLast? = some '\n' then lines else lines.dropLast

/-- The table of a file. Lines end as they do on any system. What is wrong with a line wins over a
fault in the encoding behind it. -/
def tableOfBytes (name : String) (bytes : List UInt8) : Except LoadFault Table :=
  match Utf8.decodePieces .empty bytes with
  | (text, none) =>
    (Csv.tableOfLines name (cutLines .universal text)).mapError fun
      | .width e => .width e
      | .csv e => .csv e
  | (text, some fault) => do
    let (rows, open?) := Csv.rowsFrom 0 .start (linesBeforeFault text)
    let _ ← (Csv.tableOfRows name rows).mapError .width
    match open? with
    | .error e => throw (.csv e)
    | .ok _ => throw (.encoding fault)

/-! ## Definitions -/

section

variable {m : Type → Type} [Monad m]

/-- Loads the table of a file. -/
def loadTable (disk : Disk m) (name : String) : Given Path → m (Except LoadFault Table)
  | .blank => return .error .blankPath
  | .value path => do
    match ← disk.read path with
    | .ok bytes => return tableOfBytes name bytes
    | .error fault => return .error (.file fault)

/-- Loads tables, each named after its file, behind those that are loaded already. -/
def loadTables (disk : Disk m) (loaded : List (String × Table)) :
    List (Given Path) → m (Except LoadFault (List (String × Table)))
  | [] => return .ok loaded
  | .blank :: _ => return .error .blankPath
  | .value path :: paths => do
    if path.stem = "" then return .error (.namelessTable path)
    else if (valueOf? path.stem loaded).isSome then
      return .error (.duplicateTable path.stem path)
    else
      match ← loadTable disk path.stem (.value path) with
      | .ok table => loadTables disk (loaded ++ [(path.stem, table)]) paths
      | .error fault => return .error fault

/-- Loads a definition. The vars table is loaded last. -/
def loadDefinition (disk : Disk m) (vars : Given Path) (tables : List (Given Path)) :
    m (Except LoadFault Definition) := do
  match ← loadTables disk [] tables with
  | .error fault => return .error fault
  | .ok tables =>
    match ← loadTable disk varsName vars with
    | .ok vars => return .ok ⟨vars, tables⟩
    | .error fault => return .error fault

end

end MailMerge.CommandLine
