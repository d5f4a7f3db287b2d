/-
Where the outputs of a run go.
-/
import MailMerge.CommandLine.Arguments
import MailMerge.Data.Definition
import MailMerge.Files.Disk

namespace MailMerge.CommandLine

open MailMerge.Data MailMerge.Files

/-- The file of one output: the one that its record names, else one named after the template and
the row. -/
def outputPath (template directory : Path) (row : Nat) (record : Record) : Path :=
  match record.get? outfileField with
  | none | some "" =>
    directory.join (.ofString (template.stem ++ "-" ++ toString row ++ template.suffix))
  | some name => directory.join (.ofString name)

/-- The files of the outputs, in the order of the records; rows are counted from one. -/
def outputPaths (template : Path) (d : Definition) (directory : Path) : List Path :=
  d.vars.records.mapIdx fun i record => outputPath template directory (i + 1) record

/-- The files of the outputs in the directory that was given. A blank one holds none. -/
def givenPaths (template : Path) (d : Definition) : Given Path → Except BlankFault (List Path)
  | .blank => if d.vars.rows = [] then .ok [] else .error .directory
  | .value directory => .ok (outputPaths template d directory)

/-- The directory that was given, as it is shown. -/
def Given.shown : Given Path → String
  | blank => blankShown
  | value directory => directory.shown

section

variable {m : Type → Type} [Monad m]

/-- Writes one output, in a directory that is made if it is not there. -/
def writeOutput (disk : Disk m) (path : Path) (text : String) : m (Except Files.Fault Unit) := do
  match ← disk.ensureDirectory path.parent with
  | .ok () => disk.write path text.toUTF8.toList
  | .error fault => return .error fault

/-- Writes outputs in order, up to the first that cannot be written. -/
def writeOutputs (disk : Disk m) : List (Path × String) → m (Except Files.Fault Unit)
  | [] => return .ok ()
  | (path, text) :: rest => do
    match ← writeOutput disk path text with
    | .ok () => writeOutputs disk rest
    | .error fault => return .error fault

end

end MailMerge.CommandLine
