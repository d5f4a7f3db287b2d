/-
A file system in memory: files and directories by their absolute names. A path is walked name by
name, and the first name that cannot be passed decides how the walk is refused.
-/
import MailMerge.Files.Disk

namespace MailMerge.Files

/-- The names that lead from the root to a place. -/
abbrev Location := List String

/-- What stands at a place. -/
inductive Entry
  | file (content : List UInt8)
  | directory
  deriving DecidableEq, Repr

/-- A file system, with the directory that relative paths start from. -/
structure Tree where
  entries : List (Location × Entry)
  start : Location
  deriving DecidableEq, Repr

namespace Tree

/-- What stands at a place; the root is always a directory. -/
def entry? (t : Tree) (l : Location) : Option Entry :=
  if l = [] then some .directory else (t.entries.find? (·.1 = l)).map (·.2)

/-- Puts something at a place. -/
def put (t : Tree) (l : Location) (entry : Entry) : Tree :=
  { t with entries := t.entries.filter (·.1 ≠ l) ++ [(l, entry)] }

/-- The most bytes that a name can have. -/
def nameLimit : Nat := 255

/-- The number of bytes from which on a path is too long. -/
def pathLimit : Nat := 4096

/-- The place that one name leads to from another place, whether or not something stands there. -/
def stepTo (t : Tree) (l : Location) (name : String) : Except OsError Location :=
  if t.entry? l ≠ some .directory then .error .notADirectory
  else if name = ".." then .ok l.dropLast
  else if nameLimit < name.utf8ByteSize then .error .nameTooLong
  else .ok (l ++ [name])

/-- The place that some names lead to. Something must stand at each place but the last. -/
def walk (t : Tree) (l : Location) : List String → Except OsError Location
  | [] => .ok l
  | [name] => t.stepTo l name
  | name :: rest => do
    let l ← t.stepTo l name
    if (t.entry? l).isNone then throw .noSuchFile
    t.walk l rest

/-- The place of a path. -/
def locate (t : Tree) (p : Path) : Except Fault Location :=
  if p.shown.toList.contains '\x00' then .error .nullCharacter
  else if pathLimit ≤ p.shown.utf8ByteSize then .error (.os .nameTooLong p)
  else (t.walk (if p.root = .relative then t.start else []) p.names).mapError (.os · p)

/-- The content of a file. -/
def read (t : Tree) (p : Path) : Except Fault (List UInt8) := do
  match t.entry? (← t.locate p) with
  | some (.file content) => return content
  | some .directory => throw (.os .isADirectory p)
  | none => throw (.os .noSuchFile p)

/-- Writes a file, in place of the one that is there. -/
def write (t : Tree) (p : Path) (content : List UInt8) : Except Fault Tree := do
  let l ← t.locate p
  match t.entry? l with
  | some .directory => throw (.os .isADirectory p)
  | _ => return t.put l (.file content)

/-- Makes a directory where nothing is. -/
def makeDirectory (t : Tree) (p : Path) : Except Fault Tree := do
  let l ← t.locate p
  match t.entry? l with
  | some _ => throw (.os .fileExists p)
  | none => return t.put l .directory

/-- Whether a path leads to a directory. -/
def isDirectory (t : Tree) (p : Path) : Bool :=
  match t.locate p with
  | .ok l => t.entry? l = some .directory
  | .error _ => false

/-- Puts a file at a place, and directories at the places that lead to it. -/
def putFile (t : Tree) (l : Location) (content : List UInt8) : Tree :=
  let above := (List.range l.length).map l.take
  (above.foldl (fun t l => if l = [] then t else t.put l .directory) t).put l (.file content)

/-- The files below the start, with the names that lead to them from there. -/
def files (t : Tree) : List (List String × List UInt8) :=
  t.entries.filterMap fun
    | (l, .file content) =>
      if t.start <+: l then some (l.drop t.start.length, content) else none
    | (_, .directory) => none

/-- The files below the start that are not in another tree with the same content. -/
def filesSince (t before : Tree) : List (List String × List UInt8) :=
  t.files.filter fun file => file ∉ before.files

/-- Keeps what a change of the tree leads to, if it leads to anything. -/
def change (f : Tree → Except Fault Tree) : StateM Tree (Except Fault Unit) := fun t =>
  match f t with
  | .ok t => (.ok (), t)
  | .error fault => (.error fault, t)

/-- The operations of a tree. -/
def disk : Disk (StateM Tree) where
  read p := return (← get).read p
  write p content := change (·.write p content)
  makeDirectory p := change (·.makeDirectory p)
  isDirectory p := return (← get).isDirectory p

end Tree

end MailMerge.Files
