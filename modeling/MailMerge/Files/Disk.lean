/-
What a run needs of a file system, and how the system refuses.
-/
import MailMerge.Files.Path
import MailMerge.Text.Quoted

namespace MailMerge.Files

/-- Why the system refuses. -/
inductive OsError
  | noSuchFile
  | permissionDenied
  | fileExists
  | notADirectory
  | isADirectory
  | nameTooLong
  | other (code : Nat) (text : String)
  deriving DecidableEq, Repr

namespace OsError

/-- The errors that are told apart here. -/
def named : List OsError :=
  [noSuchFile, permissionDenied, fileExists, notADirectory, isADirectory, nameTooLong]

/-- The number of an error. -/
def code : OsError → Nat
  | noSuchFile => 2
  | permissionDenied => 13
  | fileExists => 17
  | notADirectory => 20
  | isADirectory => 21
  | nameTooLong => 36
  | other code _ => code

/-- The system's own words for an error. -/
def text : OsError → String
  | noSuchFile => "No such file or directory"
  | permissionDenied => "Permission denied"
  | fileExists => "File exists"
  | notADirectory => "Not a directory"
  | isADirectory => "Is a directory"
  | nameTooLong => "File name too long"
  | other _ text => text

end OsError

/-- Why a path cannot be used: the system refuses, or the path has a null character. -/
inductive Fault
  | os (e : OsError) (path : Path)
  | nullCharacter
  deriving DecidableEq, Repr

/-- The wording of why a path cannot be used. -/
def Fault.message : Fault → String
  | os e path => s!"[Errno {e.code}] {e.text}: {Text.quoted path.shown}"
  | nullCharacter => "embedded null byte"

/-- The operations of a file system. -/
structure Disk (m : Type → Type) where
  read : Path → m (Except Fault (List UInt8))
  write : Path → List UInt8 → m (Except Fault Unit)
  makeDirectory : Path → m (Except Fault Unit)
  isDirectory : Path → m Bool

namespace Disk

variable {m : Type → Type} [Monad m]

/-- What became of a directory that could not be made: it is no fault if it is there. -/
def settle (disk : Disk m) (p : Path) (fault : Fault) : m (Except Fault Unit) := do
  match fault with
  | .nullCharacter => return .error fault
  | .os _ _ => return if ← disk.isDirectory p then .ok () else .error fault

/-- Makes a directory whose parent is there, unless it is there itself. -/
def ensureLast (disk : Disk m) (p : Path) : m (Except Fault Unit) := do
  match ← disk.makeDirectory p with
  | .ok () => return .ok ()
  | .error (.os .noSuchFile path) => return .error (.os .noSuchFile path)
  | .error fault => disk.settle p fault

/-- Makes a directory of some names, given from the last one to the first, and the directories that
lead to it, unless they are there. -/
def ensureNames (disk : Disk m) (root : Root) : List String → m (Except Fault Unit)
  | [] => disk.ensureLast ⟨root, []⟩
  | name :: above => do
    let p : Path := ⟨root, (name :: above).reverse⟩
    match ← disk.makeDirectory p with
    | .ok () => return .ok ()
    | .error (.os .noSuchFile _) =>
      match ← disk.ensureNames root above with
      | .ok () => disk.ensureLast p
      | .error fault => return .error fault
    | .error fault => disk.settle p fault

/-- Makes a directory and those that lead to it, unless they are there. -/
def ensureDirectory (disk : Disk m) (p : Path) : m (Except Fault Unit) :=
  disk.ensureNames p.root p.names.reverse

end Disk

end MailMerge.Files
