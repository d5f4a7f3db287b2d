/-
The program: one run on the file system of the machine. Log events and complaints go to the standard
error stream, outputs to the standard output or to files.
-/
import MailMerge.CommandLine.Run
import MailMerge.Log.Line

namespace MailMerge.CommandLine

open MailMerge.Files

/-! ## The file system of the machine -/

/-- The number of a system error; some operations report it as a negative number of 32 bits. -/
def systemCode (n : UInt32) : Nat :=
  if n.toNat < 0x80000000 then n.toNat else 0x100000000 - n.toNat

/-- The error of a number, with a wording for those that have no name here. -/
def refusal (n : UInt32) (text : String) : OsError :=
  (OsError.named.find? (·.code = systemCode n)).getD (.other (systemCode n) text)

/-- Why the system refused. -/
def systemFault : IO.Error → OsError
  | .alreadyExists _ n text | .invalidArgument _ n text | .permissionDenied _ n text
  | .resourceExhausted _ n text | .inappropriateType _ n text | .noSuchThing _ n text
  | .noFileOrDirectory _ n text | .interrupted _ n text | .otherError n text
  | .resourceBusy n text | .resourceVanished n text | .unsupportedOperation n text
  | .hardwareFault n text | .unsatisfiedConstraints n text | .illegalOperation n text
  | .protocolError n text | .timeExpired n text => refusal n text
  | .unexpectedEof => .other 0 "unexpected end of file"
  | .userError text => .other 0 text

/-- Does something with the file at a path. -/
def attempt (p : Path) (act : String → IO α) : IO (Except Files.Fault α) := do
  if p.shown.toList.contains '\x00' then return .error .nullCharacter
  try
    return .ok (← act p.shown)
  catch e => return .error (.os (systemFault e) p)

/-- The file system of the machine. -/
def systemDisk : Disk IO where
  read p := attempt p fun name => return (← IO.FS.readBinFile name).toList
  write p content := attempt p fun name => IO.FS.writeBinFile name ⟨content.toArray⟩
  makeDirectory p := attempt p fun name => IO.FS.createDir name
  isDirectory p := do
    match ← attempt p fun name => return (← (← IO.FS.realPath name).isDir) with
    | .ok there => return there
    | .error _ => return false

/-! ## One run -/

/-- The variables of the environment that matter to the log. -/
def readEnvironment : IO Log.Environment :=
  return ⟨← IO.getEnv "POPVARS_DEBUG", ← IO.getEnv "POPVARS_LOG_LEVEL"⟩

/-- Prints what a run has to say. A crash has no exit code of its own. -/
def report (o : Options) (r : Run) : IO UInt32 := do
  for event in r.events do
    IO.eprintln (if o.logFormat = .json then event.json else event.line)
  IO.print r.output
  match r.ending with
  | .crash c =>
    IO.eprintln c.message
    return 1
  | ending =>
    IO.eprint ending.report
    return (ending.code?.getD 1).toUInt32

/-- Prints why there is no run. -/
def reportStop (s : Stop) : IO UInt32 := do
  IO.print s.output
  if s.complaint ≠ "" then IO.eprintln s.complaint
  return s.code.toUInt32

end MailMerge.CommandLine

open MailMerge.CommandLine in
/-- Runs the program with the arguments of the command line. -/
def main (arguments : List String) : IO UInt32 := do
  match Options.ofArguments arguments with
  | .error stop => reportStop stop
  | .ok options => report options (← run systemDisk (← readEnvironment) options)
