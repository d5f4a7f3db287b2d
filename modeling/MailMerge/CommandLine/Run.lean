/-
One run of the command line. The phases follow each other, and the first that fails ends the run:
the level of the log is settled, the template and the data are loaded, the template is read, all
rows are rendered, and only then is anything printed or written.
-/
import MailMerge.CommandLine.Arguments
import MailMerge.CommandLine.Load
import MailMerge.CommandLine.Output
import MailMerge.Log

namespace MailMerge.CommandLine

open MailMerge.Data MailMerge.Files MailMerge.Markup MailMerge.Merge

/-- What ends a run without an exit code of its own. -/
inductive Crash
  | encoding (fault : Text.Utf8.Fault)
  | nullCharacter
  | csv (e : Csv.Fault)
  | value (e : ValueFault)
  | blank (fault : BlankFault)
  deriving DecidableEq, Repr

/-- The wording of a crash. -/
def Crash.message : Crash → String
  | encoding fault => fault.message
  | nullCharacter => Files.Fault.nullCharacter.message
  | csv e => e.message
  | value e => e.message
  | blank fault => fault.message

/-- How a run ends. -/
inductive Ending
  | done
  | loadError (message : String)
  | syntaxError (message : String)
  | renderError (message : String)
  | writeError (message : String)
  | crash (c : Crash)
  deriving DecidableEq, Repr

namespace Ending

/-- The exit code of an ending that has one. -/
def code? : Ending → Option Nat
  | done => some 0
  | loadError _ | writeError _ => some 1
  | syntaxError _ => some 2
  | renderError _ => some 3
  | crash _ => none

/-- The message of an ending, as it is printed for the user. -/
def report : Ending → String
  | done | crash _ => ""
  | loadError message | syntaxError message | renderError message | writeError message =>
    message ++ "\n"

end Ending

/-- What a run has printed and logged, and how it ended. -/
structure Run where
  ending : Ending
  output : String
  events : List Log.Event
  deriving DecidableEq, Repr

section

variable {m : Type → Type} [Monad m]

/-- Loads the template. -/
def loadTemplate (disk : Disk m) (path : Path) : m (Except Ending String) := do
  match ← disk.read path with
  | .error .nullCharacter => return .error (.crash .nullCharacter)
  | .error (.os e path) =>
    return .error (.loadError ("Error: Could not read template: " ++ (Files.Fault.os e path).message))
  | .ok bytes =>
    match templateOfBytes bytes with
    | .ok source => return .ok source
    | .error (.encoding fault) => return .error (.crash (.encoding fault))
    | .error fault => return .error (.loadError fault.message)

/-- How a run ends whose data cannot be loaded. -/
def Ending.ofLoadFault : LoadFault → Ending
  | .csv e => .crash (.csv e)
  | .blankPath => .crash (.blank .path)
  | fault => .loadError ("Error loading data: " ++ fault.message)

/-- How a run ends whose outputs cannot all be written. -/
def Ending.ofWriteFault : Files.Fault → Ending
  | .nullCharacter => .crash .nullCharacter
  | .os e path => .writeError ("Error writing output: " ++ (Files.Fault.os e path).message)

/-- How a run ends whose template is refused. -/
def Ending.ofParseError (template : Path) : ParseError → Ending
  | .syntaxError e => .syntaxError s!"Error: {template.shown}: {e.message}"
  | .valueError e => .crash (.value e)

/-- Prints the outputs, or writes them to files. -/
def deliver (disk : Disk m) (o : Options) (d : Definition) (outputs : List String)
    (events : List Log.Event) : m Run := do
  match o.out with
  | none => return ⟨.done, String.intercalate "\n" outputs ++ "\n", events⟩
  | some directory =>
    match givenPaths o.template d directory with
    | .error fault => return ⟨.crash (.blank fault), "", events⟩
    | .ok paths =>
      match ← writeOutputs disk (paths.zip outputs) with
      | .error fault => return ⟨.ofWriteFault fault, "", events⟩
      | .ok () => return ⟨.done, "", events ++ [.wroteOutputs outputs.length directory.shown]⟩

/-- Reads the template, renders all rows and delivers the outputs. -/
def merge (disk : Disk m) (o : Options) (source : String) (d : Definition) : m Run := do
  let loaded : List Log.Event := [.ofDefinition d]
  match Template.compile source with
  | .error e => return ⟨.ofParseError o.template e, "", loaded⟩
  | .ok t =>
    let events := loaded ++ Log.trace t d
    match t.renderAll d with
    | .error e => return ⟨.renderError s!"Error: {e.message}", "", events⟩
    | .ok outputs => deliver disk o d outputs events

/-- Does what the options ask for. All events are recorded, of whatever level. -/
def perform (disk : Disk m) (o : Options) : m Run := do
  match ← loadTemplate disk o.template with
  | .error ending => return ⟨ending, "", []⟩
  | .ok source =>
    match ← loadDefinition disk o.vars o.tables with
    | .error fault => return ⟨.ofLoadFault fault, "", []⟩
    | .ok d => merge disk o source d

/-- The level from which on events are shown. A blank level is no fault where the environment asks
for everything. -/
def threshold (env : Log.Environment) : Option (Given String) → Except BlankFault Log.Level
  | none => .ok env.defaultLevel
  | some (.value name) => .ok (env.levelOf name)
  | some .blank => if env.debugging then .ok .debug else .error .level

/-- One run in an environment. The events are those that are shown. -/
def run (disk : Disk m) (env : Log.Environment) (o : Options) : m Run := do
  match threshold env o.logLevel with
  | .error fault => return ⟨.crash (.blank fault), "", []⟩
  | .ok level =>
    let r ← perform disk o
    return { r with events := Log.shown level r.events }

end

/-! ## Usage -/

/-- The name of the program. -/
def programName : String := "popvars"

/-- The text that `--version` prints. -/
def versionText : String := programName ++ " 0.1.0\n"

/-- The text that `--help` prints. -/
def helpText : String :=
  "usage: popvars [-h] -v VARS [-t TABLES] [-o OUT]\n" ++
  "               [--log-level \x7bdebug,info,warning,error\x7d]\n" ++
  "               [--log-format \x7btext,json\x7d] [--version]\n" ++
  "               template\n\n" ++
  "Populate a template once for every row of a vars table\n\n" ++
  "positional arguments:\n" ++
  "  template              Path to the template text file\n\n" ++
  "options:\n" ++
  "  -h, --help            show this help message and exit\n" ++
  "  -v VARS, --vars VARS  Path to a CSV file of vars; one output is rendered per\n" ++
  "                        row\n" ++
  "  -t TABLES, --table TABLES, --types TABLES\n" ++
  "                        Path to a CSV lookup table, named after its file stem\n" ++
  "                        (repeatable)\n" ++
  "  -o OUT, --out OUT     Directory to write outputs to (default: print to\n" ++
  "                        stdout)\n" ++
  "  --log-level \x7bdebug,info,warning,error\x7d\n" ++
  "                        Log level for stderr diagnostics (default: warning)\n" ++
  "  --log-format \x7btext,json\x7d\n" ++
  "                        Format of stderr diagnostics (default: text)\n" ++
  "  --version             show program's version number and exit\n"

namespace Stop

/-- The exit code of a run that stops at its arguments. -/
def code : Stop → Nat
  | help | version => 0
  | fault _ => 2

/-- What is printed as output. -/
def output : Stop → String
  | help => helpText
  | version => versionText
  | fault _ => ""

/-- The line that says what is wrong. -/
def complaint : Stop → String
  | help | version => ""
  | fault f => s!"{programName}: error: {f.message}"

end Stop

end MailMerge.CommandLine
