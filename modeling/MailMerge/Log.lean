/-
The log: what happened while templates were read and rendered, and how much of it is shown.
-/
import MailMerge.Merge.Batch

namespace MailMerge.Log

open MailMerge.Merge

/-! ## Levels -/

/-- How grave something is; graver is greater. -/
abbrev Level := Nat

namespace Level

/-- The level of what happens in passing. -/
def debug : Level := 10

/-- The level of what a run has done. -/
def info : Level := 20

/-- The level from which on events are shown unless something else is asked for. -/
def warning : Level := 30

/-- The level of what has failed. -/
def error : Level := 40

/-- The gravest level that has a name. -/
def critical : Level := 50

/-- The names of the levels. -/
def named : List (String × Level) :=
  [("CRITICAL", critical), ("FATAL", critical), ("ERROR", error), ("WARN", warning),
    ("WARNING", warning), ("INFO", info), ("DEBUG", debug), ("NOTSET", 0)]

/-- A character in upper case, as far as names of levels can tell. -/
def upper (c : Char) : Char :=
  if c = '\u0131' then 'I' else if c = '\u017f' then 'S' else c.toUpper

/-- The level of a name in any case; unknown names stand for `warning`. -/
def ofName (name : String) : Level :=
  (Data.valueOf? (String.ofList (name.toList.map upper)) named).getD warning

end Level

/-- The variables of the environment that matter to the log. -/
structure Environment where
  debug : Option String
  level : Option String
  deriving DecidableEq, Repr

namespace Environment

/-- Whether the environment asks for everything. -/
def debugging (env : Environment) : Bool :=
  env.debug.any (· ≠ "")

/-- The level that is asked for by name, unless the environment asks for everything. -/
def levelOf (env : Environment) (name : String) : Level :=
  if env.debugging then .debug else .ofName name

/-- The level that the environment asks for. -/
def defaultLevel (env : Environment) : Level :=
  env.levelOf (env.level.getD "warning")

/-- The level from which on events are shown: of the name that is given, else the default. -/
def threshold (env : Environment) (name : Option String) : Level :=
  match name with
  | some name => env.levelOf name
  | none => env.defaultLevel

end Environment

/-! ## Events -/

/-- Something that happened. -/
inductive Event
  | loadedDefinition (rows : Nat) (fields : List String) (tables : List (String × List String))
  | compiledTemplate (nodes loops conditionals : Nat)
  | renderedRecord (row length : Nat)
  | renderFailed (row : Nat) (error : String)
  | wroteOutputs (count : Nat) (directory : String)
  deriving DecidableEq, Repr

/-- A value in an event. -/
inductive Value
  | number (n : Nat)
  | text (s : String)
  | texts (ss : List String)
  | tables (fields : List (String × List String))
  deriving DecidableEq, Repr

namespace Event

/-- What an event is called. -/
def name : Event → String
  | loadedDefinition .. => "loaded definition"
  | compiledTemplate .. => "compiled template"
  | renderedRecord .. => "rendered record"
  | renderFailed .. => "render failed"
  | wroteOutputs .. => "wrote outputs"

/-- How grave an event is. -/
def level : Event → Level
  | loadedDefinition .. | compiledTemplate .. | renderedRecord .. => .debug
  | renderFailed .. => .error
  | wroteOutputs .. => .info

/-- The level of an event, as it is written in the log. -/
def levelName : Event → String
  | loadedDefinition .. | compiledTemplate .. | renderedRecord .. => "debug"
  | renderFailed .. => "error"
  | wroteOutputs .. => "info"

/-- The values that an event is logged with. -/
def values : Event → List (String × Value)
  | loadedDefinition rows fields tables =>
    [("vars", .number rows), ("vars_fields", .texts fields), ("tables", .tables tables)]
  | compiledTemplate nodes loops conditionals =>
    [("nodes", .number nodes), ("loops", .number loops), ("conditionals", .number conditionals)]
  | renderedRecord row length => [("row", .number row), ("length", .number length)]
  | renderFailed row error => [("row", .number row), ("error", .text error)]
  | wroteOutputs count directory => [("count", .number count), ("out_dir", .text directory)]

/-- The event of reading a template. -/
def ofTemplate (t : Template) : Event :=
  compiledTemplate t.pieces.length (Piece.loopsIn t.pieces) (Piece.conditionalsIn t.pieces)

/-- The event of loading a definition. -/
def ofDefinition (d : Data.Definition) : Event :=
  loadedDefinition d.vars.size d.vars.fields (d.tables.map fun (name, t) => (name, t.fields))

/-- The events of a batch: one for each output, and one for the failure. -/
def ofBatch (b : Batch) : List Event :=
  b.outputs.mapIdx (fun i output => renderedRecord (i + 1) output.length) ++
    b.failure.toList.map fun e => renderFailed e.row e.cause.message

end Event

/-- The events of reading a template and rendering it for every record. -/
def trace (t : Template) (d : Data.Definition) : List Event :=
  .ofTemplate t :: Event.ofBatch (t.renderBatch d)

/-- The events that are grave enough to be shown. -/
def shown (threshold : Level) (events : List Event) : List Event :=
  events.filter (threshold ≤ ·.level)

end MailMerge.Log
