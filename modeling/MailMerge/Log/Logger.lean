/-
Reading and rendering with a logger at hand, which is told of everything at the moment at which it
happens. It keeps what is grave enough to be shown and drops all else; whoever tells it of something
does not learn which.
-/
import MailMerge.Log

namespace MailMerge.Log

open MailMerge.Data MailMerge.Markup MailMerge.Merge

/-- A logger: the level from which on it shows events, and those that it has shown. -/
structure Logger where
  threshold : Level
  events : List Event
  deriving DecidableEq, Repr

/-- What is done with a logger at hand. -/
abbrev Logged := StateM Logger

namespace Logged

/-- Tells the logger of an event. -/
def tell (e : Event) : Logged Unit :=
  modify fun logger =>
    if logger.threshold ≤ e.level then { logger with events := logger.events ++ [e] } else logger

/-- Reads a template. -/
def compile (source : String) : ExceptT ParseError Logged Template := do
  let t ← ofExcept (Template.compile source)
  tell (.ofTemplate t)
  return t

/-- Renders a template for records, the first of which is row `row`. -/
def renderRows (t : Template) (d : Definition) (row : Nat) :
    List Record → ExceptT RenderError Logged (List String)
  | [] => return []
  | record :: rest => do
    match (t.render record d).result with
    | .error cause =>
      tell (.renderFailed row cause.message)
      throw ⟨row, cause⟩
    | .ok text =>
      tell (.renderedRecord row text.length)
      return text :: (← renderRows t d (row + 1) rest)

/-- Renders a template for every record of the vars table, in order. -/
def renderAll (t : Template) (d : Definition) : ExceptT RenderError Logged (List String) :=
  renderRows t d 1 d.vars.records

/-- Reads a template and renders it for every record of a definition. -/
def merge (source : String) (d : Definition) :
    ExceptT ParseError Logged (Except RenderError (List String)) := do
  let t ← compile source
  (renderAll t d).run

end Logged

end MailMerge.Log
