/-
Sessions: templates and definitions under names, kept from one step to the next. A template that is
refused leaves the one of its name in place, and the tables of a definition keep their indexes.
-/
import MailMerge.Merge.Batch

namespace MailMerge.Merge

open MailMerge.Data MailMerge.Markup

/-- The templates and definitions so far. -/
structure Session where
  templates : List (String × Template)
  definitions : List (String × Definition)

namespace Session

/-- The session before its first step. -/
def empty : Session := ⟨[], []⟩

/-- Takes in a template. -/
def compile (s : Session) (name source : String) : Except ParseError Template × Session :=
  match Template.compile source with
  | .ok t => (.ok t, { s with templates := setValue name t s.templates })
  | .error e => (.error e, s)

/-- Takes in a definition. -/
def define (s : Session) (name : String) (d : Definition) : Session :=
  { s with definitions := setValue name d s.definitions }

/-- The definition called `name`; without one there are no records at all. -/
def definition (s : Session) (name : String) : Definition :=
  (valueOf? name s.definitions).getD (.ofRecords [] [])

/-- Renders a template for one record. -/
def render (s : Session) (t : Template) (record : Record) (definition : String) :
    Except ResolutionError String × Session :=
  let d := s.definition definition
  let answer := t.render record d
  (answer.result, s.define definition (d.keepIndexes answer.tables))

/-- Renders a template for every record of the vars table. -/
def renderAll (s : Session) (t : Template) (definition : String) :
    Except RenderError (List String) × Session :=
  let d := s.definition definition
  let batch := t.renderBatch d
  (batch.result, s.define definition (d.keepIndexes batch.tables))

/-- Adds a record to a table, or to the vars table. -/
def append (s : Session) (definition : String) (table : Option String) (record : Record) :
    Nat × Session :=
  let d := s.definition definition
  match table with
  | none =>
    let d := { d with vars := d.vars.append record }
    (d.vars.size, s.define definition d)
  | some name =>
    let d := d.modifyTable name (·.append record)
    (((d.table? name).map Table.size).getD 0, s.define definition d)

end Session

end MailMerge.Merge
