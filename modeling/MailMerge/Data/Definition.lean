/-
The data that a template is merged with: the vars table, with one output for each of its records,
and the tables that lookups lead to.
-/
import MailMerge.Data.Table

namespace MailMerge.Data

/-- The vars table and the other tables by their names. -/
structure Definition where
  vars : Table
  tables : List (String × Table)
  deriving DecidableEq, Repr

/-- The name of the vars table. -/
def varsName : String := "vars"

namespace Definition

/-- A definition of records in memory. -/
def ofRecords (vars : List Record) (tables : List (String × List Record)) : Definition where
  vars := .ofRecords varsName vars
  tables := tables.map fun (name, records) => (name, .ofRecords name records)

/-- The table that lookups call `name`. -/
def table? (d : Definition) (name : String) : Option Table :=
  valueOf? name d.tables

/-- Changes the table called `name`. -/
def modifyTable (d : Definition) (name : String) (f : Table → Table) : Definition :=
  { d with tables := d.tables.map fun (n, t) => (n, if n = name then f t else t) }

/-- The definition after records were looked for in the named tables. -/
def keepIndexes (d : Definition) (names : List String) : Definition :=
  { d with tables := d.tables.map fun (n, t) => (n, if n ∈ names then t.keepIndex else t) }

/-- The definition with no index kept. -/
def withoutIndexes (d : Definition) : Definition where
  vars := d.vars.withoutIndex
  tables := d.tables.map fun (n, t) => (n, t.withoutIndex)

/-- A definition built anew from the records. -/
def rebuilt (d : Definition) : Definition where
  vars := d.vars.rebuilt
  tables := d.tables.map fun (n, t) => (n, t.rebuilt)

end Definition

end MailMerge.Data
