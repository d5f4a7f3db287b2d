/-
What a loop does, one thing after the other, while it goes over its table. It asks whether a record
is kept only when it comes to it, and goes on only when it is asked for the next one; so everything
that it did up to some record shows in front of it.
-/
import MailMerge.Merge.Render

namespace MailMerge.Merge

open MailMerge.Data MailMerge.Markup

/-- One thing that a loop does: it looks at its condition for a record, it gives a record out, or it
fails. -/
inductive Turn
  | asks (record : Record)
  | yields (record : Record)
  | fails (e : ResolutionError)
  deriving DecidableEq, Repr

namespace Turn

/-- The record that is given out. -/
def yielded? : Turn → Option Record
  | yields record => some record
  | asks _ | fails _ => none

/-- The error that ends the loop. -/
def failure? : Turn → Option ResolutionError
  | fails e => some e
  | asks _ | yields _ => none

/-- What a loop does over records. One that has the excluded identity is passed by. -/
def along (excluded : Option String) (condition : Option (Record → Except ResolutionError Bool)) :
    List Record → List Turn
  | [] => []
  | record :: rest =>
    if excluded.isSome ∧ record.id? = excluded then along excluded condition rest
    else
      match condition with
      | none => yields record :: along excluded condition rest
      | some holds =>
        asks record ::
          match holds record with
          | .error e => [fails e]
          | .ok true => yields record :: along excluded condition rest
          | .ok false => along excluded condition rest

/-- What a loop needs before it goes: its table, and the identity that it leaves out, if it leaves
one out. Then every record must have an identity. -/
def start (binding : Binding) (record : Record) (scope : Scope) (d : Definition) :
    Consulted (Table × Option String) := do
  let table ← findTable d binding.table
  match binding.lookup? with
  | none => return (table, none)
  | some lookup =>
    let key ← exclusionKey lookup record scope
    let _ ← Consulted.from? binding.table (table.find? key)
    return (table, some key)

/-- The condition of a loop, asked of a record: it starts there, with the name of the loop bound to
it. -/
def condition (name : String) (binding : Binding) (scope : Scope) (d : Definition) :
    Option (Record → Except ResolutionError Bool) :=
  binding.condition?.map fun c candidate =>
    (compare c candidate (scope.bind name candidate) d).result

/-- All that a loop does. -/
def ofLoop (name : String) (binding : Binding) (record : Record) (scope : Scope) (d : Definition) :
    List Turn :=
  match (start binding record scope d).result with
  | .error e => [fails e]
  | .ok (table, excluded) => along excluded (condition name binding scope d) table.records

end Turn

end MailMerge.Merge
