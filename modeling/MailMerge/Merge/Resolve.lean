/-
Following lookups. A key field that names a loop leads to the record that the loop has bound;
otherwise the key is read from the current record and its record is found in the table.
-/
import MailMerge.Data.Definition
import MailMerge.Merge.Consulted
import MailMerge.Merge.Scope

namespace MailMerge.Merge

open MailMerge.Data MailMerge.Markup

/-- How one lookup is resolved. -/
inductive Resolution
  | bound (name : String) (record : Record)
  | join (lookup : Lookup)
  deriving DecidableEq, Repr

/-- The way in which a lookup is resolved in a scope. -/
def Resolution.of (lookup : Lookup) (scope : Scope) : Resolution :=
  match scope.get? lookup.keyField with
  | some record => bound lookup.keyField record
  | none => join lookup

/-- The key that a record holds in a field. -/
def readKey (record : Record) (field : String) : Consulted String :=
  match record.get? field with
  | some key => pure key
  | none => .fail (.missingKey field)

/-- The table that a name stands for. -/
def findTable (d : Definition) (name : String) : Consulted Table :=
  match d.table? name with
  | some table => pure table
  | none => .fail (.unknownTable name)

/-- The record that a lookup leads to from the current one. -/
def Resolution.resolve (r : Resolution) (current : Record) (d : Definition) : Consulted Record :=
  match r with
  | bound _ record => pure record
  | join lookup => do
    let key ← readKey current lookup.keyField
    let table ← findTable d lookup.table
    .from? lookup.table (table.require key)

/-- The record that a path of lookups leads to. -/
def resolvePath (path : List Lookup) (start : Record) (scope : Scope) (d : Definition) :
    Consulted Record :=
  path.foldlM (fun current lookup => (Resolution.of lookup scope).resolve current d) start

end MailMerge.Merge
