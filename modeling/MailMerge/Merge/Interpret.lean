/-
What the nodes of a template mean, told on the nodes themselves and on the records as they stand in
their tables: texts stand for themselves, an interpolation for the field that it leads to, a
conditional for its body where its test holds, and a loop for its body once for every record of its
table that is kept. No binding is made up in between, and no index.
-/
import MailMerge.Data.Definition
import MailMerge.Merge.Fault
import MailMerge.Merge.Scope

namespace MailMerge.Merge

open MailMerge.Data MailMerge.Markup

/-! ## Lookups -/

/-- The key that stands in a field of a record. -/
def keyIn (record : Record) (field : String) : Except ResolutionError String :=
  match record.get? field with
  | some key => return key
  | none => throw (.missingKey field)

/-- The table that a lookup leads to. -/
def tableNamed (d : Definition) (name : String) : Except ResolutionError Table :=
  match d.table? name with
  | some table => return table
  | none => throw (.unknownTable name)

/-- In a table in which records are looked for every record must have an identity. -/
def checkIds (table : Table) : Except ResolutionError Unit :=
  match table.records.findIdx? (·.id? = none) with
  | some i => throw (.table (.recordWithoutId table.name (i + 1)))
  | none => return ()

/-- The record that a lookup leads to from the current one: the one that a loop has bound to its key
field, else the first one of the table whose identity is the key. -/
def follow (scope : Scope) (d : Definition) (current : Record) (lookup : Lookup) :
    Except ResolutionError Record :=
  match scope.get? lookup.keyField with
  | some bound => return bound
  | none => do
    let key ← keyIn current lookup.keyField
    let table ← tableNamed d lookup.table
    checkIds table
    match table.records.find? (·.id? = some key) with
    | some record => return record
    | none => throw (.table (.noSuchRecord table.name key))

/-! ## Fields -/

/-- The text of the field that an interpolation leads to. -/
def textAt (e : Expansion) (start : Record) (scope : Scope) (d : Definition) :
    Except ResolutionError String := do
  let record ← e.path.foldlM (follow scope d) start
  match record.get? e.field with
  | some text => return text
  | none => throw (.missingField e.field)

/-- Whether a comparison holds, seen from a record. -/
def holdsAt (c : Comparison) (start : Record) (scope : Scope) (d : Definition) :
    Except ResolutionError Bool := do
  let text ← textAt c.subject start scope d
  match c.op.holds text c.literal with
  | .ok holds => return holds
  | .error fault => throw (.failedComparison c fault)

/-! ## Loops -/

/-- The identity of the record that a lookup points at. -/
def pointedId (lookup : Lookup) (record : Record) (scope : Scope) : Except ResolutionError String :=
  match scope.get? lookup.keyField with
  | some bound => keyIn bound idField
  | none => keyIn record lookup.keyField

/-- The identity that a loop leaves out, if it leaves one out. It is known before the first record
is looked at, and so is whether all records of the table have one. -/
def excludedId (head : LoopHead) (table : Table) (record : Record) (scope : Scope) :
    Except ResolutionError (Option String) :=
  if head.other then do
    let key ← pointedId head.lookup record scope
    checkIds table
    return some key
  else return none

/-- Whether the condition of a loop keeps a record, to which the name of the loop is bound. -/
def keeps (head : LoopHead) (candidate : Record) (scope : Scope) (d : Definition) :
    Except ResolutionError Bool :=
  match head.condition with
  | none => return true
  | some c => holdsAt c candidate (scope.bind head.name candidate) d

/-- Goes through the records of a table one at a time. -/
def forEach (excluded : Option String) (keep : Record → Except ResolutionError Bool)
    (body : Record → Except ResolutionError String) : List Record → Except ResolutionError String
  | [] => return ""
  | candidate :: rest => do
    if excluded.isSome ∧ candidate.id? = excluded then forEach excluded keep body rest
    else if ← keep candidate then
      let text ← body candidate
      return text ++ (← forEach excluded keep body rest)
    else forEach excluded keep body rest

/-! ## Nodes -/

mutual

/-- What a node means for the driving record. -/
def interpret (record : Record) (d : Definition) :
    Node → Scope → Except ResolutionError String
  | .text value, _ => return value
  | .expansion e, scope => textAt e record scope d
  | .block (.conditional test) body, scope => do
    if ← holdsAt test record scope d then interpretAll record d body scope else return ""
  | .block (.loop head) body, scope => do
    let table ← tableNamed d head.lookup.table
    let excluded ← excludedId head table record scope
    forEach excluded (keeps head · scope d)
      (fun candidate => interpretAll record d body (scope.bind head.name candidate)) table.records

/-- The meaning of some nodes: their texts, one after the other. -/
def interpretAll (record : Record) (d : Definition) :
    List Node → Scope → Except ResolutionError String
  | [], _ => return ""
  | node :: nodes, scope => do
    let text ← interpret record d node scope
    return text ++ (← interpretAll record d nodes scope)

end

end MailMerge.Merge
