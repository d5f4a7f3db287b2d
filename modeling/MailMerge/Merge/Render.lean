/-
Merging a template with records. A loop looks at the records of its table one at a time: whether the
next record is kept is only asked after the body was rendered for the one before it.
-/
import MailMerge.Merge.Resolve
import MailMerge.Merge.Template

namespace MailMerge.Merge

open MailMerge.Data MailMerge.Markup

/-! ## Fields -/

/-- The text of an interpolation. -/
def expand (e : Expansion) (record : Record) (scope : Scope) (d : Definition) :
    Consulted String := do
  let record ← resolvePath e.path record scope d
  match record.get? e.field with
  | some text => pure text
  | none => .fail (.missingField e.field)

/-- Whether a comparison holds; the field is read as the kind of the literal. -/
def compare (c : Comparison) (record : Record) (scope : Scope) (d : Definition) :
    Consulted Bool := do
  let text ← expand c.subject record scope d
  match c.op.holds text c.literal with
  | .ok holds => pure holds
  | .error fault => .fail (.failedComparison c fault)

/-! ## The records of a loop -/

/-- The identity of the record that a lookup points at. -/
def exclusionKey (lookup : Lookup) (record : Record) (scope : Scope) : Consulted String :=
  match scope.get? lookup.keyField with
  | some bound => readKey bound idField
  | none => readKey record lookup.keyField

/-- The records of a loop before its condition is looked at. Where a record is left out every record
must have an identity, even if none is left out in the end. -/
def loopRecords (binding : Binding) (record : Record) (scope : Scope) (d : Definition) :
    Consulted (List Record) := do
  let table ← findTable d binding.table
  match binding.lookup? with
  | none => pure table.records
  | some lookup =>
    let key ← exclusionKey lookup record scope
    let _ ← Consulted.from? binding.table (table.find? key)
    pure (table.records.filter (·.id? ≠ some key))

/-- Whether a record meets the condition of a loop. The comparison starts at the record itself. -/
def accepts (name : String) (binding : Binding) (scope : Scope) (d : Definition)
    (candidate : Record) : Consulted Bool :=
  match binding.condition? with
  | none => pure true
  | some condition => compare condition candidate (scope.bind name candidate) d

/-- The accepted records up to the first one for which the question fails, and its error. -/
def gather (accept : Record → Consulted Bool) : List Record → List Record × Option ResolutionError
  | [] => ([], none)
  | record :: rest =>
    match (accept record).result with
    | .error e => ([], some e)
    | .ok true =>
      let found := gather accept rest
      (record :: found.1, found.2)
    | .ok false => gather accept rest

/-- The records that a loop goes through, and the error that ends it early. -/
def candidates (name : String) (binding : Binding) (record : Record) (scope : Scope)
    (d : Definition) : List Record × Option ResolutionError :=
  match (loopRecords binding record scope d).result with
  | .error e => ([], some e)
  | .ok records => gather (accepts name binding scope d) records

/-! ## Rendering -/

/-- Renders `body` for each of the records that are accepted. -/
def renderEach (accept : Record → Consulted Bool) (body : Record → Consulted String) :
    List Record → Consulted String
  | [] => pure ""
  | record :: rest => do
    let text ← if ← accept record then body record else pure ""
    return text ++ (← renderEach accept body rest)

mutual

/-- Renders a piece for the driving record. -/
def renderPiece (record : Record) (d : Definition) : Piece → Scope → Consulted String
  | .text value, _ => pure value
  | .expansion e, scope => expand e record scope d
  | .conditional test body, scope => do
    if ← compare test record scope d then renderPieces record d body scope else pure ""
  | .loop name binding body, scope => do
    let records ← loopRecords binding record scope d
    renderEach (accepts name binding scope d)
      (fun candidate => renderPieces record d body (scope.bind name candidate)) records

/-- The texts of some pieces, one after the other; the first error ends them. -/
def renderPieces (record : Record) (d : Definition) : List Piece → Scope → Consulted String
  | [], _ => pure ""
  | piece :: pieces, scope => do
    let text ← renderPiece record d piece scope
    return text ++ (← renderPieces record d pieces scope)

end

/-- Renders a template for one record. -/
def Template.render (t : Template) (record : Record) (d : Definition) : Consulted String :=
  renderPieces record d t.pieces .empty

end MailMerge.Merge
