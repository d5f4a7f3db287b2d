/-
Rendering with all that is raised on the way. A record that has no such field, a text that is no
value of a kind, and values of two kinds that are compared raise failures which are not for the
caller. A handler turns them into errors for the caller, and each one covers a single step; a failure
that is raised outside of it goes on to the caller as it is.
-/
import MailMerge.Data.Definition
import MailMerge.Merge.Fault
import MailMerge.Merge.Scope
import MailMerge.Merge.Template

namespace MailMerge.Merge

open MailMerge.Data MailMerge.Markup

/-- What can be raised: three failures of single steps, and the two errors that are for the caller. -/
inductive Raised
  | missing (field : String)
  | value (fault : ValueFault)
  | kinds (left right : Kind)
  | resolution (e : ResolutionError)
  | batch (e : RenderError)
  deriving DecidableEq, Repr

namespace Raised

/-- The error in place of a missing field. -/
def ofMissing (error : String → ResolutionError) : Raised → Option Raised
  | missing field => some (resolution (error field))
  | _ => none

/-- The error in place of a text that is no value. -/
def ofValue (error : ValueFault → ResolutionError) : Raised → Option Raised
  | value fault => some (resolution (error fault))
  | _ => none

/-- The error in place of one that belongs to a row. -/
def ofResolution (error : ResolutionError → RenderError) : Raised → Option Raised
  | resolution e => some (batch (error e))
  | _ => none

end Raised

/-- Answers, or what was raised in their place. -/
abbrev Raising := Except Raised

namespace Raising

/-- Raises something else in place of what the handler knows; all else is raised again. -/
def handle {α : Type} (handler : Raised → Option Raised) (x : Raising α) : Raising α :=
  tryCatch x fun raised => throw ((handler raised).getD raised)

/-! ## Single steps -/

/-- The text of a field, which has to be there. -/
def fieldOf (record : Record) (name : String) : Raising String :=
  match record.get? name with
  | some text => return text
  | none => throw (.missing name)

/-- The text of a field as a value of a kind. -/
def valueOf (text : String) (kind : Kind) : Raising Literal := do
  match ← (Literal.read text kind).mapError Raised.value with
  | some value => return value
  | none => throw (.value (.notOfKind text kind))

/-- Whether a comparison holds of two values, which have to be of one kind. -/
def compareValues (op : Comparator) (x y : Literal) : Raising Bool :=
  if x.kind = y.kind then return op.accepts (x.compare? y) else throw (.kinds x.kind y.kind)

/-- Whether a comparison holds between the text of a field and a literal. -/
def holds (op : Comparator) (text : String) (literal : Literal) : Raising Bool := do
  compareValues op (← valueOf text literal.kind) literal

/-- The table that a name stands for. -/
def findTable (d : Definition) (name : String) : Raising Table :=
  match d.table? name with
  | some table => return table
  | none => throw (.resolution (.unknownTable name))

/-- An answer of a table. -/
def ask {α : Type} (answer : Except TableFault α) : Raising α :=
  answer.mapError (.resolution ∘ .table)

/-! ## Fields -/

/-- The key that a record holds in a field. -/
def readKey (record : Record) (field : String) : Raising String :=
  handle (Raised.ofMissing .missingKey) (fieldOf record field)

/-- The record that a lookup leads to from the current one. -/
def resolve (lookup : Lookup) (scope : Scope) (d : Definition) (current : Record) :
    Raising Record :=
  match scope.get? lookup.keyField with
  | some bound => return bound
  | none => do
    let key ← readKey current lookup.keyField
    let table ← findTable d lookup.table
    ask (table.require key)

/-- The text of an interpolation. -/
def expand (e : Expansion) (start : Record) (scope : Scope) (d : Definition) : Raising String := do
  let record ← e.path.foldlM (fun current lookup => resolve lookup scope d current) start
  handle (Raised.ofMissing .missingField) (fieldOf record e.field)

/-- Whether a comparison holds. -/
def compare (c : Comparison) (start : Record) (scope : Scope) (d : Definition) : Raising Bool := do
  let text ← expand c.subject start scope d
  handle (Raised.ofValue (.failedComparison c)) (holds c.op text c.literal)

/-! ## Loops -/

/-- The identity of the record that a lookup points at. -/
def exclusionKey (lookup : Lookup) (record : Record) (scope : Scope) : Raising String :=
  match scope.get? lookup.keyField with
  | some bound => readKey bound idField
  | none => readKey record lookup.keyField

/-- The records of a loop before its condition is looked at. -/
def loopRecords (binding : Binding) (record : Record) (scope : Scope) (d : Definition) :
    Raising (List Record) := do
  let table ← findTable d binding.table
  match binding.lookup? with
  | none => return table.records
  | some lookup =>
    let key ← exclusionKey lookup record scope
    let _ ← ask (table.find? key)
    return table.records.filter (·.id? ≠ some key)

/-- Whether a record meets the condition of a loop. -/
def accepts (name : String) (binding : Binding) (scope : Scope) (d : Definition)
    (candidate : Record) : Raising Bool :=
  match binding.condition? with
  | none => return true
  | some condition => compare condition candidate (scope.bind name candidate) d

/-- Renders `body` for each of the records that are accepted. -/
def renderEach (accept : Record → Raising Bool) (body : Record → Raising String) :
    List Record → Raising String
  | [] => return ""
  | record :: rest => do
    let text ← if ← accept record then body record else pure ""
    return text ++ (← renderEach accept body rest)

/-! ## Templates -/

mutual

/-- Renders a piece for the driving record. -/
def renderPiece (record : Record) (d : Definition) : Piece → Scope → Raising String
  | .text value, _ => return value
  | .expansion e, scope => expand e record scope d
  | .conditional test body, scope => do
    if ← compare test record scope d then renderPieces record d body scope else return ""
  | .loop name binding body, scope => do
    let records ← loopRecords binding record scope d
    renderEach (accepts name binding scope d)
      (fun candidate => renderPieces record d body (scope.bind name candidate)) records

/-- The texts of some pieces, one after the other; what one raises ends them. -/
def renderPieces (record : Record) (d : Definition) : List Piece → Scope → Raising String
  | [], _ => return ""
  | piece :: pieces, scope => do
    let text ← renderPiece record d piece scope
    return text ++ (← renderPieces record d pieces scope)

end

/-- Renders a template for one record. -/
def render (t : Template) (record : Record) (d : Definition) : Raising String :=
  renderPieces record d t.pieces .empty

/-- Renders a template for records, the first of which is row `row`. -/
def renderRows (t : Template) (d : Definition) (row : Nat) :
    List Record → Raising (List String)
  | [] => return []
  | record :: rest => do
    let text ← handle (Raised.ofResolution (.mk row)) (render t record d)
    return text :: (← renderRows t d (row + 1) rest)

/-- Renders a template for every record of the vars table, in order. -/
def renderAll (t : Template) (d : Definition) : Raising (List String) :=
  renderRows t d 1 d.vars.records

end Raising

end MailMerge.Merge
