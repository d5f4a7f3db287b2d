/-
Rendering in which every look for a record leaves its trace at once: from the first one at which the
index of a table could be built, the table keeps it, in the middle of a rendering, and also where
the rendering fails later on.
-/
import MailMerge.Merge.Interpret
import MailMerge.Merge.Session

namespace MailMerge.Merge

open MailMerge.Data MailMerge.Markup

/-- Answers and errors on a definition whose tables keep their indexes on the way. -/
abbrev Keeping := ExceptT ResolutionError (StateM Definition)

namespace Keeping

/-- The table that a name stands for, as it is now. -/
def findTable (name : String) : Keeping Table := do
  tableNamed (← get) name

/-- An answer that the table called `name` gave. The table keeps its index from then on. -/
def ask {α : Type} (name : String) (answer : Except TableFault α) : Keeping α := do
  modify (·.keepIndexes [name])
  ofExcept (answer.mapError ResolutionError.table)

/-- The record that a lookup leads to from the current one. -/
def resolve (lookup : Lookup) (scope : Scope) (current : Record) : Keeping Record :=
  match scope.get? lookup.keyField with
  | some bound => return bound
  | none => do
    let key ← keyIn current lookup.keyField
    let table ← findTable lookup.table
    ask lookup.table (table.require key)

/-- The text of an interpolation. -/
def expand (e : Expansion) (start : Record) (scope : Scope) : Keeping String := do
  let record ← e.path.foldlM (fun current lookup => resolve lookup scope current) start
  match record.get? e.field with
  | some text => return text
  | none => throw (.missingField e.field)

/-- Whether a comparison holds. -/
def compare (c : Comparison) (start : Record) (scope : Scope) : Keeping Bool := do
  let text ← expand c.subject start scope
  match c.op.holds text c.literal with
  | .ok holds => return holds
  | .error fault => throw (.failedComparison c fault)

/-- The records of a loop before its condition is looked at. -/
def loopRecords (binding : Binding) (record : Record) (scope : Scope) : Keeping (List Record) := do
  let table ← findTable binding.table
  match binding.lookup? with
  | none => return table.records
  | some lookup =>
    let key ← pointedId lookup record scope
    let _ ← ask binding.table (table.find? key)
    return table.records.filter (·.id? ≠ some key)

/-- Whether a record meets the condition of a loop. -/
def accepts (name : String) (binding : Binding) (scope : Scope) (candidate : Record) :
    Keeping Bool :=
  match binding.condition? with
  | none => return true
  | some condition => compare condition candidate (scope.bind name candidate)

/-- Renders `body` for each of the records that are accepted. -/
def renderEach (accept : Record → Keeping Bool) (body : Record → Keeping String) :
    List Record → Keeping String
  | [] => return ""
  | record :: rest => do
    let text ← if ← accept record then body record else pure ""
    return text ++ (← renderEach accept body rest)

mutual

/-- Renders a piece for the driving record. -/
def renderPiece (record : Record) : Piece → Scope → Keeping String
  | .text value, _ => return value
  | .expansion e, scope => expand e record scope
  | .conditional test body, scope => do
    if ← compare test record scope then renderPieces record body scope else return ""
  | .loop name binding body, scope => do
    let records ← loopRecords binding record scope
    renderEach (accepts name binding scope)
      (fun candidate => renderPieces record body (scope.bind name candidate)) records

/-- The texts of some pieces, one after the other; what one keeps the next one finds. -/
def renderPieces (record : Record) : List Piece → Scope → Keeping String
  | [], _ => return ""
  | piece :: pieces, scope => do
    let text ← renderPiece record piece scope
    return text ++ (← renderPieces record pieces scope)

end

/-- Renders a template for records, the first of which is row `row`. -/
def renderRows (t : Template) (row : Nat) :
    List Record → ExceptT RenderError (StateM Definition) (List String)
  | [] => return []
  | record :: rest => do
    let text ← (renderPieces record t.pieces .empty).adapt (RenderError.mk row)
    return text :: (← renderRows t (row + 1) rest)

end Keeping

/-! ## Calls -/

/-- A call for one output, or for all outputs of a definition. -/
inductive Call
  | render (t : Template) (record : Record) (definition : String)
  | renderAll (t : Template) (definition : String)

/-- What a call gives. -/
inductive Outcome
  | text (result : Except ResolutionError String)
  | texts (result : Except RenderError (List String))

namespace Call

/-- The name of the definition that a call is about. -/
def definition : Call → String
  | render _ _ name | renderAll _ name => name

/-- The outcome on a definition of its own. -/
def outcome (d : Definition) : Call → Outcome
  | render t record _ => .text (t.render record d).result
  | renderAll t _ => .texts (t.renderAll d)

/-- The tables that are consulted on the way to the outcome. -/
def consulted (d : Definition) : Call → List String
  | render t record _ => (t.render record d).tables
  | renderAll t _ => (t.renderBatch d).tables

/-- The outcome with indexes kept on the way, and the definition with these indexes. -/
def keeping : Call → StateM Definition Outcome
  | render t record _ => .text <$> (Keeping.renderPieces record t.pieces .empty).run
  | renderAll t _ => do
    let d ← get
    .texts <$> (Keeping.renderRows t 1 d.vars.records).run

end Call

namespace Session

/-- Makes a call. -/
def call (s : Session) : Call → Outcome × Session
  | .render t record name => (s.render t record name).map .text id
  | .renderAll t name => (s.renderAll t name).map .texts id

/-- Makes a call, with indexes kept on the way. -/
def callKeeping (s : Session) (c : Call) : Outcome × Session :=
  (c.keeping.run (s.definition c.definition)).map id (s.define c.definition)

/-- The outcomes of steps that are made one after the other. -/
def inTurn (step : Session → Call → Outcome × Session) (s : Session) :
    List Call → List Outcome × Session
  | [] => ([], s)
  | c :: calls =>
    let first := step s c
    let rest := inTurn step first.2 calls
    (first.1 :: rest.1, rest.2)

end Session

end MailMerge.Merge
