/-
Rendering a template for every record of the vars table. The first record that fails ends the
batch.
-/
import MailMerge.Merge.Render

namespace MailMerge.Merge

open MailMerge.Data

/-- The outputs of the first rows, and why the row after them failed, if it did. -/
structure Batch where
  outputs : List String
  failure : Option RenderError
  tables : List String
  deriving Repr

namespace Batch

/-- Renders records, the first of which is row `row`. -/
def ofRecords (t : Template) (d : Definition) (row : Nat) : List Record → Batch
  | [] => ⟨[], none, []⟩
  | record :: rest =>
    let one := t.render record d
    match one.result with
    | .error cause => ⟨[], some ⟨row, cause⟩, one.tables⟩
    | .ok text =>
      let batch := ofRecords t d (row + 1) rest
      ⟨text :: batch.outputs, batch.failure, one.tables ++ batch.tables⟩

/-- All outputs, unless a row failed. -/
def result (b : Batch) : Except RenderError (List String) :=
  match b.failure with
  | none => .ok b.outputs
  | some e => .error e

end Batch

/-- Renders a template for every record of the vars table, in order. -/
def Template.renderBatch (t : Template) (d : Definition) : Batch :=
  .ofRecords t d 1 d.vars.records

/-- The outputs for every record of the vars table. -/
def Template.renderAll (t : Template) (d : Definition) : Except RenderError (List String) :=
  (t.renderBatch d).result

end MailMerge.Merge
