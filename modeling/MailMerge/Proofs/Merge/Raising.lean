/-
Only errors that are for the caller leave a rendering. Wherever a field is read or a text is compared
there is a handler for what the step can raise, and a text is compared only as a value of the kind of
the literal; so what is raised on the way is what rendering answers, step by step and at any depth of
loops and conditionals.
-/
import Mathlib.Data.List.Forall2
import MailMerge.Merge.Raising
import MailMerge.Proofs.Merge.Batch
import MailMerge.Proofs.Number.Literals

namespace MailMerge.Merge

open MailMerge.Data MailMerge.Markup

/-! ## Answers that are raised -/

/-- An answer whose error is raised. -/
def Consulted.raised {α : Type} (x : Consulted α) : Raising α :=
  x.result.mapError .resolution

namespace Consulted

variable {α β : Type}

@[simp] theorem raised_pure (a : α) : (Pure.pure a : Consulted α).raised = .ok a := rfl

@[simp] theorem raised_fail (e : ResolutionError) :
    (fail e : Consulted α).raised = .error (.resolution e) := rfl

theorem raised_bind (x : Consulted α) (f : α → Consulted β) :
    (x >>= f).raised = x.raised >>= fun a => (f a).raised := by
  unfold raised
  rw [result_bind]
  cases x.result <;> rfl

end Consulted

namespace Raising

/-! ## Fields -/

theorem readKey_eq (record : Record) (field : String) :
    readKey record field = (Merge.readKey record field).raised := by
  unfold readKey fieldOf Merge.readKey
  cases record.get? field <;> rfl

theorem findTable_eq (d : Definition) (name : String) :
    findTable d name = (Merge.findTable d name).raised := by
  unfold findTable Merge.findTable
  cases d.table? name <;> rfl

theorem ask_eq {α : Type} (name : String) (answer : Except TableFault α) :
    ask answer = (Consulted.from? name answer).raised := by
  cases answer <;> rfl

theorem resolve_eq (lookup : Lookup) (scope : Scope) (d : Definition) (current : Record) :
    resolve lookup scope d current = ((Resolution.of lookup scope).resolve current d).raised := by
  unfold resolve Resolution.of
  cases scope.get? lookup.keyField with
  | some bound => rfl
  | none =>
    simp only [Resolution.resolve, Consulted.raised_bind, ← readKey_eq, ← findTable_eq, ← ask_eq]

theorem resolvePath_eq (path : List Lookup) (start : Record) (scope : Scope) (d : Definition) :
    path.foldlM (fun current lookup => resolve lookup scope d current) start =
      (resolvePath path start scope d).raised := by
  unfold resolvePath
  induction path generalizing start with
  | nil => rfl
  | cons lookup path ih =>
    rw [List.foldlM_cons, List.foldlM_cons, Consulted.raised_bind, resolve_eq]
    congr 1
    funext record
    exact ih record

theorem expand_eq (e : Expansion) (start : Record) (scope : Scope) (d : Definition) :
    expand e start scope d = (Merge.expand e start scope d).raised := by
  unfold expand Merge.expand
  rw [Consulted.raised_bind, resolvePath_eq]
  congr 1
  funext record
  unfold fieldOf
  cases record.get? e.field <;> rfl

/-! ## Comparisons -/

/-- Values of two kinds never come to be compared: all that is raised is that the text is no value. -/
theorem holds_eq (op : Comparator) (text : String) (literal : Literal) :
    holds op text literal = (op.holds text literal).mapError .value := by
  unfold holds valueOf Comparator.holds Literal.ofField
  cases hread : Literal.read text literal.kind with
  | error fault => rfl
  | ok found =>
    cases found with
    | none => rfl
    | some value =>
      have hkind := Literal.kind_of_read hread
      show compareValues op value literal = _
      unfold compareValues
      rw [if_pos hkind]
      rfl

theorem compare_eq (c : Comparison) (start : Record) (scope : Scope) (d : Definition) :
    compare c start scope d = (Merge.compare c start scope d).raised := by
  unfold compare Merge.compare
  rw [Consulted.raised_bind, expand_eq]
  congr 1
  funext text
  rw [holds_eq]
  cases c.op.holds text c.literal <;> rfl

/-! ## Loops -/

theorem exclusionKey_eq (lookup : Lookup) (record : Record) (scope : Scope) :
    exclusionKey lookup record scope = (Merge.exclusionKey lookup record scope).raised := by
  unfold exclusionKey Merge.exclusionKey
  cases scope.get? lookup.keyField with
  | some bound => exact readKey_eq bound idField
  | none => exact readKey_eq record lookup.keyField

theorem loopRecords_eq (binding : Binding) (record : Record) (scope : Scope) (d : Definition) :
    loopRecords binding record scope d = (Merge.loopRecords binding record scope d).raised := by
  unfold loopRecords Merge.loopRecords
  rw [Consulted.raised_bind, findTable_eq]
  congr 1
  funext table
  cases binding.lookup? with
  | none => rfl
  | some lookup =>
    simp only [Consulted.raised_bind, ← exclusionKey_eq, ← ask_eq]
    rfl

theorem accepts_eq (name : String) (binding : Binding) (scope : Scope) (d : Definition)
    (candidate : Record) :
    accepts name binding scope d candidate =
      (Merge.accepts name binding scope d candidate).raised := by
  unfold accepts Merge.accepts
  cases binding.condition? with
  | none => rfl
  | some condition => exact compare_eq condition candidate (scope.bind name candidate) d

theorem renderEach_eq {accept : Record → Raising Bool} {accept' : Record → Consulted Bool}
    {body : Record → Raising String} {body' : Record → Consulted String}
    (haccept : ∀ record, accept record = (accept' record).raised)
    (hbody : ∀ record, body record = (body' record).raised) (records : List Record) :
    renderEach accept body records = (Merge.renderEach accept' body' records).raised := by
  induction records with
  | nil => rfl
  | cons record rest ih =>
    rw [renderEach, Merge.renderEach]
    simp only [Consulted.raised_bind, haccept, ih]
    congr 1
    funext accepted
    cases accepted with
    | false =>
      simp only [Bool.false_eq_true, if_false, Consulted.raised_bind]
      rfl
    | true =>
      simp only [if_true, hbody, Consulted.raised_bind]
      rfl

/-! ## Templates -/

section

variable (record : Record) (d : Definition)

mutual

theorem renderPiece_eq (scope : Scope) : ∀ piece : Piece,
    renderPiece record d piece scope = (Merge.renderPiece record d piece scope).raised
  | .text value => by
    rw [renderPiece, Merge.renderPiece]
    rfl
  | .expansion e => by
    rw [renderPiece, Merge.renderPiece]
    exact expand_eq e record scope d
  | .conditional test body => by
    rw [renderPiece, Merge.renderPiece, Consulted.raised_bind, compare_eq]
    congr 1
    funext holds
    cases holds with
    | false => rfl
    | true => exact renderPieces_eq scope body
  | .loop name binding body => by
    rw [renderPiece, Merge.renderPiece, Consulted.raised_bind, loopRecords_eq]
    congr 1
    funext records
    refine renderEach_eq (accepts_eq name binding scope d) (fun candidate => ?_) records
    exact renderPieces_eq (scope.bind name candidate) body

theorem renderPieces_eq (scope : Scope) : ∀ pieces : List Piece,
    renderPieces record d pieces scope = (Merge.renderPieces record d pieces scope).raised
  | [] => by
    rw [renderPieces, Merge.renderPieces]
    rfl
  | piece :: pieces => by
    rw [renderPieces, Merge.renderPieces, Consulted.raised_bind, renderPiece_eq scope piece,
      renderPieces_eq scope pieces]
    congr 1
    funext text
    rw [Consulted.raised_bind]
    rfl

end

end

/-- What is raised is what rendering answers. -/
theorem render_eq (t : Template) (record : Record) (d : Definition) :
    render t record d = (t.render record d).raised :=
  renderPieces_eq record d .empty t.pieces

/-- The error of the first row that fails is raised in the place of all texts. -/
theorem renderRows_eq (t : Template) (d : Definition) (row : Nat) (records : List Record) :
    renderRows t d row records = (Batch.ofRecords t d row records).result.mapError .batch := by
  induction records generalizing row with
  | nil => rfl
  | cons record rest ih =>
    rw [renderRows, Batch.result_cons, render_eq, ih]
    unfold Consulted.raised
    cases (t.render record d).result with
    | error cause => rfl
    | ok text => cases (Batch.ofRecords t d (row + 1) rest).result <;> rfl

/-- Rendering a template for a record gives a text or raises an error of resolution, and rendering it
for all records of the vars table gives a text for each of them or raises the error of a row. Nothing
else that is raised on the way leaves either of them. -/
theorem raises_only_own_errors (t : Template) (d : Definition) :
    (∀ record,
      (∃ text, render t record d = .ok text ∧ (t.render record d).result = .ok text) ∨
        ∃ e, render t record d = .error (.resolution e) ∧ (t.render record d).result = .error e) ∧
    ((∃ texts, renderAll t d = .ok texts ∧ t.renderAll d = .ok texts ∧ texts.length = d.vars.size) ∨
      ∃ e, renderAll t d = .error (.batch e) ∧ t.renderAll d = .error e) := by
  refine ⟨?_, ?_⟩
  · intro record
    rw [render_eq, Consulted.raised]
    cases (t.render record d).result with
    | ok text => exact .inl ⟨text, rfl, rfl⟩
    | error e => exact .inr ⟨e, rfl, rfl⟩
  · have hrows : renderAll t d = (t.renderAll d).mapError .batch :=
      renderRows_eq t d 1 d.vars.records
    rw [hrows]
    cases hresult : t.renderAll d with
    | ok texts =>
      refine .inl ⟨texts, rfl, rfl, ?_⟩
      have hall : t.RendersAll d d.vars.records texts := Batch.result_eq_ok_iff.1 hresult
      rw [← hall.length_eq, Table.records, List.length_map, Table.size]
    | error e => exact .inr ⟨e, rfl, rfl⟩

end Raising

end MailMerge.Merge
