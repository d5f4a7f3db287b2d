/-
A batch is its rows one by one. It gives the texts of all rows, in order, or the error of the first
row that fails. Of two vars tables one behind the other it gives what it gives of each of them, with
the rows of the second one counted on.

All rows share their tables, and whichever row first looks for a record in a table leaves the index
there for the rows behind it. This does not couple the rows, since indexes that are kept on the way
do not change what a row gives.
-/
import Mathlib.Data.List.Forall2
import Mathlib.Data.List.Induction
import MailMerge.Proofs.Merge.Keeping

namespace MailMerge.Merge

open MailMerge.Data

/-! ## Rows -/

/-- Every record renders, and these are the texts in order. -/
def Template.RendersAll (t : Template) (d : Definition) (records : List Record)
    (texts : List String) : Prop :=
  List.Forall₂ (fun record text => (t.render record d).result = .ok text) records texts

/-- The first record that does not render is that of row `e.row`, and it fails with `e.cause`. -/
def Template.FailsFirst (t : Template) (d : Definition) (records : List Record)
    (e : RenderError) : Prop :=
  ∃ before record after, records = before ++ record :: after ∧ e.row = before.length + 1 ∧
    (t.render record d).result = .error e.cause ∧ ∃ texts, t.RendersAll d before texts

namespace Batch

variable {t : Template} {d : Definition}

theorem result_cons (t : Template) (d : Definition) (row : Nat) (record : Record)
    (rest : List Record) :
    (ofRecords t d row (record :: rest)).result =
      match (t.render record d).result with
      | .error cause => .error ⟨row, cause⟩
      | .ok text => (ofRecords t d (row + 1) rest).result.map (text :: ·) := by
  rw [ofRecords]
  cases (t.render record d).result with
  | error cause => rfl
  | ok text =>
    unfold result
    cases (ofRecords t d (row + 1) rest).failure <;> rfl

theorem result_eq_ok_iff {row : Nat} {records : List Record} {texts : List String} :
    (ofRecords t d row records).result = .ok texts ↔ t.RendersAll d records texts := by
  unfold Template.RendersAll
  induction records generalizing row texts with
  | nil =>
    rw [List.forall₂_nil_left_iff]
    constructor
    · intro h
      cases h
      rfl
    · rintro rfl
      rfl
  | cons record rest ih =>
    rw [result_cons, List.forall₂_cons_left_iff]
    cases hrender : (t.render record d).result with
    | error cause => simp
    | ok text =>
      simp only [Except.ok.injEq]
      constructor
      · intro h
        cases hrest : (ofRecords t d (row + 1) rest).result with
        | error e => rw [hrest] at h; cases h
        | ok more =>
          rw [hrest] at h
          cases h
          exact ⟨text, more, rfl, ih.1 hrest, rfl⟩
      · rintro ⟨_, more, rfl, hmore, rfl⟩
        rw [ih.2 hmore]
        rfl

/-- Rows that are counted from another number fail with the same causes. -/
theorem result_add (row n : Nat) (records : List Record) :
    (ofRecords t d (row + n) records).result =
      (ofRecords t d row records).result.mapError fun e => ⟨e.row + n, e.cause⟩ := by
  induction records generalizing row with
  | nil => rfl
  | cons record rest ih =>
    rw [result_cons, result_cons]
    cases (t.render record d).result with
    | error cause => rfl
    | ok text =>
      simp only
      rw [Nat.add_right_comm, ih]
      cases (ofRecords t d (row + 1) rest).result <;> rfl

/-- Records behind others are reached if the others all render. -/
theorem result_append (row : Nat) (records more : List Record) :
    (ofRecords t d row (records ++ more)).result =
      (ofRecords t d row records).result >>= fun texts =>
        (ofRecords t d (row + records.length) more).result.map (texts ++ ·) := by
  induction records generalizing row with
  | nil =>
    show (ofRecords t d row more).result = (ofRecords t d row more).result.map ([] ++ ·)
    cases (ofRecords t d row more).result <;> rfl
  | cons record rest ih =>
    rw [List.cons_append, result_cons, result_cons, List.length_cons, Nat.add_comm rest.length 1,
      ← Nat.add_assoc]
    cases (t.render record d).result with
    | error cause => rfl
    | ok text =>
      simp only [ih]
      cases (ofRecords t d (row + 1) rest).result with
      | error e => rfl
      | ok texts => cases (ofRecords t d (row + 1 + rest.length) more).result <;> rfl

theorem result_eq_error_iff {records : List Record} {e : RenderError} :
    (ofRecords t d 1 records).result = .error e ↔ t.FailsFirst d records e := by
  constructor
  · intro h
    induction records using List.reverseRecOn generalizing e with
    | nil => cases h
    | append_singleton before record ih =>
      rw [result_append] at h
      cases hbefore : (ofRecords t d 1 before).result with
      | error e' =>
        -- The row that fails stands further in front.
        rw [hbefore] at h
        cases h
        obtain ⟨first, failing, after, rfl, hrow, hcause, hfirst⟩ := ih hbefore
        exact ⟨first, failing, after ++ [record], by simp, hrow, hcause, hfirst⟩
      | ok texts =>
        rw [hbefore] at h
        simp only [bind, Except.bind, result_cons] at h
        cases hrender : (t.render record d).result with
        | ok text => rw [hrender] at h; cases h
        | error cause =>
          rw [hrender] at h
          cases h
          exact ⟨before, record, [], rfl, Nat.add_comm 1 _, hrender, texts,
            result_eq_ok_iff.1 hbefore⟩
  · rintro ⟨before, record, after, rfl, hrow, hcause, texts, htexts⟩
    obtain ⟨row, cause⟩ := e
    rw [result_append, result_eq_ok_iff.2 htexts]
    simp only at hrow hcause
    simp [bind, Except.bind, result_cons, hcause, hrow, Nat.add_comm, Except.map]

end Batch

/-! ## Tables that answer alike -/

/-- The tables of two definitions cannot be told apart. -/
def TablesAlike (d d' : Definition) : Prop :=
  ∀ name, d.AlikeAt d' name

/-- The same tables answer alike, also where one of them has kept its index. -/
theorem tablesAlike_keepIndexes {d d' : Definition} (h : d.tables = d'.tables)
    (names : List String) : TablesAlike (d.keepIndexes names) d' := by
  intro name
  have hname : d.table? name = d'.table? name := by
    unfold Definition.table?
    rw [h]
  unfold Definition.AlikeAt
  rw [Definition.table?_keepIndexes, hname]
  cases d'.table? name with
  | none => exact .none
  | some table =>
    refine .some ?_
    split
    · exact ⟨table.name_keepIndex, table.records_keepIndex, table.find?_keepIndex⟩
    · exact ⟨rfl, rfl, fun _ => rfl⟩

theorem TablesAlike.of_eq {d d' : Definition} (h : d.tables = d'.tables) : TablesAlike d d' := by
  simpa using tablesAlike_keepIndexes h []

theorem TablesAlike.ofRecords_eq {d d' : Definition} (h : TablesAlike d d') (t : Template)
    (row : Nat) (records : List Record) :
    Batch.ofRecords t d row records = Batch.ofRecords t d' row records :=
  Keeping.ofRecords_congr
    (fun record => renderPieces_congr record t.pieces (fun l _ => ⟨h l.table, rfl⟩) fun name _ => h name)
    row records

/-! ## Batches -/

/-- The vars table of `d` holds the records of those of `d₁` and `d₂` one behind the other, and the
other tables of all three answer alike. -/
structure Joins (d d₁ d₂ : Definition) : Prop where
  vars : d.vars.records = d₁.vars.records ++ d₂.vars.records
  left : TablesAlike d₁ d
  right : TablesAlike d₂ d

theorem Joins.renderAll_eq {d d₁ d₂ : Definition} (h : Joins d d₁ d₂) (t : Template) :
    t.renderAll d = t.renderAll d₁ >>= fun texts =>
      ((t.renderAll d₂).mapError fun e => ⟨e.row + d₁.vars.records.length, e.cause⟩).map
        (texts ++ ·) := by
  unfold Template.renderAll Template.renderBatch
  rw [h.left.ofRecords_eq, h.right.ofRecords_eq, h.vars, Batch.result_append, ← Batch.result_add]

/-- A batch gives the texts of all rows in order, or else the error of the first row that fails,
whether indexes are kept on the way or not. Of vars tables one behind the other it gives what it
gives of each of them, with the rows of the second one counted on. -/
theorem renderAll_rows (t : Template) (d : Definition) :
    (∀ texts, t.renderAll d = .ok texts ↔ t.RendersAll d d.vars.records texts) ∧
    (∀ e, t.renderAll d = .error e ↔ t.FailsFirst d d.vars.records e) ∧
    (∀ e, t.renderAll d = .error e → e.message = s!"row {e.row} failed: {e.cause.message}") ∧
    ((Keeping.renderRows t 1 d.vars.records).run.run d).1 = t.renderAll d ∧
    ∀ d₁ d₂, Joins d d₁ d₂ →
      (∀ texts, t.renderAll d = .ok texts ↔
        ∃ texts₁ texts₂, t.renderAll d₁ = .ok texts₁ ∧ t.renderAll d₂ = .ok texts₂ ∧
          texts = texts₁ ++ texts₂) ∧
      (∀ e, t.renderAll d₁ = .error e → t.renderAll d = .error e) ∧
      ∀ texts₁ e, t.renderAll d₁ = .ok texts₁ → t.renderAll d₂ = .error e →
        t.renderAll d = .error ⟨d₁.vars.records.length + e.row, e.cause⟩ := by
  refine ⟨fun texts => Batch.result_eq_ok_iff, fun e => Batch.result_eq_error_iff, fun _ _ => rfl,
    congrArg Prod.fst (Keeping.run_renderRows t 1 d.vars.records d), ?_⟩
  intro d₁ d₂ hjoins
  rw [hjoins.renderAll_eq]
  refine ⟨?_, ?_, ?_⟩
  · intro texts
    cases t.renderAll d₁ with
    | error e => simp [bind, Except.bind]
    | ok texts₁ =>
      cases t.renderAll d₂ with
      | error e => simp [bind, Except.bind, Except.map, Except.mapError]
      | ok texts₂ => simp [bind, Except.bind, Except.map, Except.mapError, eq_comm]
  · intro e he
    rw [he]
    rfl
  · intro texts₁ e htexts he
    rw [htexts, he, Nat.add_comm]
    rfl

/-- The second row of the second vars table is the third one of both. The table was asked for a
record before, in the first definition only. -/
theorem renderAll_rows_counted_on :
    let tables := [("t", [⟨[("$id", "1"), ("n", "Ann")]⟩])]
    let d₁ := Definition.ofRecords [⟨[("t", "1")]⟩] tables
    let d₂ := Definition.ofRecords [⟨[("t", "1")]⟩, ⟨[("t", "2")]⟩] tables
    let d := Definition.ofRecords [⟨[("t", "1")]⟩, ⟨[("t", "1")]⟩, ⟨[("t", "2")]⟩] tables
    let t : Template := ⟨[.expansion ⟨[⟨"t", none⟩], "n"⟩], ""⟩
    Joins d (d₁.keepIndexes ["t"]) d₂ ∧ t.renderAll (d₁.keepIndexes ["t"]) = .ok ["Ann"] ∧
      t.renderAll d = .error ⟨1 + 2, .table (.noSuchRecord "t" "2")⟩ := by
  intro tables d₁ d₂ d t
  have hjoins : Joins d (d₁.keepIndexes ["t"]) d₂ :=
    ⟨rfl, tablesAlike_keepIndexes rfl _, .of_eq rfl⟩
  have hfirst : t.renderAll (d₁.keepIndexes ["t"]) = .ok ["Ann"] := by rfl
  exact ⟨hjoins, hfirst, ((renderAll_rows t d).2.2.2.2 _ _ hjoins).2.2 _ _ hfirst rfl⟩

end MailMerge.Merge
