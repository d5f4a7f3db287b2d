/-
A condition in the tag of a loop is a test in its body. The condition starts at the record that the
loop is at, and the test at the driving record; one lookup along the name of the loop leads from
there to the record, whatever other loops are around.
-/
import MailMerge.Merge.Render

namespace MailMerge.Markup

/-- The comparison with one more lookup in front, along `name`. -/
def Comparison.via (c : Comparison) (name : String) : Comparison :=
  { c with subject := { c.subject with path := ⟨name, none⟩ :: c.subject.path } }

theorem Comparison.shown_via (c : Comparison) (name : String) :
    (c.via name).shown = name ++ "." ++ c.shown := by
  have hpath : c.subject.path.map Lookup.shown ++ [c.subject.field] ≠ [] := by simp
  simp only [shown, via, Expansion.shown, List.map_cons, List.cons_append,
    String.intercalate_cons_of_ne_nil hpath, String.append_assoc]
  rfl

end MailMerge.Markup

namespace MailMerge.Merge

open MailMerge.Data MailMerge.Markup

variable {α β : Type}

/-! ## Outcomes that name different comparisons -/

/-- The same answer, or the same error but for the comparison that is told to have failed. -/
inductive SameBut (R : Comparison → Comparison → Prop) :
    Except ResolutionError α → Except ResolutionError α → Prop
  | same (result : Except ResolutionError α) : SameBut R result result
  | failed {c c' : Comparison} (h : R c c') (fault : ValueFault) :
    SameBut R (.error (.failedComparison c fault)) (.error (.failedComparison c' fault))

/-- Outcomes that differ in no more than the comparison that failed, on the way to which the same
tables were consulted. -/
structure Consulted.SameBut (R : Comparison → Comparison → Prop) (x y : Consulted α) : Prop where
  result : Merge.SameBut R x.result y.result
  tables : x.tables = y.tables

variable {R : Comparison → Comparison → Prop}

theorem Consulted.SameBut.refl (x : Consulted α) : x.SameBut R x :=
  ⟨.same x.result, rfl⟩

theorem Consulted.SameBut.of_eq {x y : Consulted α} (h : x = y) : x.SameBut R y :=
  h ▸ .refl x

theorem Consulted.SameBut.bind {x y : Consulted α} (h : x.SameBut R y) {f g : α → Consulted β}
    (hfg : ∀ a, (f a).SameBut R (g a)) : (x >>= f).SameBut R (y >>= g) := by
  obtain ⟨result, tables⟩ := x
  obtain ⟨result', tables'⟩ := y
  obtain ⟨hresult, rfl⟩ := h
  cases hresult with
  | failed h fault => exact ⟨.failed h fault, rfl⟩
  | same =>
    cases result with
    | error e => exact .refl _
    | ok a => exact ⟨(hfg a).result, congrArg (tables ++ ·) (hfg a).tables⟩

theorem sameBut_renderEach {accept accept' : Record → Consulted Bool}
    {body body' : Record → Consulted String} (haccept : ∀ r, (accept r).SameBut R (accept' r))
    (hbody : ∀ r, (body r).SameBut R (body' r)) (records : List Record) :
    (renderEach accept body records).SameBut R (renderEach accept' body' records) := by
  induction records with
  | nil => exact .refl _
  | cons record rest ih =>
    refine (haccept record).bind fun accepted => ?_
    have hrest (text : String) := ih.bind fun more => .refl (pure (text ++ more))
    cases accepted with
    | true => exact (hbody record).bind hrest
    | false => exact (Consulted.SameBut.refl (pure "")).bind hrest

/-- Comparisons of one text with one literal have one outcome, however they came to the text. -/
theorem sameBut_compare {c c' : Comparison} {start start' : Record} {scope scope' : Scope}
    {d : Definition} (hR : R c c') (hop : c'.op = c.op) (hliteral : c'.literal = c.literal)
    (h : expand c'.subject start' scope' d = expand c.subject start scope d) :
    (compare c start scope d).SameBut R (compare c' start' scope' d) := by
  unfold compare
  rw [h, hop, hliteral]
  refine (Consulted.SameBut.refl _).bind fun text => ?_
  cases c.op.holds text c.literal with
  | ok holds => exact .refl _
  | error fault => exact ⟨.failed hR fault, rfl⟩

/-! ## Conditions and tests -/

/-- Loops over one table that leave out the same record have the same records. -/
theorem loopRecords_ofHead_eq (head head' : LoopHead)
    (htable : head'.lookup.table = head.lookup.table) (hother : head'.other = head.other)
    {record : Record} {scope scope' : Scope} {d : Definition}
    (hkey : exclusionKey head'.lookup record scope' = exclusionKey head.lookup record scope) :
    loopRecords (.ofHead head') record scope' d = loopRecords (.ofHead head) record scope d := by
  unfold loopRecords
  simp only [Binding.table_ofHead, Binding.lookup?_ofHead, htable, hother]
  cases head.other with
  | true => simp only [if_true, hkey]
  | false => rfl

/-- To ask in front of the body or as its first thing comes to the same. -/
theorem renderEach_eq (accept : Record → Consulted Bool) (body : Record → Consulted String)
    (records : List Record) :
    renderEach accept body records =
      renderEach (fun _ => pure true)
        (fun r => do if ← accept r then body r else pure "") records := by
  induction records with
  | nil => rfl
  | cons record rest ih =>
    simp only [renderEach, ih, pure_bind, if_true, bind_assoc]
    congr 1
    funext accepted
    cases accepted with
    | true => rfl
    | false => simp only [Bool.false_eq_true, if_false, pure_bind]

theorem expand_via (c : Comparison) (name : String) (candidate record : Record) (scope : Scope)
    (d : Definition) :
    expand (c.via name).subject record (scope.bind name candidate) d =
      expand c.subject candidate (scope.bind name candidate) d := by
  have hbound : Resolution.of ⟨name, none⟩ (scope.bind name candidate) = .bound name candidate := by
    simp [Resolution.of, Lookup.keyField, Scope.get?_bind]
  unfold expand resolvePath Comparison.via
  rw [List.foldlM_cons, hbound]
  rfl

theorem renderPieces_singleton (record : Record) (d : Definition) (piece : Piece) (scope : Scope) :
    renderPieces record d [piece] scope = renderPiece record d piece scope := by
  simp only [renderPieces, pure_bind, String.append_empty, bind_pure]

/-- A loop whose tag has a condition gives what the loop without it gives when its body is put under
that test, where the test goes to the record along the name of the loop. The only difference is the
comparison that is told to have failed. -/
theorem renderPiece_condition_in_body (name : String) (lookup : Lookup) (other : Bool)
    (c : Comparison) (body : List Node) (record : Record) (scope : Scope) (d : Definition) :
    (renderPiece record d
        (.ofNode (.block (.loop ⟨name, lookup, some c, other⟩) body)) scope).SameBut
      (fun failed failed' => failed = c ∧ failed' = c.via name ∧
        failed'.shown = name ++ "." ++ failed.shown)
      (renderPiece record d
        (.ofNode (.block (.loop ⟨name, lookup, none, other⟩)
          [.block (.conditional (c.via name)) body])) scope) := by
  have hrecords : loopRecords (.ofHead ⟨name, lookup, some c, other⟩) record scope d =
      loopRecords (.ofHead ⟨name, lookup, none, other⟩) record scope d :=
    loopRecords_ofHead_eq ⟨name, lookup, none, other⟩ ⟨name, lookup, some c, other⟩ rfl rfl rfl
  have haccepts (candidate : Record) :
      accepts name (.ofHead ⟨name, lookup, some c, other⟩) scope d candidate =
        compare c candidate (scope.bind name candidate) d := by
    rw [accepts, Binding.condition?_ofHead]
  have hall (candidate : Record) :
      accepts name (.ofHead ⟨name, lookup, none, other⟩) scope d candidate = pure true := by
    rw [accepts, Binding.condition?_ofHead]
  simp only [Piece.ofNode, Piece.ofNodes, renderPiece, renderPieces_singleton]
  rw [hrecords]
  refine (Consulted.SameBut.refl _).bind fun records => ?_
  -- Only the loop with the condition is turned into one that accepts every record.
  rw [renderEach_eq]
  refine sameBut_renderEach (fun r => ?_) (fun r => ?_) records
  · rw [hall]
    exact .refl _
  · rw [haccepts]
    refine Consulted.SameBut.bind ?_ fun holds => .refl _
    exact sameBut_compare ⟨rfl, rfl, c.shown_via name⟩ rfl rfl (expand_via c name r record scope d)

end MailMerge.Merge
