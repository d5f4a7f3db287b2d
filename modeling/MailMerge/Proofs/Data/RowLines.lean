/-
Rows in the lines of a text. They lie there one behind the other: a row goes on as long as a quoted
cell is open at the end of a line, and is numbered by the line in which it ends. So the lines up to
the number of a row hold the rows up to it and no others.
-/
import MailMerge.Proofs.Data.LineEnds

namespace MailMerge.Data.Csv

/-- `Opens block p`: behind every line of `block` a quoted cell is open, and `p` is what is read of
the row. -/
inductive Opens : List (List Char) → Partial → Prop
  | none : Opens [] .start
  | line {block : List (List Char)} {p q : Partial} {chars : List Char} :
    Opens block p → p.feedLine chars = .ok q → q.spot = .quoted → Opens (block ++ [chars]) q

/-- `RowsIn line lines rows fault`: behind as many lines as `line`, the rows lie in `lines` one
behind the other, each with the number of its last line. A row goes on as long as a quoted cell is
open, and at most to the end; a fault ends the reading. -/
inductive RowsIn : Nat → List (List Char) → List NumberedRow → Option Fault → Prop
  | ended {line : Nat} : RowsIn line [] [] none
  | row {line : Nat} {block lines : List (List Char)} {chars : List Char} {p q : Partial}
      {rows : List NumberedRow} {fault : Option Fault} :
    Opens block p → p.feedLine chars = .ok q → q.spot = .rowStart →
      RowsIn (line + block.length + 1) lines rows fault →
      RowsIn line (block ++ chars :: lines) (⟨line + block.length + 1, q.row⟩ :: rows) fault
  | unclosed {line : Nat} {block : List (List Char)} {p : Partial} :
    Opens block p → p.spot = .quoted →
      RowsIn line block [⟨line + block.length, (p.save .rowStart).row⟩] none
  | fault {line : Nat} {block lines : List (List Char)} {chars : List Char} {p : Partial}
      {fault : Fault} :
    Opens block p → p.feedLine chars = .error fault →
      RowsIn line (block ++ chars :: lines) [] (some fault)

variable {block lines : List (List Char)} {p q : Partial} {chars : List Char}

theorem Opens.spot (h : Opens block p) : block = [] ∧ p = .start ∨ p.spot = .quoted := by
  cases h with
  | none => exact .inl ⟨rfl, rfl⟩
  | line _ _ hspot => exact .inr hspot

/-- Behind a line a row is complete, or a quoted cell is open. -/
theorem spot_of_feedLine (h : p.feedLine chars = .ok q) :
    q.spot = .rowStart ∨ q.spot = .quoted := by
  unfold Partial.feedLine at h
  cases hfold : chars.foldlM Partial.feed p with
  | error fault =>
    rw [hfold] at h
    cases h
  | ok r =>
    rw [hfold] at h
    cases h
    refine (endLine_spot r).imp_right fun hquoted => ?_
    rw [Partial.endLine, hquoted, hquoted]

/-- The rows that are found behind some lines of an open row, with these lines in front. -/
theorem Opens.rowsIn (h : Opens block p) (line : Nat) (lines : List (List Char)) :
    let found := closeRows (rowsFrom (line + block.length) p lines)
    RowsIn line (block ++ lines) found.1 found.2 := by
  induction lines generalizing line block p with
  | nil =>
    rw [List.append_nil]
    rcases h.spot with ⟨rfl, rfl⟩ | hquoted
    · exact .ended
    · simp only [rowsFrom, closeRows, lastRow, hquoted, if_true, List.nil_append]
      exact .unclosed h hquoted
  | cons chars lines ih =>
    cases hline : p.feedLine chars with
    | error fault =>
      simp only [rowsFrom, hline, closeRows]
      exact .fault h hline
    | ok q =>
      rcases spot_of_feedLine hline with hstart | hquoted
      · have hrest := ih .none (line + block.length + 1)
        rw [List.length_nil, Nat.add_zero, List.nil_append] at hrest
        simp only [rowsFrom, hline, hstart, if_true]
        generalize rowsFrom (line + block.length + 1) .start lines = found at hrest ⊢
        obtain ⟨rows, _ | ⟨last, r⟩⟩ := found
        · exact .row h hline hstart hrest
        · exact .row h hline hstart hrest
      · have hrest := ih (h.line hline hquoted) line
        rw [List.length_append, List.length_singleton, ← Nat.add_assoc, List.append_assoc,
          List.singleton_append] at hrest
        simpa only [rowsFrom, hline, hquoted, reduceCtorEq, if_false] using hrest

theorem rowsIn_rows (lines : List (List Char)) : RowsIn 0 lines (rows lines).1 (rows lines).2 :=
  Opens.none.rowsIn 0 lines

/-- The lines up to the number of a row are those of the rows up to it. -/
theorem RowsIn.take {line : Nat} {before after : List NumberedRow} {row : NumberedRow}
    {fault : Option Fault} (h : RowsIn line lines (before ++ row :: after) fault) :
    ∃ front back, lines = front ++ back ∧ row.line = line + front.length ∧
      RowsIn line front (before ++ [row]) none := by
  generalize hrows : before ++ row :: after = rows at h
  induction h generalizing before with
  | ended => simp at hrows
  | @row line block lines chars p q rows fault hblock hline hspot _ ih =>
    cases before with
    | nil =>
      cases hrows
      refine ⟨block ++ [chars], lines, by simp, ?_, ?_⟩
      · rw [List.length_append, List.length_singleton, Nat.add_assoc]
      · exact .row hblock hline hspot .ended
    | cons first before =>
      cases hrows
      obtain ⟨front, back, rfl, hnumber, hfront⟩ := ih rfl
      refine ⟨block ++ chars :: front, back, by simp, ?_, .row hblock hline hspot hfront⟩
      rw [hnumber, List.length_append, List.length_cons]
      omega
  | @unclosed line block p hblock hspot =>
    obtain ⟨rfl, hrow⟩ : before = [] ∧ row = ⟨line + block.length, (p.save .rowStart).row⟩ := by
      cases before with
      | nil =>
        cases hrows
        exact ⟨rfl, rfl⟩
      | cons first before => simp at hrows
    subst hrow
    exact ⟨block, [], (List.append_nil _).symm, rfl, .unclosed hblock hspot⟩
  | fault => simp at hrows

end MailMerge.Data.Csv
