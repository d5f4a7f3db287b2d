/-
Rows along the characters of a text. A text is cut into lines, and rows are read line by line; here
the same rows are read in one pass over the characters, which asks behind each of them whether its
line is over. Both ways of cutting a text into lines are followed in this way.
-/
import MailMerge.Data.Csv
import MailMerge.Proofs.Text.Lines

namespace MailMerge.Data.Csv

open MailMerge.Text

/-- The rows of what is left of a text, read character by character: `line` lines are complete, and
the row `p` is open. -/
def rowsAlong (rule : LineRule) (line : Nat) (p : Partial) :
    List Char → List NumberedRow × Except Fault (Nat × Partial)
  | [] => ([], .ok (line, p))
  | c :: cs =>
    match p.feed c with
    | .error fault => ([], .error fault)
    | .ok p =>
      if lineOver rule c cs then
        if p.endLine.spot = .rowStart then
          let more := rowsAlong rule (line + 1) .start cs
          (⟨line + 1, p.endLine.row⟩ :: more.1, more.2)
        else rowsAlong rule (line + 1) p.endLine cs
      else rowsAlong rule line p cs

section

variable {rule : LineRule} {line : Nat} {p q : Partial} {c : Char} {cs : List Char}

/-- A character with others of its line behind it. -/
theorem rowsAlong_within (h : p.feed c = .ok q) (hover : lineOver rule c cs = false) :
    rowsAlong rule line p (c :: cs) = rowsAlong rule line q cs := by
  rw [rowsAlong, h]
  simp [hover]

/-- The last character of a line in a quoted cell. -/
theorem rowsAlong_over_quoted (h : p.feed c = .ok q) (hover : lineOver rule c cs = true)
    (hquoted : q.spot = .quoted) :
    rowsAlong rule line p (c :: cs) = rowsAlong rule (line + 1) q cs := by
  have hend : q.endLine = q := by rw [Partial.endLine, hquoted]
  rw [rowsAlong, h]
  simp [hover, hend, hquoted]

/-- The last character of a line that completes a row. -/
theorem rowsAlong_over (h : p.feed c = .ok q) (hover : lineOver rule c cs = true)
    (hend : q.endLine.spot = .rowStart) :
    rowsAlong rule line p (c :: cs) =
      (⟨line + 1, q.endLine.row⟩ :: (rowsAlong rule (line + 1) .start cs).1,
        (rowsAlong rule (line + 1) .start cs).2) := by
  rw [rowsAlong, h]
  simp [hover, hend]

theorem rowsAlong_fault {fault : Fault} (h : p.feed c = .error fault) :
    rowsAlong rule line p (c :: cs) = ([], .error fault) := by
  rw [rowsAlong, h]

end

theorem rowsFrom_of_feed_error {line : Nat} {p : Partial} {c : Char} {fault : Fault}
    (h : p.feed c = .error fault) (chars : List Char) (lines : List (List Char)) :
    rowsFrom line p ((c :: chars) :: lines) = ([], .error fault) := by
  have hfeed : p.feedLine (c :: chars) = .error fault := by
    rw [Partial.feedLine, List.foldlM_cons, h]
    rfl
  rw [rowsFrom, hfeed]

theorem rowsFrom_of_feed {line : Nat} {p q : Partial} {c : Char} (h : p.feed c = .ok q)
    (chars : List Char) (lines : List (List Char)) :
    rowsFrom line p ((c :: chars) :: lines) = rowsFrom line q (chars :: lines) := by
  have hfeed : p.feedLine (c :: chars) = q.feedLine chars := by
    rw [Partial.feedLine, List.foldlM_cons, h]
    rfl
  rw [rowsFrom, hfeed, rowsFrom]

theorem rowsFrom_nil_cons (line : Nat) (p : Partial) (lines : List (List Char)) :
    rowsFrom line p ([] :: lines) =
      if p.endLine.spot = .rowStart then
        let more := rowsFrom (line + 1) .start lines
        (⟨line + 1, p.endLine.row⟩ :: more.1, more.2)
      else rowsFrom (line + 1) p.endLine lines := rfl

/-- Reading line by line is reading character by character. -/
theorem rowsFrom_cutLines (rule : LineRule) (line : Nat) (p : Partial) (cs : List Char) :
    rowsFrom line p (cutLines rule cs) = rowsAlong rule line p cs := by
  induction cs generalizing line p with
  | nil => rfl
  | cons c cs ih =>
    cases hfeed : p.feed c with
    | error fault =>
      obtain ⟨chars, lines, hlines⟩ := exists_cutLines_cons rule c cs
      rw [hlines, rowsFrom_of_feed_error hfeed, rowsAlong, hfeed]
    | ok q =>
      rw [rowsAlong, hfeed]
      cases hover : lineOver rule c cs with
      | true =>
        rw [cutLines_of_over hover, rowsFrom_of_feed hfeed, rowsFrom_nil_cons]
        simp only [ih, if_true]
      | false =>
        obtain ⟨chars, lines, hlines, hcons⟩ := cutLines_of_not_over hover
        rw [hcons, rowsFrom_of_feed hfeed, ← hlines, ih]
        simp

/-- All rows that were found, with the one that is left open at the end, and the first fault. -/
def closeRows : List NumberedRow × Except Fault (Nat × Partial) → List NumberedRow × Option Fault
  | (rows, .ok (line, p)) => (rows ++ lastRow line p, none)
  | (rows, .error fault) => (rows, some fault)

theorem rows_cutLines (rule : LineRule) (cs : List Char) :
    rows (cutLines rule cs) = closeRows (rowsAlong rule 0 .start cs) := by
  rw [← rowsFrom_cutLines]
  rfl

end MailMerge.Data.Csv
