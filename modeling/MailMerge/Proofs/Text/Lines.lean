/-
Lines from the front. A text is cut into lines from its end; here one character after the other is
taken from its start, and what follows it tells whether its line is over. So a text can be read in one
pass, by either way of cutting it into lines.
-/
import MailMerge.Text.Lines

namespace MailMerge.Text

/-- Whether a line is over behind a character, in front of the rest of the text. -/
def lineOver (rule : LineRule) (c : Char) (rest : List Char) : Bool :=
  rest = [] || rule c rest.head?

variable {rule : LineRule} {c : Char} {cs : List Char}

theorem cutLines_cons (rule : LineRule) (c : Char) (cs : List Char) :
    cutLines rule (c :: cs) = consLine rule c (cutLines rule cs) := rfl

/-- The first line starts with the first character. -/
theorem exists_cutLines_cons (rule : LineRule) (c : Char) (cs : List Char) :
    ∃ line lines, cutLines rule (c :: cs) = (c :: line) :: lines := by
  rw [cutLines_cons]
  unfold consLine
  split
  · exact ⟨[], [], rfl⟩
  · split
    · exact ⟨[], _, rfl⟩
    · exact ⟨_, _, rfl⟩

theorem cutLines_of_over (h : lineOver rule c cs = true) :
    cutLines rule (c :: cs) = [c] :: cutLines rule cs := by
  cases cs with
  | nil => rfl
  | cons d cs =>
    obtain ⟨line, lines, hlines⟩ := exists_cutLines_cons rule d cs
    have hrule : rule c (some d) = true := by simpa [lineOver] using h
    rw [cutLines_cons, hlines]
    exact if_pos hrule

theorem cutLines_of_not_over (h : lineOver rule c cs = false) :
    ∃ line lines, cutLines rule cs = line :: lines ∧
      cutLines rule (c :: cs) = (c :: line) :: lines := by
  cases cs with
  | nil => simp [lineOver] at h
  | cons d cs =>
    obtain ⟨line, lines, hlines⟩ := exists_cutLines_cons rule d cs
    have hrule : rule c (some d) ≠ true := by simpa [lineOver] using h
    refine ⟨d :: line, lines, hlines, ?_⟩
    rw [cutLines_cons, hlines]
    exact if_neg hrule

/-- A character in front of a text adds a line if its own is over. How its line goes on shows in a
part of the text that is not empty. -/
theorem length_cutLines_cons (rule : LineRule) {front : List Char} (h : front <+: cs)
    (hnil : front = [] → cs = []) :
    (cutLines rule (c :: front)).length =
      (lineOver rule c cs).toNat + (cutLines rule front).length := by
  have hsame : lineOver rule c front = lineOver rule c cs := by
    cases front with
    | nil => rw [hnil rfl]
    | cons d front =>
      obtain ⟨back, rfl⟩ := h
      rfl
  rw [← hsame]
  cases hover : lineOver rule c front with
  | true =>
    rw [cutLines_of_over hover]
    exact Nat.add_comm _ _
  | false =>
    obtain ⟨chars, lines, hlines, hcons⟩ := cutLines_of_not_over hover
    rw [hcons, hlines]
    exact (Nat.zero_add _).symm

/-! ## The two ways of ending lines -/

theorem lineOver_lineFeed (h : cs ≠ []) :
    lineOver .lineFeed c cs = decide (c = '\n') := by
  simp [lineOver, LineRule.lineFeed, h]

theorem lineOver_eq (h : c ≠ '\r') :
    lineOver .universal c cs = lineOver .lineFeed c cs := by
  simp [lineOver, LineRule.universal, LineRule.lineFeed, h]

theorem lineOver_universal (h : lineOver .lineFeed c cs = true) :
    lineOver .universal c cs = true := by
  simp only [lineOver, LineRule.universal, LineRule.lineFeed, Bool.or_eq_true,
    decide_eq_true_eq] at h ⊢
  exact h.imp_right .inl

end MailMerge.Text
