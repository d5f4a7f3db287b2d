/-
Offsets, places and positions. The place of an offset is told by the line feeds in front of it, and
a position is counted character by character; both move in the same steps, so one is the other with
line and column counted from one. They tell the offsets apart, in their order, and lead back to
them: a column counts from the start of its line.
-/
import Mathlib.Data.Prod.Lex
import Mathlib.Data.Nat.Count
import Mathlib.Order.Monotone.Basic
import MailMerge.Proofs.Editor.Marks

namespace MailMerge.Text

/-! ## Places -/

theorem lineStart_le (before : List Char) : lineStart before ≤ before.length :=
  Nat.sub_le ..

theorem lineStart_concat (before : List Char) (c : Char) :
    lineStart (before ++ [c]) = if c = '\n' then before.length + 1 else lineStart before := by
  unfold lineStart
  rw [List.reverse_append, List.reverse_singleton, List.singleton_append, List.length_append,
    List.length_singleton]
  by_cases hc : c = '\n'
  · rw [List.takeWhile_cons_of_neg (by simpa using hc)]
    simp [hc]
  · rw [List.takeWhile_cons_of_pos (by simpa using hc), List.length_cons, if_neg hc]
    omega

theorem placeOf_zero (text : String) : placeOf text 0 = ⟨1, 1⟩ := rfl

/-- What one character does to the place. -/
theorem placeOf_succ (text : String) (n : Nat) :
    placeOf text (n + 1) =
      if text.toList[n]? = some '\n' then ⟨(placeOf text n).line + 1, 1⟩
      else ⟨(placeOf text n).line, (placeOf text n).column + 1⟩ := by
  have hstart : lineStart (text.toList.take n) ≤ n :=
    (lineStart_le _).trans (List.length_take_le ..)
  unfold placeOf
  simp only
  rw [List.take_add_one]
  cases hc : text.toList[n]? with
  | none =>
    simp only [Option.toList_none, List.append_nil, reduceCtorEq, if_false, Place.mk.injEq,
      true_and]
    omega
  | some c =>
    have hlength : (text.toList.take n).length = n := by
      obtain ⟨hn, -⟩ := List.getElem?_eq_some_iff.1 hc
      exact List.length_take_of_le hn.le
    rw [Option.toList_some, lineStart_concat, List.count_append, List.count_singleton, hlength]
    by_cases hfeed : c = '\n'
    · simp [hfeed]
    · simp only [hfeed, beq_iff_eq, if_false, Option.some.injEq, Place.mk.injEq, Nat.add_zero,
        true_and]
      omega

/-- A place as a pair, to be compared by the line first. -/
def Place.key (p : Place) : ℕ ×ₗ ℕ :=
  toLex (p.line, p.column)

theorem key_placeOf_lt_succ (text : String) (n : Nat) :
    (placeOf text n).key < (placeOf text (n + 1)).key := by
  rw [placeOf_succ]
  split
  · exact Prod.Lex.toLex_lt_toLex.2 (.inl (Nat.lt_succ_self _))
  · exact Prod.Lex.toLex_lt_toLex.2 (.inr ⟨rfl, Nat.lt_succ_self _⟩)

/-- Places are in the order of the offsets. -/
theorem strictMono_placeOf (text : String) : StrictMono fun n => (placeOf text n).key :=
  strictMono_nat_of_lt_succ (key_placeOf_lt_succ text)

theorem line_placeOf (text : String) (n : Nat) :
    (placeOf text n).line = Nat.count (text.toList[·]? = some '\n') n + 1 := by
  induction n with
  | zero => rfl
  | succ n ih =>
    rw [placeOf_succ, Nat.count_succ]
    split
    · rw [ih]
    · exact ih

end MailMerge.Text

namespace MailMerge.Editor

open MailMerge.Markup MailMerge.Text

/-! ## Positions -/

/-- What one character does to the position. -/
theorem Position.behind_succ (p : Position) (cs : List Char) (n : Nat) :
    p.behind cs (n + 1) =
      if cs[n]? = some '\n' then ⟨(p.behind cs n).line + 1, 0⟩
      else ⟨(p.behind cs n).line, (p.behind cs n).character + 1⟩ := by
  induction n generalizing p cs with
  | zero =>
    cases cs with
    | nil => rfl
    | cons c cs => by_cases hc : c = '\n' <;> cases cs <;> simp [behind, hc]
  | succ n ih =>
    cases cs with
    | nil => rfl
    | cons c cs =>
      by_cases hc : c = '\n'
      · subst hc
        simp only [behind, List.getElem?_cons_succ]
        exact ih _ cs
      · simp only [behind, List.getElem?_cons_succ]
        exact ih _ cs

/-- A place is a position counted from one. -/
theorem placeOf_eq (text : String) (n : Nat) :
    placeOf text n = ⟨(positionOf text n).line + 1, (positionOf text n).character + 1⟩ := by
  induction n with
  | zero => cases h : text.toList <;> simp [placeOf_zero, positionOf, Position.behind, h]
  | succ n ih =>
    rw [placeOf_succ, positionOf, Position.behind_succ, ← positionOf, ih]
    split <;> rfl

/-! ## Starts of lines -/

/-- The offset at which a line starts: the lines in front of it are that long. -/
def startOfLine (text : String) (line : Nat) : Nat :=
  ((cutLines .lineFeed text.toList).take (line - 1)).flatten.length

/-- A column counts from the start of its line. -/
theorem startOfLine_add_column (text : String) (n : Nat) :
    startOfLine text (placeOf text n).line + (placeOf text n).column = n + 1 := by
  have h := (behindBy_in_lines .lineFeed text.toList n).1
  rw [← Position.behind_eq, ← positionOf] at h
  rw [placeOf_eq, startOfLine, Nat.add_sub_cancel, ← Nat.add_assoc, h]

theorem placeOf_injective (text : String) : Function.Injective (placeOf text) := by
  intro p q h
  have hp := startOfLine_add_column text p
  have hq := startOfLine_add_column text q
  rw [h] at hp
  omega

/-! ## Errors and their marks -/

/-- A fault is reported with the place of its offset. -/
theorem place_of_parse {text : String} {e : SyntaxError}
    (h : parse text = .error (.syntaxError e)) : e.place = placeOf text e.position := by
  rw [Markup.parse, Reader.parse] at h
  generalize Reader.readNodes _ = answer at h
  obtain ⟨_ | nodes, r⟩ := answer
  · rename_i refusal
    cases refusal with
    | fault f position =>
      cases h
      rfl
    | value v => cases h
  · cases h

/-- Places and offsets correspond, past the end too: the line counts the line feeds in front of an
offset, and the column leads back to it from the start of the line. Different offsets have different
places, which are in their order. A position is a place with line and column counted from zero, and
so is the start of the mark of an error. -/
theorem places_correspond (text : String) :
    (∀ p, (placeOf text p).line = Nat.count (text.toList[·]? = some '\n') p + 1 ∧
      startOfLine text (placeOf text p).line + (placeOf text p).column = p + 1) ∧
    (∀ p q, p ≠ q → placeOf text p ≠ placeOf text q) ∧
    (∀ p q, p < q → (placeOf text p).key < (placeOf text q).key) ∧
    (∀ p, placeOf text p = ⟨(positionOf text p).line + 1, (positionOf text p).character + 1⟩) ∧
    ∀ (d : Document) (e : SyntaxError), parse text = .error (.syntaxError e) →
      ∃ mark, (d.update text).1 = .ok [mark] ∧
        e.place = ⟨mark.start.line + 1, mark.start.character + 1⟩ := by
  refine ⟨fun p => ⟨line_placeOf text p, startOfLine_add_column text p⟩, fun p q => ?_,
    fun p q h => strictMono_placeOf text h, placeOf_eq text, fun d e h => ?_⟩
  · exact (placeOf_injective text).ne
  · refine ⟨_, marks_of_parse d h, ?_⟩
    rw [place_of_parse h, placeOf_eq]
    rfl

/-- An error in the second line: the line feed itself stands in the first one. -/
theorem places_correspond_behind_feed :
    let text := "a\n\\q"
    (1 ≠ 2 ∧ placeOf text 1 ≠ placeOf text 2) ∧
      (1 < 2 ∧ (placeOf text 1).key < (placeOf text 2).key) ∧
      ∃ e mark, parse text = .error (.syntaxError e) ∧ (Document.empty.update text).1 = .ok [mark] ∧
        e.place = ⟨mark.start.line + 1, mark.start.character + 1⟩ := by
  intro text
  have hparse : parse text = .error (.syntaxError ⟨.invalidEscape 'q', 2, 2, 1⟩) := by
    unfold text
    exact parse_of_within 40 rfl
  obtain ⟨-, hne, hlt, -, hmark⟩ := places_correspond text
  obtain ⟨mark, hmark, hplace⟩ := hmark .empty _ hparse
  exact ⟨⟨by decide, hne 1 2 (by decide)⟩, ⟨by decide, hlt 1 2 (by decide)⟩,
    _, mark, hparse, hmark, hplace⟩

end MailMerge.Editor
