/-
Where the marks in a template point to. The position of a mark is counted in lines that end with line
feeds, and an editor looks positions up in lines that end at every line boundary. Both mean the same
character as long as nothing but line feeds ends a line in front of it.
-/
import MailMerge.Editor.Document
import MailMerge.Proofs.Markup.Reading
import MailMerge.Proofs.Text.Lines

namespace MailMerge.Editor

open MailMerge.Markup MailMerge.Text

variable {rule : LineRule} {p q : Position} {c : Char} {cs line : List Char}
  {lines : List (List Char)} {n : Nat}

/-! ## Positions in lines -/

/-- The offset of the character at a position, if there is one. -/
def offset? (lines : List (List Char)) (p : Position) : Option Nat :=
  if p.character < (lines.getD p.line []).length then
    some ((lines.take p.line).flatten.length + p.character)
  else none

/-- The character at a position, if there is one. -/
def charAt? (lines : List (List Char)) (p : Position) : Option Char :=
  lines[p.line]?.bind (·[p.character]?)

theorem offset?_cons_zero (line : List Char) (lines : List (List Char)) (k : Nat) :
    offset? (line :: lines) ⟨0, k⟩ = if k < line.length then some k else none := by
  simp [offset?]

theorem offset?_cons_succ (line : List Char) (lines : List (List Char)) (l k : Nat) :
    offset? (line :: lines) ⟨l + 1, k⟩ = (offset? lines ⟨l, k⟩).map (line.length + ·) := by
  unfold offset?
  simp only [List.getD_cons_succ, List.take_succ_cons, List.flatten_cons, List.length_append]
  split
  · rw [Option.map_some, Nat.add_assoc]
  · rfl

/-- What stands at a position is what the text has at its offset. -/
theorem charAt?_of_offset? (h : offset? lines p = some n) : charAt? lines p = lines.flatten[n]? := by
  obtain ⟨l, k⟩ := p
  induction lines generalizing l n with
  | nil => simp [offset?] at h
  | cons line lines ih =>
    cases l with
    | zero =>
      rw [offset?_cons_zero, Option.ite_none_right_eq_some] at h
      obtain ⟨hlt, hk⟩ := h
      cases hk
      rw [List.flatten_cons, List.getElem?_append_left hlt]
      rfl
    | succ l =>
      rw [offset?_cons_succ, Option.map_eq_some_iff] at h
      obtain ⟨m, hm, rfl⟩ := h
      rw [List.flatten_cons, List.getElem?_append_right (Nat.le_add_right ..),
        Nat.add_sub_cancel_left, ← ih l hm]
      rfl

/-- Different positions have different offsets. -/
theorem eq_of_offset? (hp : offset? lines p = some n) (hq : offset? lines q = some n) : p = q := by
  obtain ⟨l, k⟩ := p
  obtain ⟨l', k'⟩ := q
  induction lines generalizing l l' n with
  | nil => simp [offset?] at hp
  | cons line lines ih =>
    cases l with
    | zero =>
      rw [offset?_cons_zero, Option.ite_none_right_eq_some] at hp
      obtain ⟨hlt, hk⟩ := hp
      cases hk
      cases l' with
      | zero =>
        rw [offset?_cons_zero, Option.ite_none_right_eq_some] at hq
        rw [Option.some.inj hq.2]
      | succ l' =>
        rw [offset?_cons_succ, Option.map_eq_some_iff] at hq
        obtain ⟨m, -, hm⟩ := hq
        omega
    | succ l =>
      rw [offset?_cons_succ, Option.map_eq_some_iff] at hp
      obtain ⟨m, hm, rfl⟩ := hp
      cases l' with
      | zero =>
        rw [offset?_cons_zero, Option.ite_none_right_eq_some] at hq
        have := Option.some.inj hq.2
        omega
      | succ l' =>
        rw [offset?_cons_succ, Option.map_eq_some_iff] at hq
        obtain ⟨m', hm', hsame⟩ := hq
        obtain rfl : m' = m := Nat.add_left_cancel hsame
        cases ih l hm l' hm'
        rfl

/-! ## Positions by a rule -/

namespace Position

/-- The position that is `n` characters behind `p`, where a rule tells which lines end. -/
def behindBy (rule : LineRule) (p : Position) : List Char → Nat → Position
  | _, 0 => p
  | [], n => ⟨p.line, p.character + n⟩
  | c :: cs, n + 1 =>
    if rule c cs.head? then behindBy rule ⟨p.line + 1, 0⟩ cs n
    else behindBy rule ⟨p.line, p.character + 1⟩ cs n

/-- Marks are counted by line feeds. -/
theorem behind_eq (p : Position) (cs : List Char) (n : Nat) :
    p.behind cs n = p.behindBy .lineFeed cs n := by
  induction n generalizing p cs with
  | zero => cases cs <;> rfl
  | succ n ih =>
    cases cs with
    | nil => rfl
    | cons c cs =>
      by_cases hc : c = '\n' <;> simp [behind, behindBy, LineRule.lineFeed, hc, ih]

/-- Where the counting starts matters for the line, and in the first line for the character. -/
theorem behindBy_eq (rule : LineRule) (l k : Nat) (cs : List Char) (n : Nat) :
    behindBy rule ⟨l, k⟩ cs n =
      let q := behindBy rule ⟨0, 0⟩ cs n
      ⟨l + q.line, if q.line = 0 then k + q.character else q.character⟩ := by
  induction n generalizing l k cs with
  | zero => cases cs <;> simp [behindBy]
  | succ n ih =>
    cases cs with
    | nil => simp [behindBy]
    | cons c cs =>
      unfold behindBy
      split
      · rw [ih, ih (0 + 1)]
        simp [Nat.add_assoc]
      · rw [ih, ih 0 (0 + 1)]
        simp only [Nat.zero_add]
        split <;> simp [Nat.add_assoc]

end Position

open Position

/-- The position that is counted by a rule, in the lines that are cut by the rule. The lines in
front of it and the characters in its line are all that is in front of the offset, and its line has
a character there unless the text is over. -/
theorem behindBy_in_lines (rule : LineRule) (cs : List Char) (n : Nat) :
    let q := behindBy rule ⟨0, 0⟩ cs n
    let lines := cutLines rule cs
    (lines.take q.line).flatten.length + q.character = n ∧
      (n < cs.length → q.character < (lines.getD q.line []).length) := by
  induction cs generalizing n with
  | nil => cases n <;> simp [behindBy, cutLines]
  | cons c cs ih =>
    cases n with
    | zero =>
      obtain ⟨line, lines, hlines⟩ := exists_cutLines_cons rule c cs
      simp [hlines, behindBy]
    | succ n =>
      obtain ⟨hfound, hchar⟩ := ih n
      rw [behindBy]
      split
      · rename_i hrule
        have hover : lineOver rule c cs = true := by simp [lineOver, hrule]
        rw [cutLines_of_over hover, behindBy_eq]
        generalize behindBy rule ⟨0, 0⟩ cs n = q at hfound hchar ⊢
        simp only [Nat.zero_add, ite_self, Nat.add_comm 1 q.line, List.take_succ_cons,
          List.flatten_cons, List.length_append, List.length_cons, List.length_nil,
          List.getD_cons_succ]
        exact ⟨by omega, fun h => hchar (by omega)⟩
      · rename_i hrule
        rw [behindBy_eq]
        cases hover : lineOver rule c cs with
        | true =>
          -- The text ends here.
          obtain rfl : cs = [] := by simpa [lineOver, hrule] using hover
          cases n <;> simp [behindBy, Nat.add_comm]
        | false =>
          obtain ⟨line, lines, hlines, hcons⟩ := cutLines_of_not_over hover
          rw [hcons]
          rw [hlines] at hfound hchar
          generalize behindBy rule ⟨0, 0⟩ cs n = q at hfound hchar ⊢
          obtain ⟨_ | l, k⟩ := q
          · simp only [List.take_zero, List.flatten_nil, List.length_nil, Nat.zero_add, if_true,
              List.getD_cons_zero, List.length_cons] at hfound hchar ⊢
            exact ⟨by omega, fun h => by have := hchar (by omega); omega⟩
          · simp only [Nat.zero_add, Nat.add_one_ne_zero, if_false, List.take_succ_cons,
              List.flatten_cons, List.length_append, List.length_cons, List.getD_cons_succ]
              at hfound hchar ⊢
            exact ⟨by omega, fun h => hchar (by omega)⟩

/-- The position that is counted by a rule is the one in the lines that are cut by the rule. -/
theorem offset?_behindBy (rule : LineRule) {cs : List Char} {n : Nat} (h : n < cs.length) :
    offset? (cutLines rule cs) (behindBy rule ⟨0, 0⟩ cs n) = some n := by
  obtain ⟨hfound, hchar⟩ := behindBy_in_lines rule cs n
  rw [offset?, if_pos (hchar h), hfound]

theorem offset?_eq_some_iff (h : n < cs.length) :
    offset? (cutLines rule cs) p = some n ↔ p = behindBy rule ⟨0, 0⟩ cs n :=
  ⟨fun hp => eq_of_offset? hp (offset?_behindBy rule h), fun hp => hp ▸ offset?_behindBy rule h⟩

/-! ## Two rules -/

/-- In front of an offset nothing but line feeds ends a line. -/
def FeedsBefore (cs : List Char) (n : Nat) : Prop :=
  ∀ i < n, ∀ c, cs[i]? = some c → LineRule.boundary c cs[i + 1]? = true → c = '\n'

theorem feedsBefore_cons :
    FeedsBefore (c :: cs) (n + 1) ↔
      (LineRule.boundary c cs.head? = true → c = '\n') ∧ FeedsBefore cs n := by
  constructor
  · intro h
    refine ⟨fun hc => h 0 (Nat.zero_lt_succ n) c rfl ?_, fun i hi => h (i + 1) (by omega)⟩
    rwa [List.getElem?_cons_succ, ← List.head?_eq_getElem?]
  · rintro ⟨hfirst, hrest⟩ i hi d hd hboundary
    cases i with
    | zero =>
      cases hd
      rw [List.getElem?_cons_succ, ← List.head?_eq_getElem?] at hboundary
      exact hfirst hboundary
    | succ i => exact hrest i (by omega) d hd hboundary

/-- Every line feed is a line boundary. -/
theorem boundary_of_lineFeed {next : Option Char} (h : LineRule.lineFeed c next = true) :
    LineRule.boundary c next = true := by
  obtain rfl : c = '\n' := of_decide_eq_true h
  rfl

/-- A line that is behind stays behind. -/
theorem line_lt (p q : Position) (h : p.line < q.line) (cs : List Char) (n : Nat) :
    (p.behindBy .lineFeed cs n).line < (q.behindBy .boundary cs n).line := by
  induction n generalizing p q cs with
  | zero => cases cs <;> exact h
  | succ n ih =>
    cases cs with
    | nil => exact h
    | cons c cs =>
      unfold behindBy
      split
      · rename_i hfeed
        rw [if_pos (boundary_of_lineFeed hfeed)]
        exact ih _ _ (Nat.succ_lt_succ h) cs
      · split
        · exact ih _ _ (Nat.lt_succ_of_lt h) cs
        · exact ih ⟨p.line, p.character + 1⟩ ⟨q.line, q.character + 1⟩ h cs

/-- Both rules count the same position if they end the same lines in front of it. -/
theorem behindBy_boundary_eq_iff (p : Position) (cs : List Char) (n : Nat) :
    p.behindBy .lineFeed cs n = p.behindBy .boundary cs n ↔ FeedsBefore cs n := by
  induction n generalizing p cs with
  | zero =>
    have hfeeds : FeedsBefore cs 0 := fun i hi => absurd hi (Nat.not_lt_zero i)
    exact iff_of_true (by cases cs <;> rfl) hfeeds
  | succ n ih =>
    cases cs with
    | nil =>
      have hfeeds : FeedsBefore [] (n + 1) := fun i _ c hc => nomatch hc
      exact iff_of_true rfl hfeeds
    | cons c cs =>
      rw [feedsBefore_cons]
      unfold behindBy
      split
      · rename_i hfeed
        rw [if_pos (boundary_of_lineFeed hfeed), ih]
        exact (and_iff_right fun _ => of_decide_eq_true hfeed).symm
      · rename_i hfeed
        split
        · rename_i hboundary
          -- From here on the lines of the text are ahead of the counting.
          have hlt := line_lt ⟨p.line, p.character + 1⟩ ⟨p.line + 1, 0⟩ (Nat.lt_succ_self _) cs n
          refine iff_of_false (fun h => ?_) fun h => hfeed (decide_eq_true (h.1 hboundary))
          rw [h] at hlt
          exact Nat.lt_irrefl _ hlt
        · rename_i hboundary
          rw [ih]
          exact (and_iff_right fun h => absurd h hboundary).symm

/-! ## Marks -/

theorem lines_update (d : Document) (text : String) :
    (d.update text).2.lines = cutLines .boundary text.toList := rfl

theorem marks_of_parse (d : Document) {text : String} {e : SyntaxError}
    (h : parse text = .error (.syntaxError e)) : (d.update text).1 = .ok [.ofError text e] := by
  have hanew : (d.reader.parse text).1 = parse text := rfl
  unfold Document.update diagnose
  generalize d.reader.parse text = answer at hanew ⊢
  obtain ⟨result, r⟩ := answer
  cases hanew.trans h
  rfl

/-- A template with a syntax error inside is marked once. The mark is at the character of the error,
in the lines that an editor goes by, if and only if nothing but line feeds ends a line in front. -/
theorem marks_error_iff (d : Document) (text : String) {e : SyntaxError}
    (hparse : parse text = .error (.syntaxError e)) (hinside : e.position < text.length) :
    ∃ mark, (d.update text).1 = .ok [mark] ∧
      (offset? (d.update text).2.lines mark.start = some e.position ↔
        FeedsBefore text.toList e.position) ∧
      (FeedsBefore text.toList e.position →
        charAt? (d.update text).2.lines mark.start = text.toList[e.position]?) := by
  have haddress : offset? (d.update text).2.lines (Diagnostic.ofError text e).start =
      some e.position ↔ FeedsBefore text.toList e.position := by
    rw [lines_update, offset?_eq_some_iff hinside, ← behindBy_boundary_eq_iff ⟨0, 0⟩]
    show Position.behind ⟨0, 0⟩ text.toList e.position = _ ↔ _
    rw [behind_eq]
  refine ⟨_, marks_of_parse d hparse, haddress, fun hfeeds => ?_⟩
  have hchar := charAt?_of_offset? (haddress.2 hfeeds)
  rwa [lines_update, flatten_cutLines, ← lines_update d] at hchar

/-- An error in the second line, behind a line feed. -/
theorem marks_error_behind_feed :
    let text := "a\n\\q"
    ∃ e, parse text = .error (.syntaxError e) ∧ e.position < text.length ∧
      ∃ mark, (Document.empty.update text).1 = .ok [mark] ∧
        charAt? (Document.empty.update text).2.lines mark.start = text.toList[e.position]? := by
  intro text
  have hparse : parse text = .error (.syntaxError ⟨.invalidEscape 'q', 2, 2, 1⟩) := by
    unfold text
    exact parse_of_within 40 rfl
  have hfeeds : FeedsBefore text.toList 2 := by
    intro i hi c hc hboundary
    have hcs : text.toList = ['a', '\n', '\\', 'q'] := by decide
    rw [hcs] at hc hboundary
    rcases i with _ | _ | i
    · cases hc
      cases hboundary
    · exact (Option.some.inj hc).symm
    · omega
  obtain ⟨mark, hmark, -, hchar⟩ := marks_error_iff .empty text hparse (by decide)
  exact ⟨_, hparse, by decide, mark, hmark, hchar hfeeds⟩

/-- An error behind a carriage return, which ends a line: the first line is too short to have a
character where the mark is. -/
theorem mark_behind_return :
    let text := "a\rb\\q"
    ∃ e mark, parse text = .error (.syntaxError e) ∧ e.position < text.length ∧
      (Document.empty.update text).1 = .ok [mark] ∧
      charAt? (Document.empty.update text).2.lines mark.start ≠ text.toList[e.position]? := by
  intro text
  have hparse : parse text = .error (.syntaxError ⟨.invalidEscape 'q', 3, 1, 4⟩) := by
    unfold text
    exact parse_of_within 40 rfl
  refine ⟨_, _, hparse, by decide, marks_of_parse .empty hparse, ?_⟩
  rw [lines_update]
  decide

end MailMerge.Editor
