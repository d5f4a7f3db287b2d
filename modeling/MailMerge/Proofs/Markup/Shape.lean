/-
What tokens look like. The shape of a token tells how it is spelled, without the text around it.
Whatever the scanner cuts has a shape, and what has a shape is cut wherever a text stands behind it
that ends it; so the text behind a token can be exchanged.
-/
import Mathlib.Data.List.TakeWhile
import MailMerge.Proofs.Markup.RoundTrip
import MailMerge.Proofs.Number.Extent

namespace MailMerge.Markup

open MailMerge.Text MailMerge.Number

/-! ## Runs of units -/

/-- Whether a text ends in the character `c` with no backslash that escapes it. -/
def endsUnescaped (c : Char) : List Char → Bool
  | [] => false
  | [d] => d = c
  | '\\' :: _ :: cs => endsUnescaped c cs
  | _ :: cs => endsUnescaped c cs

theorem endsUnescaped_cons {c d : Char} {cs : List Char} (hd : d ≠ '\\') (hcs : cs ≠ []) :
    endsUnescaped c (d :: cs) = endsUnescaped c cs := by
  obtain ⟨e, cs, rfl⟩ := List.exists_cons_of_ne_nil hcs
  rw [endsUnescaped]
  · simp
  · rintro _ _ rfl
    exact (hd rfl).elim

namespace Units

variable {u : Units}

/-- A run of units is read on if its last character stays plain. -/
theorem span_append_span {cs more : List Char}
    (h : ∀ c, endsUnescaped c (u.span cs).1 = true → u.plain c (u.span cs).2.head? = true →
      u.plain c more.head? = true) :
    u.span ((u.span cs).1 ++ more) = ((u.span cs).1 ++ (u.span more).1, (u.span more).2) := by
  fun_induction Units.span u cs with
  | case1 => rfl
  | case2 c rest hc run ih =>
    have ih := ih h
    simp only [List.cons_append, span, if_pos hc, run, ih]
  | case3 => rfl
  | case4 c rest hplain hc run ih =>
    have hspan := u.span_append rest
    have hlast : u.plain c (run.1 ++ more).head? = true := by
      cases hrun : run.1 with
      | nil =>
        -- This is the last character of the run.
        have hrest : run.2 = rest := by simpa [run, hrun] using hspan
        exact h c (by simp [hrun, endsUnescaped]) (by rw [hrest]; exact hc.2)
      | cons d tail =>
        have hhead : rest.head? = some d := by
          rw [← hspan]
          simp only [run] at hrun
          simp [hrun]
        rw [List.cons_append, List.head?_cons, ← hhead]
        exact hc.2
    have ih : u.span (run.1 ++ more) = (run.1 ++ (u.span more).1, (u.span more).2) := by
      refine ih fun d hd => ?_
      have hne : run.1 ≠ [] := by
        intro hnil
        rw [show (u.span rest).1 = [] from hnil] at hd
        cases hd
      exact h d (by rw [endsUnescaped_cons hc.1 hne]; exact hd)
    rw [List.cons_append, span]
    · simp only [if_pos (And.intro hc.1 hlast), ih, List.cons_append]
    · rintro _ _ rfl
      exact (hc.1 rfl).elim
  | case5 => rfl

/-- What ends a run can be exchanged for what starts alike and ends runs as well. -/
theorem span_append_of_head? {w rest more : List Char} (h : u.span (w ++ rest) = (w, rest))
    (hhead : rest.head? = more.head?) (hmore : u.span more = ([], more)) :
    u.span (w ++ more) = (w, more) := by
  have hspan := @span_append_span u (w ++ rest) more
  rw [h, hhead, hmore, List.append_nil] at hspan
  exact hspan fun _ _ hplain => hplain

/-- Behind a run of units there is no other one. -/
theorem span_span (u : Units) (cs : List Char) :
    u.span (u.span cs).2 = ([], (u.span cs).2) := by
  fun_induction Units.span u cs with
  | case1 => rfl
  | case2 c rest hc run ih => exact ih
  | case3 c rest hc => simp only [span, if_neg hc]
  | case4 c rest hplain hc run ih => exact ih
  | case5 c rest hplain hc =>
    rw [span]
    · simp only [if_neg hc]
    · exact hplain

/-- A text that is one run of units. -/
def Spells (u : Units) (w : List Char) : Prop :=
  u.span w = (w, [])

/-- Units for which it does not matter what follows a character. -/
def Uniform (u : Units) : Prop :=
  ∀ c next next', u.plain c next = u.plain c next'

theorem uniform_expansionUnits : expansionUnits.Uniform := fun _ _ _ => rfl

theorem uniform_tagUnits : tagUnits.Uniform := fun _ _ _ => rfl

theorem uniform_quotedUnits : quotedUnits.Uniform := fun _ _ _ => rfl

theorem uniform_stringUnits : stringUnits.Uniform := fun _ _ _ => rfl

/-- A run stays one at the end of a text, where nothing follows its last character. -/
theorem spells_span (h : ∀ c next, u.plain c next = true → u.plain c none = true) (cs : List Char) :
    u.Spells (u.span cs).1 := by
  have hspan := @span_append_span u cs [] fun c _ hc => h c _ hc
  rw [List.append_nil] at hspan
  exact hspan.trans (by rw [span, List.append_nil])

theorem Uniform.spells_span (h : u.Uniform) (cs : List Char) : u.Spells (u.span cs).1 :=
  Units.spells_span (fun c next hc => by rwa [h c none next]) cs

/-- A run goes on with the units of what follows it. -/
theorem Spells.span_append {w more : List Char} (h : u.Spells w)
    (hmore : ∀ c, endsUnescaped c w = true → u.plain c none = true → u.plain c more.head? = true) :
    u.span (w ++ more) = (w ++ (u.span more).1, (u.span more).2) := by
  have hspan := @span_append_span u w more
  rw [show u.span w = (w, []) from h] at hspan
  exact hspan hmore

theorem Spells.span_uniform {w more : List Char} (h : u.Spells w) (hu : u.Uniform)
    (hmore : u.span more = ([], more)) : u.span (w ++ more) = (w, more) := by
  rw [h.span_append fun c _ hc => by rwa [hu c _ none], hmore, List.append_nil]

/-- A run starts with a plain character or with an escape. -/
theorem Spells.head {c : Char} {w : List Char} (h : u.Spells (c :: w)) :
    c = '\\' ∨ u.plain c w.head? = true := by
  by_cases hc : c = '\\'
  · exact .inl hc
  · refine .inr ?_
    unfold Spells at h
    rw [span] at h
    · split at h
      · rename_i hplain
        exact hplain.2
      · cases h
    · rintro _ _ rfl
      exact (hc rfl).elim

/-- What stands between quotes is a run of units. -/
theorem spells_of_spanQuoted (hu : u.Uniform) {quote : Char} {cs inside rest : List Char}
    (h : u.spanQuoted quote cs = some (inside, rest)) : u.Spells inside := by
  unfold spanQuoted at h
  split at h
  · cases h
  · split at h
    · split at h
      · cases h
      · split at h
        · cases h
          exact hu.spells_span _
        · cases h
    · cases h

theorem Spells.spanQuoted {inside : List Char} (h : u.Spells inside) (hu : u.Uniform) (quote : Char)
    (hquote : quote ≠ '\\') (hplain : ∀ next, u.plain quote next = false) (rest : List Char) :
    u.spanQuoted quote (quote :: inside ++ quote :: rest) = some (inside, rest) := by
  have hend : u.span (quote :: rest) = ([], quote :: rest) := span_of_not_plain hquote (hplain _)
  have hspan := h.span_uniform hu hend
  simp [Units.spanQuoted, hspan]

end Units

/-! ## Shapes -/

/-- How the tokens inside of a bracket are spelled. -/
inductive Bracket.Shape (b : Bracket) : TokenKind → List Char → Prop
  | closing {blanks : List Char} (hblanks : ∀ c ∈ blanks, isBlank c = true) :
    Shape b b.close.2 (blanks ++ b.close.1)
  | blank {blanks : List Char} (hne : blanks ≠ []) (hblanks : ∀ c ∈ blanks, isBlank c = true) :
    Shape b .blank blanks
  | quoted {inside : List Char} (hne : inside ≠ []) (h : quotedUnits.Spells inside) :
    Shape b (Rule.segmentOf inside) ('\x60' :: inside ++ ['\x60'])
  | word {w : List Char} (hne : w ≠ []) (h : b.units.Spells w) : Shape b (b.word w) w
  | dot : Shape b .dot ['.']
  | atSign : Shape b .atSign ['@']
  | operator (op : Comparator) (hb : b = .tag) : Shape b (.operator op) op.symbol.toList

/-- How the literal behind a comparator is spelled. -/
inductive LiteralShape : TokenKind → List Char → Prop
  | quoted {inside : List Char} (h : stringUnits.Spells inside) :
    LiteralShape (.literal (.text (String.ofList (unescape inside)))) ('"' :: inside ++ ['"'])
  | number {w : List Char} {d : DecimalSpelling} {value : Literal}
    (hspan : spanDecimal w = some (d, []))
    (hread : Literal.readNumber (String.ofList w) = .ok (some value)) :
    LiteralShape (.literal value) w

/-- How the tokens between brackets are spelled. -/
inductive TextShape : TokenKind → List Char → Prop
  | opening (b : Bracket) {blanks : List Char} (hblanks : ∀ c ∈ blanks, isBlank c = true) :
    TextShape b.start.2 (b.start.1 ++ blanks)
  | text {w : List Char} (hne : w ≠ []) (h : textUnits.Spells w) :
    TextShape (.text (String.ofList (unescape w))) w

/-- How the tokens of a mode are spelled. -/
def Mode.Shape : Mode → TokenKind → List Char → Prop
  | .text => TextShape
  | .expansion => Bracket.expansion.Shape
  | .tag => Bracket.tag.Shape
  | .literal => LiteralShape

/-- What ends a token, when names are spelled in the given units. A text is not listed; what ends it
depends on how it is spelled. -/
def TokenKind.EndsBefore (u : Units) : TokenKind → List Char → Prop
  | openExpansion, more | openTag, more | blank, more | atSign, more => StartsWord more
  | segment _, more | keyword _, more => u.span more = ([], more)
  | operator _, more => more.head? ≠ some '='
  | literal _, more => EndsDecimal more
  | dot, _ | closeExpansion, _ | closeTag, _ => True
  | text _, _ => False

/-! ## What has a shape is cut -/

theorem Mode.scan_of_rules {mode : Mode} {cs : List Char} {x : Lexeme}
    (h : mode.rules.findSome? (· cs) = some x) : mode.scan cs = .ok x := by
  unfold scan
  rw [h]

/-- A run over a single token tells how the token is cut. -/
theorem Scans.scan {mode mode' : Mode} {w more : List Char} {kind : TokenKind}
    (h : Scans mode (w ++ more) [kind] mode' more) (hmode : mode ≠ .literal) :
    mode.scan (w ++ more) = .ok ⟨kind, w, more⟩ := by
  cases h with
  | cons hscan hrest =>
    rename_i x
    cases hrest
    have hskip : mode.skip (w ++ x.rest) = w ++ x.rest := by
      unfold Mode.skip
      rw [if_neg hmode]
    rw [hskip] at hscan
    have hspelling : x.spelling = w := List.append_cancel_right (Mode.scan_cuts hscan).2
    rw [hscan, ← hspelling]

section

variable {blanks : List Char} (hblanks : ∀ c ∈ blanks, isBlank c = true) (more : List Char)

include hblanks

theorem leadingBlanks_append : leadingBlanks (blanks ++ more) = blanks ++ leadingBlanks more :=
  List.takeWhile_append_of_pos hblanks

theorem dropBlanks_append : dropBlanks (blanks ++ more) = dropBlanks more :=
  List.dropWhile_append_of_pos hblanks

end

theorem StartsWord.blanks {cs : List Char} (h : StartsWord cs) :
    leadingBlanks cs = [] ∧ dropBlanks cs = cs := by
  obtain ⟨c, cs, rfl, hc, -⟩ := h
  exact ⟨leadingBlanks_cons hc cs, dropBlanks_cons hc cs⟩

namespace Bracket

variable (b : Bracket)

theorem mode_ne_literal : b.mode ≠ .literal := by
  cases b <;> decide

/-- A word is no closing bracket. -/
theorem closing_eq_none {cs : List Char} (h : StartsWord cs) :
    Rule.closing b.close.2 b.close.1 cs = none := by
  rw [Rule.closing, h.blanks.2]
  obtain ⟨c, cs, rfl, -, hat, hbrace⟩ := h
  cases b <;> simp [Rule.fixed, close, Ne.symm hat, Ne.symm hbrace]

theorem scan_closing {blanks : List Char} (hblanks : ∀ c ∈ blanks, isBlank c = true)
    (more : List Char) :
    b.mode.scan (blanks ++ b.close.1 ++ more) = .ok ⟨b.close.2, blanks ++ b.close.1, more⟩ := by
  have hbracket : leadingBlanks (b.close.1 ++ more) = [] ∧
      dropBlanks (b.close.1 ++ more) = b.close.1 ++ more := by
    cases b <;> exact ⟨leadingBlanks_cons rfl _, dropBlanks_cons rfl _⟩
  have hclosing : Rule.closing b.close.2 b.close.1 (blanks ++ b.close.1 ++ more) =
      some ⟨b.close.2, blanks ++ b.close.1, more⟩ := by
    rw [List.append_assoc, Rule.closing, leadingBlanks_append hblanks, dropBlanks_append hblanks,
      hbracket.1, hbracket.2]
    simp [Rule.fixed]
  refine Mode.scan_of_rules ?_
  cases b <;>
  · simp only [close] at hclosing
    simp only [mode, Mode.rules, List.findSome?_cons, hclosing, close]

theorem scan_blank {blanks more : List Char} (hne : blanks ≠ [])
    (hblanks : ∀ c ∈ blanks, isBlank c = true) (h : StartsWord more) :
    b.mode.scan (blanks ++ more) = .ok ⟨.blank, blanks, more⟩ := by
  have hclosing : Rule.closing b.close.2 b.close.1 (blanks ++ more) = none := by
    have hmore := b.closing_eq_none h
    rw [Rule.closing, h.blanks.2] at hmore
    rw [Rule.closing, dropBlanks_append hblanks, h.blanks.2]
    simpa using hmore
  have hblank : Rule.blank (blanks ++ more) = some ⟨.blank, blanks, more⟩ := by
    simp [Rule.blank, leadingBlanks_append hblanks, dropBlanks_append hblanks, h.blanks, hne]
  refine Mode.scan_of_rules ?_
  cases b <;>
  · simp only [close] at hclosing
    simp only [mode, Mode.rules, List.findSome?_cons, hclosing, hblank]

theorem scan_quoted {inside : List Char} (hne : inside ≠ []) (h : quotedUnits.Spells inside)
    (more : List Char) :
    b.mode.scan ('\x60' :: inside ++ ['\x60'] ++ more) =
      .ok ⟨Rule.segmentOf inside, '\x60' :: inside ++ ['\x60'], more⟩ := by
  have hstart : StartsWord ('\x60' :: inside ++ ['\x60'] ++ more) :=
    ⟨'\x60', _, rfl, rfl, by decide, by decide⟩
  have hquoted := h.spanQuoted Units.uniform_quotedUnits '\x60' (by decide)
    (fun _ => rfl) more
  have hsegment : Rule.quotedSegment ('\x60' :: inside ++ ['\x60'] ++ more) =
      some ⟨Rule.segmentOf inside, '\x60' :: inside ++ ['\x60'], more⟩ := by
    simp only [List.cons_append, List.append_assoc, List.nil_append] at hquoted ⊢
    simp [Rule.quotedSegment, hquoted, hne]
  have hclosing := b.closing_eq_none hstart
  have hblank : Rule.blank ('\x60' :: inside ++ ['\x60'] ++ more) = none :=
    Rule.blank_eq_none rfl _
  refine Mode.scan_of_rules ?_
  cases b <;>
  · simp only [close] at hclosing
    simp only [mode, Mode.rules, List.findSome?_cons, hclosing, hblank, hsegment]

theorem scan_operator (op : Comparator) {more : List Char} (h : more.head? ≠ some '=') :
    Mode.tag.scan (op.symbol.toList ++ more) = .ok ⟨.operator op, op.symbol.toList, more⟩ := by
  have hstart := (startsWord_operator op).append more
  have hclosing : Rule.closing .closeTag ['@', '}'] (op.symbol.toList ++ more) = none :=
    Bracket.tag.closing_eq_none hstart
  have hword : Rule.run tagUnits Rule.wordOf (op.symbol.toList ++ more) = none :=
    Rule.run_eq_none (by cases op <;> exact Units.span_of_not_plain (by decide) rfl)
  -- The longer comparators come first, so the equals sign behind a shorter one would join it.
  have hcomparator : Rule.comparator (op.symbol.toList ++ more) =
      some ⟨.operator op, op.symbol.toList, more⟩ := by
    cases more with
    | nil => cases op <;> rfl
    | cons c more =>
      have hc : '=' ≠ c := fun hc => h (by rw [hc]; rfl)
      cases op <;> simp [Rule.comparator, Rule.fixed, Comparator.symbol, hc]
  refine Mode.scan_of_rules ?_
  simp only [Mode.rules, List.findSome?_cons, hclosing, hword, hcomparator]
  cases op <;> rfl

/-- A run of units that is not empty starts as a word does, and not with a backtick. -/
theorem startsWord_of_spells {b : Bracket} {w : List Char} (hne : w ≠ []) (h : b.units.Spells w) :
    StartsWord w ∧ w.head? ≠ some '\x60' := by
  obtain ⟨c, w, rfl⟩ := List.exists_cons_of_ne_nil hne
  rcases h.head with rfl | hplain
  · exact ⟨⟨'\\', w, rfl, rfl, by decide, by decide⟩, by simp⟩
  · have hplain : expansionUnits.plain c w.head? = true := by
      cases b with
      | expansion => exact hplain
      | tag => exact (Bool.and_eq_true_iff.1 hplain).1
    simp only [expansionUnits, Bool.and_eq_true, Bool.not_eq_true', decide_eq_true_eq, List.mem_cons,
      List.not_mem_nil, or_false, not_or] at hplain
    exact ⟨⟨c, w, rfl, hplain.1, hplain.2.2.2.1, hplain.2.2.1⟩, by simp [hplain]⟩

theorem uniform_units : b.units.Uniform := by
  cases b
  · exact Units.uniform_expansionUnits
  · exact Units.uniform_tagUnits

theorem endsBefore_word {u : Units} {w more : List Char} :
    (b.word w).EndsBefore u more ↔ u.span more = ([], more) := by
  cases b with
  | expansion => rfl
  | tag =>
    show (Rule.wordOf w).EndsBefore u more ↔ _
    unfold Rule.wordOf
    split <;> rfl

/-- What has the shape of a token in a bracket is cut as that token in front of whatever ends it. -/
theorem Shape.scan {b : Bracket} {kind : TokenKind} {w more : List Char} (h : b.Shape kind w)
    (hmore : kind.EndsBefore b.units more) : b.mode.scan (w ++ more) = .ok ⟨kind, w, more⟩ := by
  cases h with
  | closing hblanks => exact b.scan_closing hblanks more
  | blank hne hblanks => exact b.scan_blank hne hblanks hmore
  | quoted hne h => exact b.scan_quoted hne h more
  | word hne h =>
    have hspan := h.span_uniform b.uniform_units (b.endsBefore_word.1 hmore)
    obtain ⟨hstart, hquote⟩ := startsWord_of_spells hne h
    have hhead : (w ++ more).head? ≠ some '\x60' := by
      obtain ⟨c, w, rfl⟩ := List.exists_cons_of_ne_nil hne
      exact hquote
    exact (b.scans_word (hstart.append more) hhead hspan hne).scan b.mode_ne_literal
  | dot => exact (b.scans_dot more).scan (w := ['.']) b.mode_ne_literal
  | atSign => exact (b.scans_atSign hmore).scan (w := ['@']) b.mode_ne_literal
  | operator op hb =>
    subst hb
    exact scan_operator op hmore

end Bracket

/-- A decimal starts with a sign, a digit or a point. -/
theorem head_of_spanDecimal {c : Char} {cs rest : List Char} {d : DecimalSpelling}
    (h : spanDecimal (c :: cs) = some (d, rest)) :
    (digitValue? c).isSome = true ∨ c ∈ ['+', '-', '.'] := by
  by_cases hsign : c ∈ ['+', '-', '.']
  · exact .inr hsign
  · refine .inl ?_
    simp only [List.mem_cons, List.not_mem_nil, or_false, not_or] at hsign
    by_contra hdigit
    have hends : EndsMantissa (c :: cs) := by
      rintro _ ⟨⟩
      exact ⟨by simpa using hdigit, hsign.2.2⟩
    have habsent : spanSign (c :: cs) = (.absent, c :: cs) := by
      rw [spanSign]
      · rintro _ ⟨⟩
        exact hsign.1 rfl
      · rintro _ ⟨⟩
        exact hsign.2.1 rfl
    simp [spanDecimal, habsent, spanMantissa, hends.spanDigits, hends.spanFraction] at h

/-- A decimal starts neither with layout nor with a quote nor with an equals sign. -/
theorem plain_of_spanDecimal {c : Char} {cs rest : List Char} {d : DecimalSpelling}
    (h : spanDecimal (c :: cs) = some (d, rest)) : isLayout c = false ∧ c ≠ '"' ∧ c ≠ '=' := by
  have hc := head_of_spanDecimal h
  refine ⟨?_, ?_, ?_⟩
  · cases hlayout : isLayout c with
    | false => rfl
    | true =>
      simp only [isLayout, List.mem_cons, List.not_mem_nil, or_false, decide_eq_true_eq] at hlayout
      rcases hlayout with rfl | rfl | rfl | rfl <;> revert hc <;> decide
  · rintro rfl
    revert hc
    decide
  · rintro rfl
    revert hc
    decide

namespace LiteralShape

/-- A literal starts neither with layout nor with an equals sign. -/
theorem head {kind : TokenKind} {w : List Char} (h : LiteralShape kind w) :
    ∃ c rest, w = c :: rest ∧ isLayout c = false ∧ c ≠ '=' := by
  cases h with
  | quoted h => exact ⟨'"', _, rfl, rfl, by decide⟩
  | number hspan hread =>
    cases w with
    | nil => cases hspan
    | cons c w =>
      obtain ⟨hlayout, -, hequal⟩ := plain_of_spanDecimal hspan
      exact ⟨c, w, rfl, hlayout, hequal⟩

theorem scan {kind : TokenKind} {w more : List Char} (h : LiteralShape kind w)
    (hmore : EndsDecimal more) : Mode.literal.scan (w ++ more) = .ok ⟨kind, w, more⟩ := by
  cases h with
  | @quoted inside h =>
    have hquoted := h.spanQuoted Units.uniform_stringUnits '"' (by decide)
      (fun _ => rfl) more
    refine Mode.scan_of_rules ?_
    simp only [List.cons_append, List.append_assoc, List.nil_append] at hquoted ⊢
    simp [Mode.rules, Rule.quotedText, hquoted]
  | @number w d value hspan hread =>
    obtain ⟨w', hw, hextent⟩ := spanDecimal_extent hspan
    rw [List.append_nil] at hw
    subst hw
    have hrules : Mode.literal.rules.findSome? (· (w ++ more)) = none := by
      cases w with
      | nil => cases hspan
      | cons c w =>
        obtain ⟨-, hquote, -⟩ := plain_of_spanDecimal hspan
        simp [Mode.rules, Rule.quotedText, Units.spanQuoted, hquote]
    unfold Mode.scan
    rw [hrules]
    simp only [if_true, number_append (hextent more hmore) hread]

end LiteralShape

/-- An opening bracket is cut up to the first word behind it. -/
theorem Bracket.scan_opening (b : Bracket) {blanks more : List Char}
    (hblanks : ∀ c ∈ blanks, isBlank c = true) (h : StartsWord more) :
    Mode.text.scan (b.start.1 ++ blanks ++ more) = .ok ⟨b.start.2, b.start.1 ++ blanks, more⟩ := by
  refine Mode.scan_of_rules ?_
  cases b <;>
  simp [Mode.rules, Rule.opening, Rule.fixed, start, leadingBlanks_append hblanks,
    dropBlanks_append hblanks, h.blanks]

theorem TextShape.scan {kind : TokenKind} {w more : List Char} (h : TextShape kind w)
    (hmore : kind.EndsBefore textUnits more) : Mode.text.scan (w ++ more) = .ok ⟨kind, w, more⟩ := by
  cases h with
  | opening b hblanks =>
    refine b.scan_opening hblanks ?_
    cases b <;> exact hmore
  | text _ _ => exact hmore.elim

/-- The units of names in a mode. -/
def Mode.units : Mode → Units
  | .text => textUnits
  | .expansion => expansionUnits
  | .tag | .literal => tagUnits

/-- What has a shape is cut in front of whatever ends it. -/
theorem Mode.scan_of_shape {mode : Mode} {kind : TokenKind} {w more : List Char}
    (h : mode.Shape kind w) (hmore : kind.EndsBefore mode.units more) :
    mode.scan (w ++ more) = .ok ⟨kind, w, more⟩ := by
  cases mode with
  | text => exact TextShape.scan h hmore
  | expansion => exact Bracket.Shape.scan (b := .expansion) h hmore
  | tag => exact Bracket.Shape.scan (b := .tag) h hmore
  | literal =>
    refine LiteralShape.scan h ?_
    cases h with
    | quoted _ => exact hmore
    | number _ _ => exact hmore

/-- A run of plain text is cut as one token. -/
theorem Mode.scan_text {w rest : List Char} (h : textUnits.span (w ++ rest) = (w, rest))
    (hne : w ≠ []) :
    Mode.text.scan (w ++ rest) = .ok ⟨.text (String.ofList (unescape w)), w, rest⟩ := by
  -- Where a bracket opens there is no plain text.
  have hopening : ∀ b : Bracket, Rule.opening b.start.2 b.start.1 (w ++ rest) = none := by
    intro b
    unfold Rule.opening Rule.fixed
    split
    · rename_i hprefix
      obtain ⟨tail, htail⟩ := hprefix
      have hspan := span_start tail b
      rw [htail, h] at hspan
      exact (hne (congrArg Prod.fst hspan)).elim
    · rfl
  have hexpansion : Rule.opening .openExpansion ['{', '{'] (w ++ rest) = none := hopening .expansion
  have htag : Rule.opening .openTag ['{', '@'] (w ++ rest) = none := hopening .tag
  refine Mode.scan_of_rules ?_
  simp only [Mode.rules, List.findSome?_cons, hexpansion, htag, Rule.run_eq_some h hne]

/-! ## What is cut has a shape -/

namespace Rule

variable {cs : List Char} {x : Lexeme} {kind : TokenKind} {bracket : List Char}

theorem eq_of_fixed (h : fixed kind bracket cs = some x) : x.kind = kind ∧ x.spelling = bracket := by
  unfold fixed at h
  split at h
  · cases h
    exact ⟨rfl, rfl⟩
  · cases h

theorem isBlank_of_mem_leadingBlanks {c : Char} (h : c ∈ leadingBlanks cs) : isBlank c = true :=
  List.mem_takeWhile_imp h

theorem eq_of_opening (h : opening kind bracket cs = some x) :
    ∃ blanks, (∀ c ∈ blanks, isBlank c = true) ∧ x.kind = kind ∧ x.spelling = bracket ++ blanks := by
  obtain ⟨y, -, rfl⟩ := Option.map_eq_some_iff.1 h
  exact ⟨leadingBlanks y.rest, fun _ => isBlank_of_mem_leadingBlanks, rfl, rfl⟩

theorem eq_of_closing (h : closing kind bracket cs = some x) :
    ∃ blanks, (∀ c ∈ blanks, isBlank c = true) ∧ x.kind = kind ∧ x.spelling = blanks ++ bracket := by
  obtain ⟨y, hy, rfl⟩ := Option.map_eq_some_iff.1 h
  exact ⟨leadingBlanks cs, fun _ => isBlank_of_mem_leadingBlanks, (eq_of_fixed hy).1, rfl⟩

end Rule

namespace Bracket

section

variable {b : Bracket} {cs : List Char} {x : Lexeme}

theorem shape_of_closing (h : Rule.closing b.close.2 b.close.1 cs = some x) :
    b.Shape x.kind x.spelling := by
  obtain ⟨blanks, hblanks, hkind, hspelling⟩ := Rule.eq_of_closing h
  rw [hkind, hspelling]
  exact .closing hblanks

theorem shape_of_blank (h : Rule.blank cs = some x) : b.Shape x.kind x.spelling := by
  unfold Rule.blank at h
  split at h
  · cases h
  · rename_i hne
    cases h
    exact .blank hne fun _ => Rule.isBlank_of_mem_leadingBlanks

theorem shape_of_quotedSegment (h : Rule.quotedSegment cs = some x) : b.Shape x.kind x.spelling := by
  unfold Rule.quotedSegment at h
  split at h
  · rename_i inside rest hquoted
    split at h
    · cases h
    · rename_i hne
      cases h
      exact .quoted hne (Units.spells_of_spanQuoted Units.uniform_quotedUnits hquoted)
  · cases h

theorem shape_of_run (h : Rule.run b.units b.word cs = some x) : b.Shape x.kind x.spelling := by
  unfold Rule.run at h
  split at h
  · cases h
  · rename_i hne
    cases h
    exact .word hne (b.uniform_units.spells_span cs)

theorem shape_of_dot (h : Rule.fixed .dot ['.'] cs = some x) : b.Shape x.kind x.spelling := by
  obtain ⟨hkind, hspelling⟩ := Rule.eq_of_fixed h
  rw [hkind, hspelling]
  exact .dot

theorem shape_of_atSign (h : Rule.fixed .atSign ['@'] cs = some x) : b.Shape x.kind x.spelling := by
  obtain ⟨hkind, hspelling⟩ := Rule.eq_of_fixed h
  rw [hkind, hspelling]
  exact .atSign

theorem shape_of_comparator (h : Rule.comparator cs = some x) :
    Bracket.tag.Shape x.kind x.spelling := by
  obtain ⟨op, -, hop⟩ := List.exists_of_findSome?_eq_some h
  obtain ⟨hkind, hspelling⟩ := Rule.eq_of_fixed hop
  rw [hkind, hspelling]
  exact .operator op rfl

theorem shape_of_scan (h : b.mode.scan cs = .ok x) : b.Shape x.kind x.spelling := by
  unfold Mode.scan at h
  split at h
  · rename_i y hy
    cases h
    obtain ⟨rule, hrule, hx⟩ := List.exists_of_findSome?_eq_some hy
    cases b with
    | expansion =>
      simp only [mode, Mode.rules, List.mem_cons, List.not_mem_nil, or_false] at hrule
      rcases hrule with rfl | rfl | rfl | rfl | rfl | rfl
      · exact shape_of_closing hx
      · exact shape_of_blank hx
      · exact shape_of_quotedSegment hx
      · exact shape_of_run hx
      · exact shape_of_dot hx
      · exact shape_of_atSign hx
    | tag =>
      simp only [mode, Mode.rules, List.mem_cons, List.not_mem_nil, or_false] at hrule
      rcases hrule with rfl | rfl | rfl | rfl | rfl | rfl | rfl
      · exact shape_of_closing hx
      · exact shape_of_blank hx
      · exact shape_of_quotedSegment hx
      · exact shape_of_run hx
      · exact shape_of_dot hx
      · exact shape_of_atSign hx
      · exact shape_of_comparator hx
  · rw [if_neg b.mode_ne_literal] at h
    cases h

end

end Bracket

theorem textUnits_plain_none (c : Char) (next : Option Char) (_ : textUnits.plain c next = true) :
    textUnits.plain c none = true := by
  simp [textUnits]

theorem textShape_of_scan {cs : List Char} {x : Lexeme} (h : Mode.text.scan cs = .ok x) :
    TextShape x.kind x.spelling := by
  unfold Mode.scan at h
  split at h
  · rename_i y hy
    cases h
    obtain ⟨rule, hrule, hx⟩ := List.exists_of_findSome?_eq_some hy
    simp only [Mode.rules, List.mem_cons, List.not_mem_nil, or_false] at hrule
    rcases hrule with rfl | rfl | rfl
    · obtain ⟨blanks, hblanks, hkind, hspelling⟩ := Rule.eq_of_opening hx
      rw [hkind, hspelling]
      exact .opening .expansion hblanks
    · obtain ⟨blanks, hblanks, hkind, hspelling⟩ := Rule.eq_of_opening hx
      rw [hkind, hspelling]
      exact .opening .tag hblanks
    · unfold Rule.run at hx
      split at hx
      · cases hx
      · rename_i hne
        cases hx
        exact .text hne (Units.spells_span textUnits_plain_none cs)
  · rw [if_neg (by decide)] at h
    cases h

/-- A text is cut where its run of units ends. -/
theorem span_of_scan_text {cs : List Char} {x : Lexeme} {value : String}
    (h : Mode.text.scan cs = .ok x) (hkind : x.kind = .text value) :
    textUnits.span cs = (x.spelling, x.rest) ∧ value = String.ofList (unescape x.spelling) := by
  unfold Mode.scan at h
  split at h
  · rename_i y hy
    cases h
    obtain ⟨rule, hrule, hx⟩ := List.exists_of_findSome?_eq_some hy
    simp only [Mode.rules, List.mem_cons, List.not_mem_nil, or_false] at hrule
    rcases hrule with rfl | rfl | rfl
    · obtain ⟨_, -, hopening, -⟩ := Rule.eq_of_opening hx
      rw [hkind] at hopening
      cases hopening
    · obtain ⟨_, -, hopening, -⟩ := Rule.eq_of_opening hx
      rw [hkind] at hopening
      cases hopening
    · unfold Rule.run at hx
      split at hx
      · cases hx
      · cases hx
        cases hkind
        exact ⟨rfl, rfl⟩
  · rw [if_neg (by decide)] at h
    cases h

theorem literalShape_of_number {cs : List Char} {x : Lexeme} (h : number cs = some (.ok x)) :
    LiteralShape x.kind x.spelling := by
  obtain ⟨⟨d, rest⟩, hd, hx⟩ := Option.map_eq_some_iff.1 h
  obtain ⟨w, rfl, hextent⟩ := spanDecimal_extent hd
  have hspan := hextent [] (by rintro _ ⟨⟩)
  rw [List.append_nil] at hspan
  simp only [List.length_append, Nat.add_sub_cancel, List.take_left, List.drop_left] at hx
  split at hx
  · rename_i value hread
    cases hx
    exact .number hspan hread
  · cases hx
  · cases hx

theorem literalShape_of_scan {cs : List Char} {x : Lexeme} (h : Mode.literal.scan cs = .ok x) :
    LiteralShape x.kind x.spelling := by
  unfold Mode.scan at h
  split at h
  · rename_i y hy
    cases h
    obtain ⟨rule, hrule, hx⟩ := List.exists_of_findSome?_eq_some hy
    rw [Mode.rules, List.mem_singleton] at hrule
    subst hrule
    obtain ⟨⟨inside, rest⟩, hquoted, rfl⟩ := Option.map_eq_some_iff.1 hx
    exact .quoted (Units.spells_of_spanQuoted Units.uniform_stringUnits hquoted)
  · rw [if_pos rfl] at h
    split at h
    · rename_i y hy
      subst h
      exact literalShape_of_number hy
    · cases h

/-- Whatever is cut has the shape of its kind. -/
theorem Mode.shape_of_scan {mode : Mode} {cs : List Char} {x : Lexeme} (h : mode.scan cs = .ok x) :
    mode.Shape x.kind x.spelling := by
  cases mode with
  | text => exact textShape_of_scan h
  | expansion => exact Bracket.shape_of_scan (b := .expansion) h
  | tag => exact Bracket.shape_of_scan (b := .tag) h
  | literal => exact literalShape_of_scan h

/-! ## How tokens start -/

namespace Bracket

variable {b : Bracket} {kind : TokenKind} {w : List Char}

theorem word_cases (b : Bracket) (w : List Char) :
    (∃ name, b.word w = .segment name) ∨ ∃ k, b.word w = .keyword k := by
  cases b with
  | expansion => exact .inl ⟨_, rfl⟩
  | tag =>
    show (∃ name, Rule.wordOf w = _) ∨ ∃ k, Rule.wordOf w = _
    unfold Rule.wordOf
    split
    · exact .inr ⟨_, rfl⟩
    · exact .inl ⟨_, rfl⟩

/-- A closing bracket starts with white space or with its own first character. -/
theorem head_of_closing (b : Bracket) {blanks : List Char}
    (hblanks : ∀ c ∈ blanks, isBlank c = true) :
    ∃ c rest, blanks ++ b.close.1 = c :: rest ∧ (isBlank c = true ∨ b.close.1.head? = some c) := by
  cases blanks with
  | nil => cases b <;> exact ⟨_, _, rfl, .inr rfl⟩
  | cons c blanks => exact ⟨c, _, rfl, .inl (hblanks c List.mem_cons_self)⟩

theorem span_of_isBlank (b : Bracket) {c : Char} (h : isBlank c = true) (rest : List Char) :
    b.units.span (c :: rest) = ([], c :: rest) := by
  refine Units.span_of_not_plain ?_ ?_
  · rintro rfl
    cases h
  · cases b <;> simp [units, tagUnits, expansionUnits, h]

/-- Names, keywords and comparators start as words do. -/
theorem Shape.startsWord (h : b.Shape kind w) (hkind : kind ∉ [.blank, .dot, .atSign, b.close.2]) :
    StartsWord w := by
  cases h with
  | closing _ | blank _ _ | dot | atSign => simp at hkind
  | quoted _ _ => exact ⟨_, _, rfl, rfl, by decide, by decide⟩
  | word hne h => exact (startsWord_of_spells hne h).1
  | operator op _ => exact startsWord_operator op

/-- Everything but names and keywords ends a name in front of it. -/
theorem Shape.span_eq (h : b.Shape kind w) (hname : ∀ name, kind ≠ .segment name)
    (hword : ∀ k, kind ≠ .keyword k) (more : List Char) :
    b.units.span (w ++ more) = ([], w ++ more) := by
  cases h with
  | closing hblanks =>
    obtain ⟨c, rest, hw, hc⟩ := b.head_of_closing hblanks
    rw [hw]
    rcases hc with hc | hc
    · exact b.span_of_isBlank hc _
    · cases b <;> cases hc <;> exact Units.span_of_not_plain (by decide) rfl
  | blank hne hblanks =>
    obtain ⟨c, rest, rfl⟩ := List.exists_cons_of_ne_nil hne
    exact b.span_of_isBlank (hblanks c List.mem_cons_self) _
  | quoted _ _ => exact (hname _ rfl).elim
  | word _ _ =>
    rcases b.word_cases w with ⟨name, h⟩ | ⟨k, h⟩
    · exact (hname name h).elim
    · exact (hword k h).elim
  | dot => exact b.span_of_mem (c := '.') (by simp) more
  | atSign => exact b.span_of_mem (c := '@') (by simp) more
  | operator op hb =>
    subst hb
    cases op <;> exact Units.span_of_not_plain (by decide) rfl

/-- The closing bracket of a block tag ends a decimal in front of it. -/
theorem Shape.endsDecimal (h : Bracket.tag.Shape kind w) (hkind : kind = .closeTag)
    (more : List Char) : EndsDecimal (w ++ more) := by
  cases h with
  | closing hblanks =>
    obtain ⟨c, rest, hw, hc⟩ := Bracket.tag.head_of_closing hblanks
    rw [hw]
    refine endsDecimal_of_head? ?_
    rintro _ ⟨⟩
    exact hc.imp_right fun h => (Option.some.inj h).symm
  | word _ _ =>
    rcases Bracket.tag.word_cases w with ⟨_, h⟩ | ⟨_, h⟩ <;> rw [h] at hkind <;> cases hkind
  | blank _ _ | quoted _ _ | dot | atSign | operator _ _ => cases hkind

end Bracket

/-- How white space and at signs are spelled in a bracket, in which no other one opens. -/
theorem Bracket.spelling_of_shape {b : Bracket} {kind : TokenKind} {w : List Char}
    (h : b.Shape kind w) :
    (kind = .blank → w ≠ [] ∧ ∀ d ∈ w, isBlank d = true) ∧ (kind = .atSign → w = ['@']) ∧
      kind ≠ .openTag := by
  cases h with
  | closing _ => cases b <;> simp [Bracket.close]
  | blank hne hblanks => simpa using ⟨hne, hblanks⟩
  | word _ _ => rcases b.word_cases w with ⟨_, hword⟩ | ⟨_, hword⟩ <;> simp [hword]
  | quoted _ _ => simp [Rule.segmentOf]
  | dot | atSign | operator _ _ => simp

/-- Neither texts nor literals stand inside of a bracket. -/
theorem Bracket.Shape.inside {b : Bracket} {kind : TokenKind} {w : List Char} (h : b.Shape kind w) :
    (∀ value, kind ≠ .text value) ∧ ∀ value, kind ≠ .literal value := by
  cases h with
  | closing _ => cases b <;> exact ⟨nofun, nofun⟩
  | word _ _ =>
    rcases b.word_cases w with ⟨_, hword⟩ | ⟨_, hword⟩ <;> rw [hword] <;> exact ⟨nofun, nofun⟩
  | quoted _ _ | blank _ _ | dot | atSign | operator _ _ => exact ⟨nofun, nofun⟩

/-- Only plain text has texts. -/
theorem Mode.eq_text_of_shape {mode : Mode} {value : String} {w : List Char}
    (h : mode.Shape (.text value) w) : mode = .text := by
  cases mode with
  | text => rfl
  | expansion => exact ((Bracket.Shape.inside (b := .expansion) h).1 value rfl).elim
  | tag => exact ((Bracket.Shape.inside (b := .tag) h).1 value rfl).elim
  | literal => cases h

/-- Literals are cut only where one is asked for. -/
theorem Mode.eq_literal_of_shape {mode : Mode} {value : Literal} {w : List Char}
    (h : mode.Shape (.literal value) w) : mode = .literal := by
  cases mode with
  | text =>
    generalize hkind : TokenKind.literal value = kind at h
    cases h with
    | opening b _ => cases b <;> cases hkind
    | text _ _ => cases hkind
  | expansion => exact ((Bracket.Shape.inside (b := .expansion) h).2 value rfl).elim
  | tag => exact ((Bracket.Shape.inside (b := .tag) h).2 value rfl).elim
  | literal => rfl

/-! ## How names are spelled -/

/-- A bare word that is a name spells it with escapes. -/
theorem Bracket.name_of_word {b : Bracket} {w : List Char} {name : String}
    (h : b.word w = .segment name) : name = String.ofList (unescape w) := by
  cases b with
  | expansion =>
    cases h
    rfl
  | tag =>
    replace h : Rule.wordOf w = .segment name := h
    unfold Rule.wordOf at h
    split at h
    · cases h
    · cases h
      rfl

/-- A name is spelled bare or in backticks. -/
theorem Bracket.Shape.name_spelled {b : Bracket} {w : List Char} {name : String}
    (h : b.Shape (.segment name) w) :
    ∃ inside, (w = inside ∧ inside.head? ≠ some '\x60' ∨ w = '\x60' :: inside ++ ['\x60']) ∧
      name = String.ofList (unescape inside) := by
  generalize hkind : TokenKind.segment name = kind at h
  cases h with
  | @quoted inside _ _ =>
    cases hkind
    exact ⟨inside, .inr rfl, rfl⟩
  | word hne h =>
    exact ⟨w, .inl ⟨rfl, (startsWord_of_spells hne h).2⟩, name_of_word hkind.symm⟩
  | closing _ => cases b <;> cases hkind
  | blank _ _ | dot | atSign | operator _ _ => cases hkind

end MailMerge.Markup
