/-
The numbers of templates. Behind a comparator everything that is spelled as a number is read as a
literal, unless it is an integer with too many digits: an integer without a sign as an unsigned one
and an integer with a sign as a signed one, as long as they are in range, and everything else as a
floating point number. So the scanner never finds a number that stands for nothing.
-/
import MailMerge.Proofs.Markup.Overlong
import MailMerge.Proofs.Number.Literals

namespace MailMerge

open Number Text Markup

variable {cs digits : List Char} {s : Sign} {value : Literal}

/-! ## Kinds of numerals -/

namespace Number

/-- Whether a literal can hold the integer that a sign makes of a number: without a sign it is an
unsigned one, and with a sign a signed one. -/
def Sign.Holds (s : Sign) (n : Nat) : Prop :=
  match s with
  | absent => n ≤ maxUnsigned
  | plus | minus => minSigned ≤ s.applied n ∧ s.applied n ≤ maxSigned

theorem Sign.holds_iff (hs : s ≠ .absent) (n : Nat) :
    s.Holds n ↔ minSigned ≤ s.applied n ∧ s.applied n ≤ maxSigned := by
  cases s with
  | absent => exact (hs rfl).elim
  | plus | minus => exact Iff.rfl

/-- The text is a sign or none and digits. -/
def SpelledWith (cs : List Char) (s : Sign) (digits : List Char) : Prop :=
  cs = s.spelling ++ digits ∧ IsDigits digits

/-- An integer can be taken apart in one way only. -/
theorem SpelledWith.unique {s' : Sign} {digits' : List Char} (h : SpelledWith cs s digits)
    (h' : SpelledWith cs s' digits') : s' = s ∧ digits' = digits := by
  have hspan := spanSign_spelling s h.2 []
  have hspan' := spanSign_spelling s' h'.2 []
  rw [List.append_nil, ← h.1] at hspan
  rw [List.append_nil, ← h'.1, hspan] at hspan'
  exact (Prod.mk.inj hspan').imp Eq.symm Eq.symm

theorem spelledWith_absent_iff : SpelledWith cs .absent digits ↔ cs = digits ∧ IsDigits cs := by
  unfold SpelledWith
  constructor
  · rintro ⟨rfl, h⟩
    exact ⟨rfl, h⟩
  · rintro ⟨rfl, h⟩
    exact ⟨rfl, h⟩

/-- Neither a point nor a letter stands in an integer. -/
theorem SpelledWith.notMem (h : SpelledWith cs s digits) : '.' ∉ cs ∧ 'e' ∉ cs ∧ 'E' ∉ cs := by
  have hnot : ∀ c, isDecimalDigit c = false → c ∉ ['+', '-'] → c ∉ cs := by
    intro c hc hsign hmem
    rw [h.1] at hmem
    rcases List.mem_append.1 hmem with hmem | hmem
    · cases s <;> simp_all [Sign.spelling]
    · rw [h.2.2 c hmem] at hc
      cases hc
  exact ⟨hnot '.' (by decide) (by decide), hnot 'e' (by decide) (by decide),
    hnot 'E' (by decide) (by decide)⟩

/-- An integer is a floating point number only if its own kind cannot hold it. -/
theorem SpelledWith.not_holds (h : SpelledWith cs s digits)
    (hfloat : '.' ∈ cs ∨ 'e' ∈ cs ∨ 'E' ∈ cs ∨
      ∃ s digits, SpelledWith cs s digits ∧ ¬ s.Holds (placeValue digits)) :
    ¬ s.Holds (placeValue digits) := by
  obtain ⟨hpoint, hlower, hupper⟩ := h.notMem
  rcases hfloat with hmem | hmem | hmem | ⟨s', digits', hother, hnot⟩
  · exact (hpoint hmem).elim
  · exact (hlower hmem).elim
  · exact (hupper hmem).elim
  · obtain ⟨rfl, rfl⟩ := h.unique hother
    exact hnot

/-- A numeral without a point and without the letter of an exponent is an integer. -/
theorem IsNumeral.spelledWith (h : IsNumeral cs) (hpoint : '.' ∉ cs) (hletter : 'e' ∉ cs ∧ 'E' ∉ cs) :
    ∃ s digits, SpelledWith cs s digits := by
  obtain ⟨s, mantissa, exponent, rfl, hmantissa, hexponent⟩ := h
  simp only [List.mem_append, not_or] at hpoint hletter
  cases hexponent with
  | absent =>
    cases hmantissa with
    | whole hdigits => exact ⟨s, mantissa, by rw [List.append_nil], hdigits⟩
    | pointed _ _ | fraction _ => simp at hpoint
  | present _ h _ => rcases h with rfl | rfl <;> simp at hletter

end Number

/-- What a numeral is read as: its kind and, for an integer, its value. -/
structure Literal.Classifies (value : Literal) (cs : List Char) : Prop where
  unsigned : ∀ n, value = .unsigned n ↔ IsDigits cs ∧ n = placeValue cs ∧ n ≤ maxUnsigned
  signed : ∀ z, value = .signed z ↔ ∃ s digits, s ≠ .absent ∧ SpelledWith cs s digits ∧
    z = s.applied (placeValue digits) ∧ minSigned ≤ z ∧ z ≤ maxSigned
  float : (∃ x, value = .float x) ↔ '.' ∈ cs ∨ 'e' ∈ cs ∨ 'E' ∈ cs ∨
    ∃ s digits, SpelledWith cs s digits ∧ ¬ s.Holds (placeValue digits)
  text : ∀ t, value ≠ .text t

namespace Number

/-! ## Integers in range and all else -/

theorem IsDigits.classifies (h : IsDigits cs) (hle : placeValue cs ≤ maxUnsigned) :
    (Literal.unsigned (placeValue cs)).Classifies cs := by
  have hspelled : SpelledWith cs .absent cs := ⟨rfl, h⟩
  constructor
  case unsigned =>
    intro n
    constructor
    · rintro ⟨⟩
      exact ⟨h, rfl, hle⟩
    · rintro ⟨-, rfl, -⟩
      rfl
  case signed =>
    intro z
    -- However the text is taken apart, it has no sign.
    refine ⟨nofun, ?_⟩
    rintro ⟨s, digits, hs, hother, -⟩
    exact (hs (hspelled.unique hother).1).elim
  case float =>
    refine ⟨nofun, fun hfloat => ?_⟩
    exact (hspelled.not_holds hfloat hle).elim
  case text => nofun

theorem SpelledWith.classifies (h : SpelledWith cs s digits) (hs : s ≠ .absent)
    (hholds : s.Holds (placeValue digits)) :
    (Literal.signed (s.applied (placeValue digits))).Classifies cs := by
  constructor
  case unsigned =>
    intro n
    refine ⟨nofun, ?_⟩
    rintro ⟨hdigits, -⟩
    exact (hs (h.unique (spelledWith_absent_iff.2 ⟨rfl, hdigits⟩)).1.symm).elim
  case signed =>
    intro z
    constructor
    · rintro ⟨⟩
      exact ⟨s, digits, hs, h, rfl, (s.holds_iff hs _).1 hholds⟩
    · rintro ⟨s', digits', -, hother, rfl, -⟩
      obtain ⟨rfl, rfl⟩ := h.unique hother
      rfl
  case float =>
    refine ⟨nofun, fun hfloat => ?_⟩
    exact (h.not_holds hfloat hholds).elim
  case text => nofun

/-- What is no integer of a kind is a floating point number. -/
theorem IsNumeral.classifies (h : IsNumeral cs) (x : Binary64)
    (hnone : ∀ s digits, SpelledWith cs s digits → ¬ s.Holds (placeValue digits)) :
    (Literal.float x).Classifies cs := by
  constructor
  case unsigned =>
    intro n
    refine ⟨nofun, ?_⟩
    rintro ⟨hdigits, rfl, hle⟩
    exact (hnone .absent cs ⟨rfl, hdigits⟩ hle).elim
  case signed =>
    intro z
    refine ⟨nofun, ?_⟩
    rintro ⟨s, digits, hs, hspelled, rfl, hrange⟩
    exact (hnone s digits hspelled ((s.holds_iff hs _).2 hrange)).elim
  case float =>
    refine ⟨fun _ => ?_, fun _ => ⟨x, rfl⟩⟩
    by_contra hall
    simp only [not_or] at hall
    obtain ⟨hpoint, hlower, hupper, hinteger⟩ := hall
    obtain ⟨s, digits, hspelled⟩ := h.spelledWith hpoint ⟨hlower, hupper⟩
    exact hinteger ⟨s, digits, hspelled, hnone s digits hspelled⟩
  case text => nofun

end Number

namespace Literal

/-! ## Reading numerals -/

/-- An integer that is not too long is read, and its literal is told by its sign and its range. -/
theorem classifies_of_isInteger {d : DecimalSpelling}
    (h : IsInteger (String.ofList cs) s digits) (hspan : spanDecimal cs = some (d, [])) :
    ∃ value, readNumber (String.ofList cs) = .ok (some value) ∧ value.Classifies cs := by
  have hspelled : SpelledWith cs s digits := ⟨by rw [← h.spelled, String.toList_ofList], h.isDigits⟩
  have hread := readNumber_of_isInteger h (by rwa [String.toList_ofList])
  refine ⟨_, hread, ?_⟩
  by_cases hholds : s.Holds (placeValue digits)
  · by_cases hs : s = .absent
    · subst hs
      obtain ⟨rfl, hdigits⟩ := spelledWith_absent_iff.1 hspelled
      rw [if_pos ⟨rfl, hholds⟩]
      exact hdigits.classifies hholds
    · rw [if_neg fun h => hs h.1, if_pos]
      · exact hspelled.classifies hs hholds
      · exact ⟨hs, (s.holds_iff hs _).1 hholds⟩
  · rw [if_neg, if_neg]
    · refine (isNumeral_of_spanDecimal hspan).classifies _ ?_
      intro s' digits' hother
      obtain ⟨rfl, rfl⟩ := hspelled.unique hother
      exact hholds
    · rintro ⟨hs, hrange⟩
      exact hholds ((s.holds_iff hs _).2 hrange)
    · rintro ⟨rfl, hle⟩
      exact hholds hle

/-- A numeral is read, unless it is an integer that is too long. -/
theorem exists_classifies {d : DecimalSpelling} (hspan : spanDecimal cs = some (d, []))
    (hfits : ∀ s digits, SpelledWith cs s digits → digits.length ≤ digitLimit) :
    ∃ value, readNumber (String.ofList cs) = .ok (some value) ∧ value.Classifies cs := by
  -- Only the digits of integers are limited.
  by_cases hinteger : ∃ s digits, SpelledWith cs s digits
  · obtain ⟨s, digits, hspelled⟩ := hinteger
    have hinteger : IsInteger (String.ofList cs) s digits :=
      ⟨by rw [String.toList_ofList, hspelled.1], hspelled.2, hfits s digits hspelled⟩
    exact classifies_of_isInteger hinteger hspan
  · have hnone : ∀ s digits, ¬ SpelledWith cs s digits :=
      fun s digits hspelled => hinteger ⟨s, digits, hspelled⟩
    refine ⟨.float (.ofSpelling d), readNumber_of_not_isInteger ?_ ?_, ?_⟩
    · intro s digits hspelled
      rw [String.toList_ofList] at hspelled
      exact hnone s digits hspelled
    · rwa [String.toList_ofList]
    · exact (isNumeral_of_spanDecimal hspan).classifies _ fun s digits hspelled =>
        (hnone s digits hspelled).elim

/-- What a numeral is read as is told by its spelling alone. -/
theorem classifies_of_readNumber {d : DecimalSpelling} (hspan : spanDecimal cs = some (d, []))
    (h : readNumber (String.ofList cs) = .ok (some value)) : value.Classifies cs := by
  obtain ⟨value', hread, hclassifies⟩ : ∃ value', _ ∧ _ := by
    refine exists_classifies hspan ?_
    intro s digits hspelled
    by_contra hlimit
    rw [Nat.not_le, ← length_digitValues hspelled.2.2] at hlimit
    have hoverlong := readNumber_overlong
      (integerSpelling?_eq_iff.2 ⟨digits, hspelled.1, hspelled.2, rfl⟩) hlimit
    cases hoverlong.symm.trans h
  cases hread.symm.trans h
  exact hclassifies

/-- A numeral with no more digits than are read stands for a number. -/
theorem exists_classifies_of_countP {d : DecimalSpelling} (hspan : spanDecimal cs = some (d, []))
    (hlimit : cs.countP isDecimalDigit ≤ digitLimit) :
    ∃ value, readNumber (String.ofList cs) = .ok (some value) ∧ value.Classifies cs := by
  refine exists_classifies hspan ?_
  intro s digits hspelled
  rw [hspelled.1, List.countP_append, List.countP_eq_length.2 hspelled.2.2] at hlimit
  exact Nat.le_trans (Nat.le_add_left _ _) hlimit

end Literal

namespace Markup

/-! ## Templates -/

/-- A character that no token starts with is not reported as a number. -/
theorem Mode.fault_ne_invalidNumber (mode : Mode) (c : Char) (rest : List Char)
    (spelling : String) : mode.fault c rest ≠ .invalidNumber spelling := by
  intro h
  cases mode with
  | literal => cases h
  | text | expansion | tag =>
    simp only [fault] at h
    split_ifs at h
    cases rest <;> cases h

/-- The scanner reads every number that it finds, unless an integer has too many digits. -/
theorem Mode.scan_ne_invalidNumber {mode : Mode} {f : Fault} (h : mode.scan cs = .error (.fault f))
    (spelling : String) : f ≠ .invalidNumber spelling := by
  unfold Mode.scan at h
  split at h
  · cases h
  · split at h
    · rename_i x hx
      subst h
      split at hx
      · obtain ⟨_, -, hvalue⟩ := startsOverlong_of_number hx
        cases hvalue
      · cases hx
    · cases h
      exact mode.fault_ne_invalidNumber _ _ spelling

theorem Cursor.fault_of_step {c final : Cursor} {f : ScanFault} (h : c.step = .fault f final) :
    c.mode.scan c.skipLayout.rest = .error f := by
  unfold step at h
  rw [← c.mode_skipLayout]
  simp only at h
  split at h
  · cases h
  · split at h
    · cases h
    · rename_i hscan
      cases h
      exact hscan
    · rename_i hscan
      cases h
      exact hscan

/-- The literals of a template are texts in quotes and numerals. -/
theorem LiteralShape.classifies {w : List Char} (h : LiteralShape (.literal value) w) :
    (∃ t, value = .text t) ∨ IsNumeral w ∧ value.Classifies w := by
  generalize hkind : TokenKind.literal value = kind at h
  cases h with
  | quoted _ =>
    cases hkind
    exact .inl ⟨_, rfl⟩
  | number hspan hread =>
    cases hkind
    exact .inr ⟨isNumeral_of_spanDecimal hspan, Literal.classifies_of_readNumber hspan hread⟩

/-- Every numeral that has no more digits than are read is cut as a whole and is a literal: an
integer if it is spelled as one and lies in the range of its kind, and a floating point number
otherwise. The scanner finds no other numbers in a template, and none that stands for nothing. -/
theorem numerals_classified (r : Reader) (source : String) :
    (∀ cs, IsNumeral cs → cs.countP isDecimalDigit ≤ digitLimit →
      ∃ value, Literal.readNumber (String.ofList cs) = .ok (some value) ∧ value.Classifies cs ∧
        Mode.literal.scan cs = .ok ⟨.literal value, cs, []⟩) ∧
      (∀ t ∈ (r.scan source).1, ∀ value, t.kind = .literal value → (∃ s, value = .text s) ∨
        IsNumeral t.spelling.toList ∧ value.Classifies t.spelling.toList) ∧
      ∀ e spelling, (r.tokenize source).1 = .error (.syntaxError e) →
        e.fault ≠ .invalidNumber spelling := by
  obtain ⟨c, hyields, hend⟩ := yields_scan r source
  refine ⟨?_, ?_, ?_⟩
  · intro cs hnumeral hlimit
    obtain ⟨d, hspan⟩ := hnumeral.spanDecimal
    obtain ⟨value, hread, hclassifies⟩ := Literal.exists_classifies_of_countP hspan hlimit
    have hshape : LiteralShape (.literal value) cs := .number hspan hread
    have hscan := @LiteralShape.scan _ cs [] hshape (by rintro _ ⟨⟩)
    rw [List.append_nil] at hscan
    exact ⟨value, hread, hclassifies, hscan⟩
  · intro t ht value hkind
    obtain ⟨_, _, _, -, hstep⟩ := hyields.step_of_mem ht
    have hshape := Cursor.shape_of_step hstep
    rw [hkind] at hshape
    rw [Mode.eq_literal_of_shape hshape] at hshape
    exact LiteralShape.classifies hshape
  · intro e spelling herror
    rw [herror] at hend
    obtain ⟨f, final, hstep, hreport⟩ := hend
    cases f with
    | fault f =>
      cases hreport
      exact Mode.scan_ne_invalidNumber (Cursor.fault_of_step hstep) spelling
    | value e => cases hreport

/-- The least signed integer in the digits of another script; a number of a template, and a template
in which something else stands for one. -/
theorem numerals_classified_least :
    let least := ['-', '٩', '٢', '٢', '٣', '٣', '٧', '٢', '٠', '٣', '٦', '٨', '٥', '٤', '٧', '٧', '٥',
      '٨', '٠', '٨']
    (IsNumeral least ∧ Literal.readNumber (String.ofList least) = .ok (some (.signed minSigned))) ∧
      (∃ t ∈ (Reader.new.scan (String.ofList ("\x7b@ if a=".toList ++ ['0']))).1,
        t.kind = .literal (.unsigned 0) ∧ IsNumeral t.spelling.toList) ∧
      ∃ e, (Reader.new.tokenize "\x7b@ if a=x").1 = .error (.syntaxError e) ∧
        e.fault ≠ .invalidNumber "x" := by
  intro least
  refine ⟨?_, ?_, ?_⟩
  · have hdigits : IsDigits least.tail := ⟨by decide, List.all_eq_true.1 (by decide)⟩
    have hnumeral : IsNumeral least := ⟨.minus, least.tail, [], by decide, .whole hdigits, .absent⟩
    have hlimit : least.countP isDecimalDigit ≤ digitLimit :=
      Nat.le_trans List.countP_le_length (by decide)
    obtain ⟨value, hread, hclassifies, -⟩ :=
      (numerals_classified Reader.new "").1 least hnumeral hlimit
    obtain rfl := (hclassifies.signed minSigned).2
      ⟨.minus, least.tail, nofun, ⟨rfl, hdigits⟩, by decide, by decide, by decide⟩
    exact ⟨hnumeral, hread⟩
  · have hfront : tokenize "\x7b@ if a=" =
        .ok [⟨.openTag, 0, "\x7b@ "⟩, ⟨.keyword .ifWord, 3, "if"⟩, ⟨.blank, 5, " "⟩,
          ⟨.segment "a", 6, "a"⟩, ⟨.operator .equal, 7, "="⟩] :=
      tokenize_of_within 40 rfl
    obtain ⟨tokens, _, htokens, -⟩ : AwaitsLiteral "\x7b@ if a=".toList :=
      awaitsLiteral_of_tokenize hfront rfl rfl
    have hscan := (tokenize_eq_ok_iff.1 htokens).1
    have hmem : (⟨.literal (.unsigned 0), 8, "0"⟩ : Token) ∈
        (Reader.new.scan (String.ofList ("\x7b@ if a=".toList ++ ['0']))).1 :=
      hscan ▸ List.mem_append_right tokens List.mem_cons_self
    refine ⟨_, hmem, rfl, ?_⟩
    rcases (numerals_classified Reader.new _).2.1 _ hmem _ rfl with ⟨_, htext⟩ | ⟨hnumeral, -⟩
    · cases htext
    · exact hnumeral
  · have herror : (Reader.new.tokenize "\x7b@ if a=x").1 =
        .error (.syntaxError ⟨.expectedLiteral 'x', 8, 1, 9⟩) :=
      tokenize_of_within 40 rfl
    exact ⟨_, herror, (numerals_classified Reader.new _).2.2 _ _ herror⟩

end Markup

end MailMerge
