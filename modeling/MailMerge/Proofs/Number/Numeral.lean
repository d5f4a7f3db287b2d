/-
How numbers are spelled, told from the text alone. A numeral is a sign or none, digits with a point
somewhere or without one, and an exponent or none; what the scanner takes for a number is a numeral,
and it takes every numeral as a whole. An integer is a sign or none and digits, each of which counts
by its place.
-/
import MailMerge.Proofs.Number.Overlong

namespace MailMerge.Number

open MailMerge.Text

variable {cs digits : List Char} {s : Sign} {text : String}

/-! ## Spellings -/

/-- How a sign is spelled; that there is none is one of the signs. -/
def Sign.spelling : Sign → List Char
  | absent => []
  | plus => ['+']
  | minus => ['-']

/-- One or more decimal digits, of any scripts. -/
def IsDigits (cs : List Char) : Prop :=
  cs ≠ [] ∧ ∀ c ∈ cs, isDecimalDigit c = true

/-- Digits, with a point in front of them, between them or behind them, or with none. -/
inductive IsMantissa : List Char → Prop
  | whole {digits : List Char} : IsDigits digits → IsMantissa digits
  | pointed {digits more : List Char} : IsDigits digits → (∀ c ∈ more, isDecimalDigit c = true) →
    IsMantissa (digits ++ '.' :: more)
  | fraction {digits : List Char} : IsDigits digits → IsMantissa ('.' :: digits)

/-- The letter of an exponent, with a sign or none and digits behind it, or no exponent. -/
inductive IsExponent : List Char → Prop
  | absent : IsExponent []
  | present {letter : Char} {digits : List Char} (s : Sign) : letter = 'e' ∨ letter = 'E' →
    IsDigits digits → IsExponent (letter :: (s.spelling ++ digits))

/-- The texts that are spelled as numbers. -/
def IsNumeral (cs : List Char) : Prop :=
  ∃ (s : Sign) (mantissa exponent : List Char), cs = s.spelling ++ (mantissa ++ exponent) ∧
    IsMantissa mantissa ∧ IsExponent exponent

/-! ## Integers -/

/-- The number that digits stand for: each counts ten times as much as one that stands a place further
back. -/
def placeValue : List Char → Nat
  | [] => 0
  | c :: cs => (digitValue? c).getD 0 * Nat.pow 10 cs.length + placeValue cs

/-- The integer that a sign makes of a number. -/
def Sign.applied : Sign → Nat → Int
  | minus, n => -n
  | absent, n | plus, n => n

theorem Sign.applied_of_ne_minus (h : s ≠ .minus) (n : Nat) : s.applied n = n := by
  cases s with
  | absent | plus => rfl
  | minus => exact (h rfl).elim

theorem foldl_digitValues (h : ∀ c ∈ digits, isDecimalDigit c = true) (value : Nat) :
    (digits.filterMap digitValue?).foldl (fun value d => 10 * value + d) value =
      value * Nat.pow 10 digits.length + placeValue digits := by
  induction digits generalizing value with
  | nil => exact (Nat.mul_one value).symm
  | cons c digits ih =>
    rw [List.forall_mem_cons] at h
    obtain ⟨d, hd⟩ := Option.isSome_iff_exists.1 h.1
    have hpow : Nat.pow 10 (c :: digits).length = Nat.pow 10 digits.length * 10 := rfl
    rw [List.filterMap_cons, hd, List.foldl_cons, ih h.2, placeValue, hd, Option.getD_some, hpow,
      Nat.add_mul, ← Nat.add_assoc, Nat.mul_comm 10 value, Nat.mul_assoc,
      Nat.mul_comm 10 (Nat.pow 10 digits.length)]

/-- Reading digits from the left gives each of them the weight of its place. -/
theorem digitsValue_digitValues (h : ∀ c ∈ digits, isDecimalDigit c = true) :
    digitsValue (digits.filterMap digitValue?) = placeValue digits := by
  rw [digitsValue, foldl_digitValues h, Nat.zero_mul, Nat.zero_add]

theorem spanDigits_eq_iff {values : List Nat} :
    spanDigits cs = (values, []) ↔
      (∀ c ∈ cs, isDecimalDigit c = true) ∧ values = cs.filterMap digitValue? := by
  constructor
  · intro hspan
    obtain ⟨digits, hdigits, hcs, -⟩ := spanDigits_split cs
    rw [hspan, List.append_nil] at hcs
    subst hcs
    have hall := spanDigits_append hdigits []
    rw [List.append_nil, hspan] at hall
    refine ⟨hdigits, (Prod.mk.inj hall).1.trans ?_⟩
    exact List.append_nil _
  · rintro ⟨hdigits, rfl⟩
    have hall := spanDigits_append hdigits []
    rw [List.append_nil] at hall
    rw [hall]
    exact congrArg (·, []) (List.append_nil _)

/-- A sign in front of digits, or none, is the sign of the whole text. -/
theorem spanSign_spelling (s : Sign) (h : IsDigits digits) (rest : List Char) :
    spanSign (s.spelling ++ (digits ++ rest)) = (s, digits ++ rest) := by
  cases s with
  | absent => exact spanSign_digits h.2 h.1 rest
  | plus | minus => rfl

theorem spelling_spanSign (cs : List Char) : (spanSign cs).1.spelling ++ (spanSign cs).2 = cs := by
  unfold spanSign
  split <;> rfl

/-- The integers that can be read are those that are spelled as a sign or none and digits. -/
theorem integerSpelling?_eq_iff {values : List Nat} :
    integerSpelling? cs = some (s, values) ↔
      ∃ digits, cs = s.spelling ++ digits ∧ IsDigits digits ∧
        values = digits.filterMap digitValue? := by
  rw [integerSpelling?_eq_some_iff, spanDigits_eq_iff]
  constructor
  · rintro ⟨rfl, ⟨hdigits, rfl⟩, hne⟩
    refine ⟨(spanSign cs).2, (spelling_spanSign cs).symm, ⟨?_, hdigits⟩, rfl⟩
    intro hnil
    exact hne (by rw [hnil]; rfl)
  · rintro ⟨digits, rfl, hdigits, rfl⟩
    have hspan := spanSign_spelling s hdigits []
    rw [List.append_nil] at hspan
    rw [hspan]
    exact ⟨rfl, ⟨hdigits.2, rfl⟩, digitValues_ne_nil hdigits.2 hdigits.1⟩

/-! ## Reading integers -/

/-- The text is a sign or none and digits, of which there are not more than are read. -/
structure IsInteger (text : String) (s : Sign) (digits : List Char) : Prop where
  spelled : text.toList = s.spelling ++ digits
  isDigits : IsDigits digits
  fits : digits.length ≤ digitLimit

theorem IsInteger.boundedValue (h : IsInteger text s digits) :
    boundedValue (digits.filterMap digitValue?) = .ok (placeValue digits) := by
  unfold Number.boundedValue
  rw [length_digitValues h.isDigits.2, if_pos h.fits, digitsValue_digitValues h.isDigits.2]

theorem IsInteger.integerSpelling? (h : IsInteger text s digits) :
    integerSpelling? text.toList = some (s, digits.filterMap digitValue?) :=
  integerSpelling?_eq_iff.2 ⟨digits, h.spelled, h.isDigits, rfl⟩

/-- Digits that can be read are few enough. -/
theorem isInteger_of_boundedValue {values : List Nat} {n : Nat}
    (hspelling : Number.integerSpelling? text.toList = some (s, values))
    (h : Number.boundedValue values = .ok n) : ∃ digits, IsInteger text s digits := by
  obtain ⟨digits, hspelled, hdigits, rfl⟩ := integerSpelling?_eq_iff.1 hspelling
  refine ⟨digits, hspelled, hdigits, ?_⟩
  unfold Number.boundedValue at h
  split at h
  · rename_i hfits
    rwa [length_digitValues hdigits.2] at hfits
  · cases h

/-- A minus sign is never part of an unsigned integer. -/
theorem IsInteger.readUnsigned (h : IsInteger text s digits) :
    readUnsigned text = .ok (if s ≠ .minus ∧ placeValue digits ≤ maxUnsigned then
      some (placeValue digits) else none) := by
  unfold Number.readUnsigned
  rw [h.integerSpelling?]
  cases s with
  | minus => rfl
  | absent | plus => simp [h.boundedValue, bind, Except.bind, pure, Except.pure]

theorem IsInteger.readSigned (h : IsInteger text s digits) :
    readSigned text =
      .ok (if minSigned ≤ s.applied (placeValue digits) ∧
          s.applied (placeValue digits) ≤ maxSigned then
        some (s.applied (placeValue digits)) else none) := by
  unfold Number.readSigned
  rw [h.integerSpelling?]
  simp only [h.boundedValue, bind, Except.bind, pure, Except.pure]
  cases s <;> rfl

theorem isInteger_of_readUnsigned {n : Nat} (h : readUnsigned text = .ok (some n)) :
    ∃ s digits, IsInteger text s digits := by
  unfold Number.readUnsigned at h
  split at h
  · cases h
  · cases h
  · rename_i s values _ hspelling
    cases hvalue : Number.boundedValue values with
    | error e =>
      rw [hvalue] at h
      cases h
    | ok m => exact ⟨s, isInteger_of_boundedValue hspelling hvalue⟩

theorem isInteger_of_readSigned {z : Int} (h : readSigned text = .ok (some z)) :
    ∃ s digits, IsInteger text s digits := by
  unfold Number.readSigned at h
  split at h
  · cases h
  · rename_i s values hspelling
    cases hvalue : Number.boundedValue values with
    | error e =>
      rw [hvalue] at h
      cases h
    | ok m => exact ⟨s, isInteger_of_boundedValue hspelling hvalue⟩

/-- The texts that are read as unsigned integers, with their values. -/
theorem readUnsigned_eq_some_iff {n : Nat} :
    readUnsigned text = .ok (some n) ↔ ∃ s digits, IsInteger text s digits ∧ s ≠ .minus ∧
      n = placeValue digits ∧ n ≤ maxUnsigned := by
  constructor
  · intro h
    obtain ⟨s, digits, hinteger⟩ := isInteger_of_readUnsigned h
    rw [hinteger.readUnsigned, Except.ok.injEq, Option.ite_none_right_eq_some,
      Option.some.injEq] at h
    obtain ⟨⟨hs, hle⟩, rfl⟩ := h
    exact ⟨s, digits, hinteger, hs, rfl, hle⟩
  · rintro ⟨s, digits, hinteger, hs, rfl, hle⟩
    rw [hinteger.readUnsigned, if_pos ⟨hs, hle⟩]

/-- The texts that are read as signed integers, with their values. -/
theorem readSigned_eq_some_iff {z : Int} :
    readSigned text = .ok (some z) ↔ ∃ s digits, IsInteger text s digits ∧
      z = s.applied (placeValue digits) ∧ minSigned ≤ z ∧ z ≤ maxSigned := by
  constructor
  · intro h
    obtain ⟨s, digits, hinteger⟩ := isInteger_of_readSigned h
    rw [hinteger.readSigned, Except.ok.injEq, Option.ite_none_right_eq_some,
      Option.some.injEq] at h
    obtain ⟨hrange, rfl⟩ := h
    exact ⟨s, digits, hinteger, rfl, hrange⟩
  · rintro ⟨s, digits, hinteger, rfl, hrange⟩
    rw [hinteger.readSigned, if_pos hrange]

/-! ## What is taken for a number -/

theorem isExponent_of_spanExponent (h : (spanExponent cs).2 = []) : IsExponent cs := by
  unfold spanExponent at h
  split at h
  · rename_i c rest
    split at h
    · rename_i hletter
      cases hspan : spanDigits (spanSign rest).2 with
      | mk values after =>
        rw [hspan] at h
        cases values with
        -- Without digits the letter is not passed over.
        | nil => cases h
        | cons d values =>
          obtain rfl : after = [] := h
          obtain ⟨hdigits, hvalues⟩ := spanDigits_eq_iff.1 hspan
          rw [← spelling_spanSign rest]
          refine .present _ hletter ⟨?_, hdigits⟩
          intro hnil
          rw [hnil] at hvalues
          cases hvalues
    · cases h
  · exact .absent

/-- A fraction is a point and digits, or there is none. -/
theorem spanFraction_split (cs : List Char) :
    (spanFraction cs).1 = [] ∧ (spanFraction cs).2 = cs ∨
      ∃ more, cs = '.' :: (more ++ (spanFraction cs).2) ∧ (∀ c ∈ more, isDecimalDigit c = true) ∧
        (spanFraction cs).1.length = more.length := by
  unfold spanFraction
  split
  · rename_i rest
    obtain ⟨more, hmore, hrest, hlength⟩ := spanDigits_split rest
    exact .inr ⟨more, congrArg ('.' :: ·) hrest, hmore, hlength⟩
  · exact .inl ⟨rfl, rfl⟩

theorem isMantissa_of_spanMantissa {whole fraction : List Nat} {rest : List Char}
    (h : spanMantissa cs = some (whole, fraction, rest)) :
    ∃ mantissa, cs = mantissa ++ rest ∧ IsMantissa mantissa := by
  simp only [spanMantissa, Option.ite_none_left_eq_some, Option.some.injEq, Prod.mk.injEq] at h
  obtain ⟨hne, rfl, rfl, rfl⟩ := h
  obtain ⟨digits, hdigits, hcs, hlength⟩ := spanDigits_split cs
  -- A point alone is no mantissa: there are digits in front of it or behind it.
  by_cases hwhole : digits = []
  · subst hwhole
    have hnil : (spanDigits cs).1 = [] := List.length_eq_zero_iff.1 hlength
    rcases spanFraction_split (spanDigits cs).2 with ⟨hfraction, -⟩ | ⟨more, hpoint, hmore, hlength'⟩
    · exact (hne ⟨hnil, hfraction⟩).elim
    · refine ⟨'.' :: more, hcs.trans hpoint, .fraction ⟨?_, hmore⟩⟩
      rintro rfl
      exact hne ⟨hnil, List.length_eq_zero_iff.1 hlength'⟩
  · rcases spanFraction_split (spanDigits cs).2 with ⟨-, hrest⟩ | ⟨more, hpoint, hmore, -⟩
    · exact ⟨digits, by rwa [hrest], .whole ⟨hwhole, hdigits⟩⟩
    · refine ⟨digits ++ '.' :: more, ?_, .pointed ⟨hwhole, hdigits⟩ hmore⟩
      rw [List.append_assoc, List.cons_append, ← hpoint]
      exact hcs

/-- What the scanner takes for a number is a numeral. -/
theorem isNumeral_of_spanDecimal {d : DecimalSpelling} (h : spanDecimal cs = some (d, [])) :
    IsNumeral cs := by
  obtain ⟨⟨whole, fraction, rest⟩, hmantissa, hd⟩ := Option.map_eq_some_iff.1 h
  obtain ⟨mantissa, hcs, hshape⟩ := isMantissa_of_spanMantissa hmantissa
  refine ⟨(spanSign cs).1, mantissa, rest, ?_, hshape, isExponent_of_spanExponent ?_⟩
  · rw [← hcs, spelling_spanSign]
  · exact (Prod.mk.inj hd).2

/-! ## Numerals are taken as a whole -/

/-- The letter of an exponent ends a mantissa. -/
theorem IsExponent.endsMantissa (h : IsExponent cs) : EndsMantissa cs := by
  cases h with
  | absent => rintro _ ⟨⟩
  | present s hletter _ =>
    rintro _ ⟨⟩
    rcases hletter with rfl | rfl <;> exact ⟨by decide, by decide⟩

theorem IsExponent.spanExponent (h : IsExponent cs) : (spanExponent cs).2 = [] := by
  cases h with
  | absent => rfl
  | @present letter digits s hletter hdigits =>
    have hsign := spanSign_spelling s hdigits []
    have hspan := spanDigits_eq_iff.2 ⟨hdigits.2, rfl⟩
    obtain ⟨d, values, hvalues⟩ :=
      List.exists_cons_of_ne_nil (digitValues_ne_nil hdigits.2 hdigits.1)
    rw [List.append_nil] at hsign
    unfold Number.spanExponent
    simp only [if_pos hletter, hsign, hspan, hvalues]

/-- A mantissa shows no sign. -/
theorem IsMantissa.spanSign_append (h : IsMantissa cs) (s : Sign) (rest : List Char) :
    spanSign (s.spelling ++ (cs ++ rest)) = (s, cs ++ rest) := by
  cases h with
  | whole h => exact spanSign_spelling s h rest
  | @pointed digits more h _ =>
    rw [List.append_assoc]
    exact spanSign_spelling s h _
  | fraction _ => cases s <;> rfl

theorem IsMantissa.spanMantissa_append (h : IsMantissa cs) {rest : List Char}
    (hrest : EndsMantissa rest) :
    ∃ whole fraction, spanMantissa (cs ++ rest) = some (whole, fraction, rest) := by
  have hmore : ∀ more : List Char, (∀ c ∈ more, isDecimalDigit c = true) →
      spanDigits (more ++ rest) = (more.filterMap digitValue?, rest) := by
    intro more hmore
    rw [spanDigits_append hmore, hrest.spanDigits, List.append_nil]
  cases h with
  | whole h =>
    have hne := digitValues_ne_nil h.2 h.1
    simp [spanMantissa, hmore _ h.2, hrest.spanFraction, hne]
  | @pointed digits more h hfraction =>
    have hne := digitValues_ne_nil h.2 h.1
    have hpoint : spanDigits ('.' :: (more ++ rest)) = ([], '.' :: (more ++ rest)) := rfl
    rw [List.append_assoc, List.cons_append]
    simp [spanMantissa, spanDigits_append h.2, hpoint, spanFraction, hmore _ hfraction, hne]
  | @fraction digits h =>
    have hne := digitValues_ne_nil h.2 h.1
    have hpoint : spanDigits ('.' :: (digits ++ rest)) = ([], '.' :: (digits ++ rest)) := rfl
    rw [List.cons_append]
    simp [spanMantissa, hpoint, spanFraction, hmore _ h.2, hne]

/-- The scanner takes a numeral as a whole. -/
theorem IsNumeral.spanDecimal (h : IsNumeral cs) : ∃ d, spanDecimal cs = some (d, []) := by
  obtain ⟨s, mantissa, exponent, rfl, hmantissa, hexponent⟩ := h
  obtain ⟨whole, fraction, hspan⟩ := hmantissa.spanMantissa_append hexponent.endsMantissa
  unfold Number.spanDecimal
  rw [hmantissa.spanSign_append, hspan, Option.map_some]
  simp only [hexponent.spanExponent]
  exact ⟨_, rfl⟩

end MailMerge.Number
