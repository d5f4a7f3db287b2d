/-
Numbers with too many digits to be read. Among the texts that are spelled as decimals only integers
are counted: one with more digits than the limit is refused, whatever its value, and every other
text spelled as a decimal is read as a number of some kind.
-/
import MailMerge.Literal
import MailMerge.Proofs.Number.Extent

namespace MailMerge.Number

open MailMerge.Text

/-- A text that cannot go on with the integer in front of it, nor turn it into a decimal. -/
structure EndsInteger (rest : List Char) : Prop where
  mantissa : EndsMantissa rest
  exponent : (spanExponent rest).2 = rest

/-- A text that starts with an integer of `count` digits, which are more than are read. -/
def StartsOverlong (cs : List Char) (count : Nat) : Prop :=
  ∃ sign digits rest, cs = sign ++ (digits ++ rest) ∧ sign ∈ [[], ['+'], ['-']] ∧
    (∀ c ∈ digits, isDecimalDigit c = true) ∧ digits.length = count ∧ digitLimit < count ∧
      EndsInteger rest

/-! ## Digits -/

section

variable {digits : List Char} (h : ∀ c ∈ digits, isDecimalDigit c = true)

include h

theorem spanDigits_append (rest : List Char) :
    spanDigits (digits ++ rest) =
      (digits.filterMap digitValue? ++ (spanDigits rest).1, (spanDigits rest).2) := by
  induction digits with
  | nil => rfl
  | cons c digits ih =>
    rw [List.forall_mem_cons] at h
    obtain ⟨d, hd⟩ := Option.isSome_iff_exists.1 h.1
    simp [spanDigits, hd, ih h.2]

theorem length_digitValues : (digits.filterMap digitValue?).length = digits.length := by
  have hspan := spanDigits_append h []
  have hlength := spanDigits_length (digits ++ [])
  rw [hspan] at hlength
  simpa [spanDigits] using hlength

theorem digitValues_ne_nil (hne : digits ≠ []) : digits.filterMap digitValue? ≠ [] := by
  intro hnil
  have hlength := length_digitValues h
  rw [hnil] at hlength
  exact hne (List.length_eq_zero_iff.1 hlength.symm)

/-- Digits show no sign. -/
theorem spanSign_digits (hne : digits ≠ []) (rest : List Char) :
    spanSign (digits ++ rest) = (.absent, digits ++ rest) := by
  obtain ⟨c, digits, rfl⟩ := List.exists_cons_of_ne_nil hne
  have hc := h c List.mem_cons_self
  rw [List.cons_append, spanSign]
  · rintro _ ⟨⟩
    revert hc
    decide
  · rintro _ ⟨⟩
    revert hc
    decide

end

/-- What is spanned as digits are digits. -/
theorem spanDigits_split (cs : List Char) :
    ∃ digits, (∀ c ∈ digits, isDecimalDigit c = true) ∧ cs = digits ++ (spanDigits cs).2 ∧
      (spanDigits cs).1.length = digits.length := by
  induction cs with
  | nil => exact ⟨[], List.forall_mem_nil _, rfl, rfl⟩
  | cons c cs ih =>
    cases hc : digitValue? c with
    | none => exact ⟨[], List.forall_mem_nil _, by simp [spanDigits, hc], by simp [spanDigits, hc]⟩
    | some d =>
      obtain ⟨digits, hdigits, hcs, hlength⟩ := ih
      refine ⟨c :: digits, ?_, ?_, ?_⟩
      · rw [List.forall_mem_cons]
        exact ⟨by simp [isDecimalDigit, hc], hdigits⟩
      · simpa [spanDigits, hc] using hcs
      · simpa [spanDigits, hc] using hlength

/-! ## Signs -/

/-- A sign in front of digits is the sign of the whole text. -/
theorem spanSign_append {sign digits : List Char} (hsign : sign ∈ [[], ['+'], ['-']])
    (h : ∀ c ∈ digits, isDecimalDigit c = true) (hne : digits ≠ []) (rest : List Char) :
    ∃ s, spanSign (sign ++ (digits ++ rest)) = (s, digits ++ rest) := by
  simp only [List.mem_cons, List.not_mem_nil, or_false] at hsign
  rcases hsign with rfl | rfl | rfl
  · exact ⟨.absent, spanSign_digits h hne rest⟩
  · exact ⟨.plus, rfl⟩
  · exact ⟨.minus, rfl⟩

theorem spanSign_split (cs : List Char) :
    ∃ sign, sign ∈ [[], ['+'], ['-']] ∧ cs = sign ++ (spanSign cs).2 := by
  unfold spanSign
  split
  · exact ⟨['+'], by simp, rfl⟩
  · exact ⟨['-'], by simp, rfl⟩
  · exact ⟨[], by simp, rfl⟩

/-! ## Integers -/

theorem integerSpelling?_eq_some_iff {cs : List Char} {s : Sign} {values : List Nat} :
    integerSpelling? cs = some (s, values) ↔
      (spanSign cs).1 = s ∧ spanDigits (spanSign cs).2 = (values, []) ∧ values ≠ [] := by
  unfold integerSpelling?
  split
  · rename_i hspan
    simp only [hspan, reduceCtorEq, Prod.mk.injEq, false_iff]
    rintro ⟨-, ⟨rfl, -⟩, hne⟩
    exact hne rfl
  · rename_i hne hspan
    simp only [hspan, Option.some.injEq, Prod.mk.injEq, and_true]
    constructor
    · rintro ⟨rfl, rfl⟩
      exact ⟨rfl, rfl, hne⟩
    · rintro ⟨rfl, rfl, -⟩
      exact ⟨rfl, rfl⟩
  · rename_i hnil hrest
    simp only [reduceCtorEq, false_iff]
    rintro ⟨-, hspan, hne⟩
    exact hrest _ hspan

/-- An integer is spelled as a sign or none and digits. -/
theorem integerSpelling?_split {cs : List Char} {s : Sign} {values : List Nat}
    (h : integerSpelling? cs = some (s, values)) :
    ∃ sign digits, cs = sign ++ digits ∧ sign ∈ [[], ['+'], ['-']] ∧
      (∀ c ∈ digits, isDecimalDigit c = true) ∧ digits.length = values.length ∧ digits ≠ [] := by
  obtain ⟨-, hspan, hne⟩ := integerSpelling?_eq_some_iff.1 h
  obtain ⟨sign, hsign, hcs⟩ := spanSign_split cs
  obtain ⟨digits, hdigits, hrest, hlength⟩ := spanDigits_split (spanSign cs).2
  rw [hspan] at hrest hlength
  rw [List.append_nil] at hrest
  refine ⟨sign, digits, ?_, hsign, hdigits, hlength.symm, ?_⟩
  · rw [← hrest]
    exact hcs
  · rintro rfl
    exact hne (List.length_eq_zero_iff.1 hlength)

theorem integerSpelling?_append {sign digits : List Char} (hsign : sign ∈ [[], ['+'], ['-']])
    (h : ∀ c ∈ digits, isDecimalDigit c = true) (hne : digits ≠ []) :
    ∃ s, integerSpelling? (sign ++ digits) = some (s, digits.filterMap digitValue?) := by
  obtain ⟨s, hs⟩ := spanSign_append hsign h hne []
  have hspan := spanDigits_append h []
  rw [List.append_nil] at hs hspan
  refine ⟨s, integerSpelling?_eq_some_iff.2 ⟨by rw [hs], ?_, ?_⟩⟩
  · rw [hs, hspan]
    simp [spanDigits]
  · exact digitValues_ne_nil h hne

/-! ## Decimals that start with an integer -/

theorem spanDecimal_append {sign digits : List Char} (hsign : sign ∈ [[], ['+'], ['-']])
    (h : ∀ c ∈ digits, isDecimalDigit c = true) (hne : digits ≠ []) (rest : List Char) :
    ∃ d, spanDecimal (sign ++ (digits ++ rest)) =
      some (d, (spanExponent (spanFraction (spanDigits rest).2).2).2) := by
  obtain ⟨s, hs⟩ := spanSign_append hsign h hne rest
  let after := spanFraction (spanDigits rest).2
  have hmantissa : spanMantissa (digits ++ rest) =
      some (digits.filterMap digitValue? ++ (spanDigits rest).1, after.1, after.2) := by
    unfold spanMantissa
    simp only [spanDigits_append h rest]
    rw [if_neg]
    rintro ⟨hnil, -⟩
    exact digitValues_ne_nil h hne (List.append_eq_nil_iff.1 hnil).1
  unfold spanDecimal
  rw [hs, hmantissa]
  exact ⟨_, rfl⟩

/-- An integer ends where the decimal that starts with it ends, if they end together. -/
theorem endsInteger_iff {rest : List Char} :
    EndsInteger rest ↔ (spanExponent (spanFraction (spanDigits rest).2).2).2 = rest := by
  constructor
  · intro h
    rw [h.mantissa.spanDigits, h.mantissa.spanFraction, h.exponent]
  · intro h
    -- No part of the decimal takes anything, as nothing is missing at its end.
    have hdigits := spanDigits_length rest
    have hfraction := spanFraction_length_le (spanDigits rest).2
    have hexponent := spanExponent_length_le (spanFraction (spanDigits rest).2).2
    have hlength := congrArg List.length h
    have hmantissa : EndsMantissa rest := by
      cases rest with
      | nil => rintro _ ⟨⟩
      | cons c rest =>
        rintro _ ⟨⟩
        cases hc : digitValue? c with
        | some d =>
          simp only [spanDigits, hc, List.length_cons] at *
          omega
        | none =>
          refine ⟨rfl, ?_⟩
          rintro rfl
          have hpoint := spanDigits_length rest
          simp only [spanDigits, hc, spanFraction, List.length_cons] at *
          omega
    refine ⟨hmantissa, ?_⟩
    rwa [hmantissa.spanDigits, hmantissa.spanFraction] at h

/-! ## Values -/

theorem boundedValue_eq_error {values : List Nat} (h : digitLimit < values.length) :
    boundedValue values = .error ⟨values.length⟩ := by
  unfold boundedValue
  rw [if_neg (Nat.not_le.2 h)]

end MailMerge.Number

namespace MailMerge.Literal

open MailMerge.Number MailMerge.Text

/-- An integer of too many digits is refused, in every range. -/
theorem readNumber_overlong {w : List Char} {s : Sign} {values : List Nat}
    (hspelling : integerSpelling? w = some (s, values)) (h : digitLimit < values.length) :
    readNumber (String.ofList w) = .error (.tooManyDigits ⟨values.length⟩) := by
  have hsigned : read (String.ofList w) .signed = .error (.tooManyDigits ⟨values.length⟩) := by
    simp only [read, readSigned, String.toList_ofList, hspelling, boundedValue_eq_error h]
    rfl
  have hunsigned : read (String.ofList w) .unsigned = .error (.tooManyDigits ⟨values.length⟩) ∨
      read (String.ofList w) .unsigned = .ok none := by
    cases s with
    | minus =>
      refine .inr ?_
      simp only [read, readUnsigned, String.toList_ofList, hspelling]
      rfl
    | absent | plus =>
      refine .inl ?_
      simp only [read, readUnsigned, String.toList_ofList, hspelling, boundedValue_eq_error h]
      rfl
  unfold readNumber
  split
  · simp only [readFirst, hsigned, bind, Except.bind]
  · rcases hunsigned with hunsigned | hunsigned
    · simp only [readFirst, hunsigned, bind, Except.bind]
    · simp only [readFirst, hunsigned, hsigned, bind, Except.bind]

/-- If every kind gives an answer and one of them gives a value, a value is found. -/
theorem readFirst_eq_ok {text : String} {kinds : List Kind}
    (hall : ∀ kind ∈ kinds, ∃ found, read text kind = .ok found)
    (hsome : ∃ kind ∈ kinds, ∃ value, read text kind = .ok (some value)) :
    ∃ value, readFirst text kinds = .ok (some value) := by
  induction kinds with
  | nil =>
    obtain ⟨_, hmem, -⟩ := hsome
    cases hmem
  | cons kind kinds ih =>
    rw [List.forall_mem_cons] at hall
    obtain ⟨⟨found, hfound⟩, hall⟩ := hall
    cases found with
    | some value =>
      refine ⟨value, ?_⟩
      simp only [readFirst, hfound, bind, Except.bind, pure, Except.pure]
    | none =>
      obtain ⟨kind', hmem, value, hvalue⟩ := hsome
      have hmem' : kind' ∈ kinds := by
        rcases List.mem_cons.1 hmem with rfl | hmem
        · rw [hfound] at hvalue
          cases hvalue
        · exact hmem
      obtain ⟨value', hread⟩ := ih hall ⟨kind', hmem', value, hvalue⟩
      refine ⟨value', ?_⟩
      simp only [readFirst, hfound, bind, Except.bind, hread]

/-- With few enough digits there is an answer for each of the integer kinds. -/
theorem read_integer_eq_ok {w : List Char}
    (h : ∀ s values, integerSpelling? w = some (s, values) → values.length ≤ digitLimit) :
    (∃ found, read (String.ofList w) .unsigned = .ok found) ∧
      ∃ found, read (String.ofList w) .signed = .ok found := by
  have hbounded : ∀ s values, integerSpelling? w = some (s, values) →
      boundedValue values = .ok (digitsValue values) := by
    intro s values hspelling
    unfold boundedValue
    rw [if_pos (h s values hspelling)]
  have hunsigned : ∃ n, readUnsigned (String.ofList w) = .ok n := by
    unfold readUnsigned
    rw [String.toList_ofList]
    split
    · exact ⟨_, rfl⟩
    · exact ⟨_, rfl⟩
    · rename_i hspelling
      rw [hbounded _ _ hspelling]
      exact ⟨_, rfl⟩
  have hsigned : ∃ z, readSigned (String.ofList w) = .ok z := by
    unfold readSigned
    rw [String.toList_ofList]
    split
    · exact ⟨_, rfl⟩
    · rename_i hspelling
      rw [hbounded _ _ hspelling]
      exact ⟨_, rfl⟩
  obtain ⟨n, hn⟩ := hunsigned
  obtain ⟨z, hz⟩ := hsigned
  constructor
  · refine ⟨n.map unsigned, ?_⟩
    simp only [read, hn]
    rfl
  · refine ⟨z.map signed, ?_⟩
    simp only [read, hz]
    rfl

/-- Every other decimal is read, in the end as a floating point number. -/
theorem readNumber_of_spanDecimal {w : List Char} {d : DecimalSpelling}
    (hspan : spanDecimal w = some (d, []))
    (h : ∀ s values, integerSpelling? w = some (s, values) → values.length ≤ digitLimit) :
    ∃ value, readNumber (String.ofList w) = .ok (some value) := by
  have hfloat : read (String.ofList w) .float = .ok (some (.float (.ofSpelling d))) := by
    simp only [read, readFloat, Binary64.read, String.toList_ofList, hspan]
    rfl
  obtain ⟨hunsigned, hsigned⟩ := read_integer_eq_ok h
  have hall : ∀ kind ∈ [Kind.unsigned, .signed, .float],
      ∃ found, read (String.ofList w) kind = .ok found := by
    simp only [List.forall_mem_cons]
    exact ⟨hunsigned, hsigned, ⟨_, hfloat⟩, List.forall_mem_nil _⟩
  unfold readNumber
  split
  · refine readFirst_eq_ok ?_ ⟨.float, by simp, _, hfloat⟩
    intro kind hkind
    exact hall kind (List.mem_cons_of_mem _ hkind)
  · exact readFirst_eq_ok hall ⟨.float, by simp, _, hfloat⟩

end MailMerge.Literal
