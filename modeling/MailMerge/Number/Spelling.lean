/-
How numbers are spelled: an optional sign, then decimal digits of any script, possibly with a point
and an exponent. What is read here is the spelling; the values are in `Integer` and `Binary64`.
-/
import MailMerge.Text.CharacterClass

namespace MailMerge.Number

open MailMerge.Text

/-- The sign that a spelling shows. -/
inductive Sign
  | absent
  | plus
  | minus
  deriving DecidableEq, Repr

/-- The sign at the start of a text, with what follows it. -/
def spanSign : List Char → Sign × List Char
  | '+' :: rest => (.plus, rest)
  | '-' :: rest => (.minus, rest)
  | cs => (.absent, cs)

theorem spanSign_length_le (cs : List Char) : (spanSign cs).2.length ≤ cs.length := by
  unfold spanSign
  split <;> simp

/-! ## Integers -/

/-- The sign and digits of a text that spells an integer. -/
def integerSpelling? (cs : List Char) : Option (Sign × List Nat) :=
  match spanDigits (spanSign cs).2 with
  | ([], _) => none
  | (digits, []) => some ((spanSign cs).1, digits)
  | _ => none

/-! ## Decimals -/

/-- A decimal as it is spelled: the digits in front of the point and behind it, and the exponent
with its sign. -/
structure DecimalSpelling where
  sign : Sign
  whole : List Nat
  fraction : List Nat
  exponent : Int
  deriving DecidableEq, Repr

/-- The exponent at the start of a text, zero where there is none. -/
def spanExponent (cs : List Char) : Int × List Char :=
  match cs with
  | c :: rest =>
    if c = 'e' ∨ c = 'E' then
      match spanDigits (spanSign rest).2 with
      | ([], _) => (0, cs)
      | (digits, rest') =>
        let size : Int := digitsValue digits
        (if (spanSign rest).1 = .minus then -size else size, rest')
    else (0, cs)
  | [] => (0, [])

/-- The digits behind a point, and what follows them; nothing where there is no point. -/
def spanFraction : List Char → List Nat × List Char
  | '.' :: rest => spanDigits rest
  | cs => ([], cs)

/-- The digits at the start of a text in front of a point and behind it. At least one digit must be
there; a point may end the digits. -/
def spanMantissa (cs : List Char) : Option (List Nat × List Nat × List Char) :=
  let (whole, rest) := spanDigits cs
  let (fraction, rest) := spanFraction rest
  if whole = [] ∧ fraction = [] then none else some (whole, fraction, rest)

/-- The longest decimal at the start of a text, with what follows it. -/
def spanDecimal (cs : List Char) : Option (DecimalSpelling × List Char) :=
  (spanMantissa (spanSign cs).2).map fun (whole, fraction, rest) =>
    (⟨(spanSign cs).1, whole, fraction, (spanExponent rest).1⟩, (spanExponent rest).2)

theorem spanExponent_length_le (cs : List Char) : (spanExponent cs).2.length ≤ cs.length := by
  unfold spanExponent
  split
  · rename_i c rest
    split
    · have := spanDigits_length (spanSign rest).2
      have := spanSign_length_le rest
      split
      · simp
      · rename_i digits rest' h
        simp only [h] at *
        simp; omega
    · simp
  · simp

theorem spanFraction_length_le (cs : List Char) :
    (spanFraction cs).1.length + (spanFraction cs).2.length ≤ cs.length := by
  unfold spanFraction
  split
  · rename_i rest
    have := spanDigits_length rest
    simp; omega
  · simp

theorem spanMantissa_length_lt {cs : List Char} {whole fraction : List Nat} {rest : List Char}
    (h : spanMantissa cs = some (whole, fraction, rest)) : rest.length < cs.length := by
  have hwhole := spanDigits_length cs
  have hfraction := spanFraction_length_le (spanDigits cs).2
  simp only [spanMantissa, Option.ite_none_left_eq_some, Option.some.injEq, Prod.mk.injEq] at h
  obtain ⟨hne, rfl, rfl, rfl⟩ := h
  have : (spanDigits cs).1 ≠ [] ∨ (spanFraction (spanDigits cs).2).1 ≠ [] := by
    simpa only [Decidable.not_and_iff_or_not] using hne
  rcases this with h | h <;> have := List.length_pos_iff.2 h <;> omega

theorem spanDecimal_length_lt {cs rest : List Char} {d : DecimalSpelling}
    (h : spanDecimal cs = some (d, rest)) : rest.length < cs.length := by
  obtain ⟨⟨whole, fraction, rest₁⟩, h₁, h₂⟩ := Option.map_eq_some_iff.1 h
  have := spanMantissa_length_lt h₁
  have := spanSign_length_le cs
  have := spanExponent_length_le rest₁
  simp only [Prod.mk.injEq] at h₂
  rw [← h₂.2]
  omega

end MailMerge.Number
