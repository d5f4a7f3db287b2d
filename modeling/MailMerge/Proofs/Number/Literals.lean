/-
How texts are read as literals. A text is read as a value of the kind that is asked for, and as a
number of the first kind that fits; so the kind of an integer is told by its sign and its range, and
all other numerals are floating point numbers.
-/
import MailMerge.Proofs.Except
import MailMerge.Proofs.Number.Numeral

namespace MailMerge.Literal

open MailMerge.Number

variable {text : String} {kind : Kind} {value : Literal} {s : Sign} {digits : List Char}

/-! ## Values of a kind -/

theorem read_unsigned_eq_some_iff :
    read text .unsigned = .ok (some value) ↔
      ∃ n, readUnsigned text = .ok (some n) ∧ unsigned n = value := by
  rw [read, map_map_eq_some_iff]
  simp only [mapError_eq_ok_iff]

theorem read_signed_eq_some_iff :
    read text .signed = .ok (some value) ↔
      ∃ z, readSigned text = .ok (some z) ∧ signed z = value := by
  rw [read, map_map_eq_some_iff]
  simp only [mapError_eq_ok_iff]

/-- What is read as a kind is a value of this kind. -/
theorem kind_of_read (h : read text kind = .ok (some value)) : value.kind = kind := by
  cases kind with
  | unsigned | signed | float =>
    obtain ⟨_, -, rfl⟩ := map_map_eq_some_iff.1 h
    rfl
  | text =>
    cases h
    rfl

/-- The value that is found first is read as one of the kinds that are tried. -/
theorem exists_of_readFirst {kinds : List Kind} (h : readFirst text kinds = .ok (some value)) :
    ∃ kind ∈ kinds, read text kind = .ok (some value) := by
  induction kinds with
  | nil => cases h
  | cons kind kinds ih =>
    rw [readFirst] at h
    cases hread : read text kind with
    | error e =>
      rw [hread] at h
      cases h
    | ok found =>
      rw [hread] at h
      cases found with
      | some first =>
        cases h
        exact ⟨kind, List.mem_cons_self, hread⟩
      | none =>
        obtain ⟨kind', hmem, hvalue⟩ := ih h
        exact ⟨kind', List.mem_cons_of_mem _ hmem, hvalue⟩

/-- A number is no text. -/
theorem ne_text_of_readNumber (h : readNumber text = .ok (some value)) (t : String) :
    value ≠ .text t := by
  rintro rfl
  unfold readNumber at h
  obtain ⟨kind, hmem, hread⟩ := exists_of_readFirst h
  obtain rfl : Kind.text = kind := kind_of_read hread
  split at hmem <;> simp at hmem

/-! ## Numerals -/

theorem read_float_of_spanDecimal {d : DecimalSpelling} (h : spanDecimal text.toList = some (d, [])) :
    read text .float = .ok (some (.float (.ofSpelling d))) := by
  simp only [read, readFloat, Binary64.read, h]
  rfl

/-- A plus sign starts the integers that have one, and no others. -/
theorem head?_of_isInteger (h : IsInteger text s digits) :
    text.toList.head? = some '+' ↔ s = .plus := by
  rw [h.spelled]
  cases s with
  | absent =>
    obtain ⟨c, cs, rfl⟩ := List.exists_cons_of_ne_nil h.isDigits.1
    have hc := h.isDigits.2 c List.mem_cons_self
    refine ⟨?_, nofun⟩
    rintro ⟨⟩
    cases hc
  | plus => exact ⟨fun _ => rfl, fun _ => rfl⟩
  | minus => exact ⟨nofun, nofun⟩

/-- The kind and the value of an integer are told by its sign and its range. -/
theorem readNumber_of_isInteger {d : DecimalSpelling} (h : IsInteger text s digits)
    (hspan : spanDecimal text.toList = some (d, [])) :
    readNumber text = .ok (some (
      if s = .absent ∧ placeValue digits ≤ maxUnsigned then .unsigned (placeValue digits)
      else if s ≠ .absent ∧ minSigned ≤ s.applied (placeValue digits) ∧
          s.applied (placeValue digits) ≤ maxSigned then .signed (s.applied (placeValue digits))
      else .float (.ofSpelling d))) := by
  have hunsigned : read text .unsigned = .ok ((if s ≠ .minus ∧ placeValue digits ≤ maxUnsigned then
      some (placeValue digits) else none).map unsigned) := by
    rw [read, h.readUnsigned]
    rfl
  have hsigned : readFirst text [.signed, .float] = .ok (some (
      if minSigned ≤ s.applied (placeValue digits) ∧ s.applied (placeValue digits) ≤ maxSigned then
        .signed (s.applied (placeValue digits)) else .float (.ofSpelling d))) := by
    have hfloat := read_float_of_spanDecimal hspan
    simp only [readFirst, read, h.readSigned]
    split
    · rfl
    · rw [read] at hfloat
      rw [hfloat]
      rfl
  have hhead := head?_of_isInteger h
  unfold readNumber
  cases s with
  | absent =>
    rw [if_neg (by simp [hhead]), readFirst, hunsigned]
    by_cases hle : placeValue digits ≤ maxUnsigned
    · simp only [hle, if_true, and_true, ne_eq, reduceCtorEq, not_false_eq_true]
      rfl
    · -- What is too great for an unsigned integer is too great for a signed one.
      have hgreat : ¬ ((placeValue digits : Int) ≤ maxSigned) := by
        unfold maxUnsigned at hle
        unfold maxSigned
        omega
      simp only [hle, and_false, if_false, Option.map_none]
      refine hsigned.trans ?_
      simp [Sign.applied, hgreat]
  | plus =>
    rw [if_pos (by simp [hhead]), hsigned]
    simp
  | minus =>
    rw [if_neg (by simp [hhead]), readFirst, hunsigned]
    refine hsigned.trans ?_
    simp

/-- What is no integer but is spelled as a number is a floating point number. -/
theorem readNumber_of_not_isInteger {d : DecimalSpelling}
    (h : ∀ s digits, ¬ (text.toList = Sign.spelling s ++ digits ∧ IsDigits digits))
    (hspan : spanDecimal text.toList = some (d, [])) :
    readNumber text = .ok (some (.float (.ofSpelling d))) := by
  have hnone : integerSpelling? text.toList = none := by
    cases hspelling : integerSpelling? text.toList with
    | none => rfl
    | some found =>
      obtain ⟨digits, hspelled, hdigits, -⟩ := integerSpelling?_eq_iff.1 hspelling
      exact (h found.1 digits ⟨hspelled, hdigits⟩).elim
  have hunsigned : read text .unsigned = .ok none := by
    simp only [read, readUnsigned, hnone]
    rfl
  have hsigned : read text .signed = .ok none := by
    simp only [read, readSigned, hnone]
    rfl
  have hfloat := read_float_of_spanDecimal hspan
  unfold readNumber
  split <;> simp only [readFirst, hunsigned, hsigned, hfloat, bind, Except.bind, pure, Except.pure]

end MailMerge.Literal
