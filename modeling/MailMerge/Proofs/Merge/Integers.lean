/-
Comparing integers. The text of a field is compared with an integer literal as the integer that it
spells, if it spells one of the kind of the literal, and then the comparison holds exactly if it does
so of the two integers. All other texts are refused as values of this kind, so the comparison fails.
-/
import MailMerge.Proofs.Merge.Raising

namespace MailMerge

open Number

/-! ## Integers of a kind -/

namespace Kind

/-- The signs that an integer of the kind may have. -/
def signs : Kind → List Sign
  | .unsigned => [.absent, .plus]
  | .signed => [.absent, .plus, .minus]
  | .float | .text => []

/-- Whether an integer lies in the range of the kind. -/
def Contains : Kind → Int → Prop
  | .unsigned, n => 0 ≤ n ∧ n ≤ maxUnsigned
  | .signed, n => minSigned ≤ n ∧ n ≤ maxSigned
  | .float, _ | .text, _ => False

/-- The text spells an integer in the range of the kind: one of its signs, and digits of which there
are not too many. -/
def Spells (kind : Kind) (text : String) (n : Int) : Prop :=
  ∃ s ∈ kind.signs, ∃ digits, IsInteger text s digits ∧ n = s.applied (placeValue digits) ∧
    kind.Contains n

end Kind

/-- The integer that a literal of an integer kind stands for. -/
def Literal.integer? : Literal → Option Int
  | .unsigned n => some n
  | .signed z => some z
  | .float _ | .text _ => none

/-- The six relations of integers. -/
def Comparator.Relates : Comparator → Int → Int → Prop
  | equal, n, m => n = m
  | notEqual, n, m => n ≠ m
  | greater, n, m => n > m
  | less, n, m => n < m
  | greaterOrEqual, n, m => n ≥ m
  | lessOrEqual, n, m => n ≤ m

instance (op : Comparator) (n m : Int) : Decidable (op.Relates n m) :=
  match op with
  | .equal => inferInstanceAs (Decidable (n = m))
  | .notEqual => inferInstanceAs (Decidable (n ≠ m))
  | .greater => inferInstanceAs (Decidable (n > m))
  | .less => inferInstanceAs (Decidable (n < m))
  | .greaterOrEqual => inferInstanceAs (Decidable (n ≥ m))
  | .lessOrEqual => inferInstanceAs (Decidable (n ≤ m))

variable {text : String} {kind : Kind} {literal value : Literal} {op : Comparator} {n m : Int}

/-! ## The order of integers -/

theorem compare_natCast (n m : Nat) : compare (n : Int) (m : Int) = compare n m := by
  rcases Nat.lt_trichotomy n m with h | h | h
  · rw [Nat.compare_eq_lt.2 h, Int.compare_eq_lt.2 (Int.ofNat_lt.2 h)]
  · rw [h, Nat.compare_eq_eq.2 rfl, Int.compare_eq_eq.2 rfl]
  · rw [Nat.compare_eq_gt.2 h, Int.compare_eq_gt.2 (Int.ofNat_lt.2 h)]

/-- A comparator accepts the order of two integers if it relates them. -/
theorem Comparator.accepts_compare (op : Comparator) (n m : Int) :
    op.accepts (some (compare n m)) = decide (op.Relates n m) := by
  rw [Bool.eq_iff_iff, decide_eq_true_iff]
  rcases Int.lt_trichotomy n m with h | h | h
  · rw [Int.compare_eq_lt.2 h]
    cases op <;> simp [accepts, Relates] <;> omega
  · rw [Int.compare_eq_eq.2 h]
    cases op <;> simp [accepts, Relates] <;> omega
  · rw [Int.compare_eq_gt.2 h]
    cases op <;> simp [accepts, Relates] <;> omega

/-- Two literals of one integer kind are in the order of their integers. -/
theorem Literal.compare?_of_integer? (hkind : value.kind = literal.kind)
    (hvalue : value.integer? = some n) (hliteral : literal.integer? = some m) :
    value.compare? literal = some (compare n m) := by
  cases value <;> cases literal <;> cases hkind <;> cases hvalue <;> cases hliteral
  · rw [compare_natCast]
    rfl
  · rfl

theorem Literal.exists_integer? (hkind : value.kind = literal.kind)
    (hliteral : literal.integer? = some m) : ∃ n, value.integer? = some n := by
  cases value with
  | unsigned n => exact ⟨n, rfl⟩
  | signed z => exact ⟨z, rfl⟩
  | float _ | text _ =>
    cases literal with
    | unsigned _ | signed _ => cases hkind
    | float _ | text _ => cases hliteral

/-! ## Reading integers -/

theorem Kind.mem_signs_unsigned {s : Sign} : s ∈ Kind.unsigned.signs ↔ s ≠ .minus := by
  cases s <;> decide

/-- A text is read as an integer of a kind if it spells one. -/
theorem Kind.spells_iff : kind.Spells text n ↔
    ∃ value, Literal.read text kind = .ok (some value) ∧ value.integer? = some n := by
  cases kind with
  | unsigned =>
    constructor
    · rintro ⟨s, hs, digits, hinteger, rfl, -, hle⟩
      have hminus := mem_signs_unsigned.1 hs
      rw [Sign.applied_of_ne_minus hminus] at hle ⊢
      have hread := readUnsigned_eq_some_iff.2
        ⟨s, digits, hinteger, hminus, rfl, Int.ofNat_le.1 hle⟩
      exact ⟨_, Literal.read_unsigned_eq_some_iff.2 ⟨_, hread, rfl⟩, rfl⟩
    · rintro ⟨value, hread, hvalue⟩
      obtain ⟨k, hk, rfl⟩ := Literal.read_unsigned_eq_some_iff.1 hread
      obtain ⟨s, digits, hinteger, hminus, rfl, hle⟩ := readUnsigned_eq_some_iff.1 hk
      cases hvalue
      exact ⟨s, mem_signs_unsigned.2 hminus, digits, hinteger,
        (Sign.applied_of_ne_minus hminus _).symm, Int.natCast_nonneg _, Int.ofNat_le.2 hle⟩
  | signed =>
    constructor
    · rintro ⟨s, -, digits, hinteger, rfl, hrange⟩
      have hread := readSigned_eq_some_iff.2 ⟨s, digits, hinteger, rfl, hrange⟩
      exact ⟨_, Literal.read_signed_eq_some_iff.2 ⟨_, hread, rfl⟩, rfl⟩
    · rintro ⟨value, hread, hvalue⟩
      obtain ⟨z, hz, rfl⟩ := Literal.read_signed_eq_some_iff.1 hread
      obtain ⟨s, digits, hinteger, rfl, hrange⟩ := readSigned_eq_some_iff.1 hz
      cases hvalue
      exact ⟨s, by cases s <;> simp [signs], digits, hinteger, rfl, hrange⟩
  | float | text =>
    constructor
    · rintro ⟨_, hs, -⟩
      cases hs
    · rintro ⟨value, hread, hvalue⟩
      have hkind := Literal.kind_of_read hread
      cases value with
      | unsigned _ | signed _ => cases hkind
      | float _ | text _ => cases hvalue

theorem Comparator.holds_of_read (h : Literal.read text literal.kind = .ok (some value)) :
    op.holds text literal = .ok (op.accepts (value.compare? literal)) := by
  unfold holds Literal.ofField
  rw [h]
  rfl

/-- What is not read as a value of the kind is refused. -/
theorem Comparator.refuses_of_read (h : ∀ value, Literal.read text literal.kind ≠ .ok (some value)) :
    ∃ fault, op.holds text literal = .error fault := by
  unfold holds Literal.ofField
  cases hread : Literal.read text literal.kind with
  | error fault => exact ⟨fault, rfl⟩
  | ok found =>
    cases found with
    | none => exact ⟨_, rfl⟩
    | some value => exact (h value hread).elim

namespace Merge.Raising

open Markup Data

/-! ## Comparisons -/

/-- A field that spells an integer of the kind of the literal is compared with the literal as
integers are. Every other field is refused as a value of this kind, and this fails the comparison. -/
theorem integers_compared (literal : Literal) (m : Int) (h : literal.integer? = some m)
    (op : Comparator) (text : String) :
    (∀ n, literal.kind.Spells text n → holds op text literal = .ok (decide (op.Relates n m))) ∧
      ((∀ n, ¬ literal.kind.Spells text n) →
        ∃ fault, holds op text literal = .error (.value fault) ∧
          ∀ (c : Comparison) record scope d, c.op = op → c.literal = literal →
            expand c.subject record scope d = .ok text →
              compare c record scope d = .error (.resolution (.failedComparison c fault))) := by
  constructor
  · intro n hspells
    obtain ⟨value, hread, hvalue⟩ := Kind.spells_iff.1 hspells
    rw [holds_eq, Comparator.holds_of_read hread,
      Literal.compare?_of_integer? (Literal.kind_of_read hread) hvalue h, op.accepts_compare]
    rfl
  · intro hnone
    -- What were read would be an integer of the same kind, which the text would spell.
    obtain ⟨fault, hfault⟩ : ∃ fault, op.holds text literal = .error fault := by
      apply Comparator.refuses_of_read
      intro value hread
      obtain ⟨n, hn⟩ := Literal.exists_integer? (Literal.kind_of_read hread) h
      exact hnone n (Kind.spells_iff.2 ⟨value, hread, hn⟩)
    have hholds : holds op text literal = .error (.value fault) := by
      rw [holds_eq, hfault]
      rfl
    refine ⟨fault, hholds, ?_⟩
    rintro c record scope d rfl rfl hexpand
    unfold compare
    rw [hexpand]
    show handle _ (holds c.op text c.literal) = _
    rw [hholds]
    rfl

/-- The greatest unsigned integer may be spelled with a sign and with zeros in front. The smallest may
not be spelled with a minus sign. -/
theorem integers_compared_ends :
    holds .greaterOrEqual "+00018446744073709551615" (.unsigned maxUnsigned) = .ok true ∧
      ∃ fault, holds .equal "-0" (.unsigned 0) = .error (.value fault) ∧
        compare ⟨⟨[], "age"⟩, .equal, .unsigned 0⟩ ⟨[("age", "-0")]⟩ .empty (.ofRecords [] []) =
          .error (.resolution (.failedComparison ⟨⟨[], "age"⟩, .equal, .unsigned 0⟩ fault)) := by
  constructor
  · have hspells : Kind.unsigned.Spells "+00018446744073709551615" maxUnsigned :=
      ⟨.plus, by decide, "00018446744073709551615".toList,
        ⟨by decide, ⟨by decide, List.all_eq_true.1 (by decide)⟩, by decide⟩, by decide, by decide,
        Int.le_refl _⟩
    exact (integers_compared (.unsigned maxUnsigned) maxUnsigned rfl _ _).1 _ hspells
  · have hnone : ∀ n, ¬ Kind.unsigned.Spells "-0" n := by
      rintro n ⟨s, hs, digits, ⟨hspelled, hdigits, -⟩, -⟩
      have hspelled : ['-', '0'] = s.spelling ++ digits := hspelled
      cases s with
      | absent =>
        have hminus := hdigits.2 '-' (by rw [← show ['-', '0'] = digits from hspelled]; simp)
        cases hminus
      | plus => cases hspelled
      | minus => simp [Kind.signs] at hs
    obtain ⟨fault, hholds, hcompare⟩ :=
      (integers_compared (.unsigned 0) 0 rfl .equal "-0").2 hnone
    exact ⟨fault, hholds, hcompare _ _ _ _ rfl rfl rfl⟩

end Merge.Raising

end MailMerge
