/-
Integers as they are printed. The digits of a number are read back as that number, wherever they
stop, and a number of 64 bits has few enough of them.
-/
import MailMerge.Number.Integer

namespace MailMerge.Number

open MailMerge.Text

/-! ## Digits -/

/-- The decimal digits of a number, the highest one first. -/
def decimalDigits (n : Nat) : List Nat :=
  if n < 10 then [n] else decimalDigits (n / 10) ++ [n % 10]

theorem digitsValue_append (digits : List Nat) (d : Nat) :
    digitsValue (digits ++ [d]) = 10 * digitsValue digits + d := by
  simp [digitsValue]

theorem digitsValue_decimalDigits (n : Nat) : digitsValue (decimalDigits n) = n := by
  fun_induction decimalDigits n with
  | case1 n h => simp [digitsValue]
  | case2 n h ih =>
    rw [digitsValue_append, ih]
    omega

theorem decimalDigits_ne_nil (n : Nat) : decimalDigits n ≠ [] := by
  unfold decimalDigits
  split <;> simp

theorem decimalDigits_lt {n d : Nat} (h : d ∈ decimalDigits n) : d < 10 := by
  fun_induction decimalDigits n with
  | case1 n hn =>
    rw [List.mem_singleton] at h
    omega
  | case2 n hn ih =>
    rcases List.mem_append.1 h with h | h
    · exact ih h
    · rw [List.mem_singleton] at h
      omega

theorem toDigits_eq (n : Nat) : Nat.toDigits 10 n = (decimalDigits n).map Nat.digitChar := by
  fun_induction decimalDigits n with
  | case1 n h => rw [Nat.toDigits_of_lt_base h, List.map_singleton]
  | case2 n h ih =>
    rw [Nat.toDigits_of_base_le (by decide) (by omega), ih]
    simp

theorem digitValue?_digitChar {d : Nat} (h : d < 10) : digitValue? (Nat.digitChar d) = some d := by
  have : ∀ d : Fin 10, digitValue? (Nat.digitChar d) = some d.val := by decide
  exact this ⟨d, h⟩

/-! ## Reading digits -/

theorem spanDigits_map {digits : List Nat} {rest : List Char} (h : ∀ d ∈ digits, d < 10)
    (hrest : spanDigits rest = ([], rest)) :
    spanDigits (digits.map Nat.digitChar ++ rest) = (digits, rest) := by
  induction digits with
  | nil => exact hrest
  | cons d digits ih =>
    rw [List.forall_mem_cons] at h
    simp [spanDigits, digitValue?_digitChar h.1, ih h.2]

/-- The digits of a number are read up to the first character that is none. -/
theorem spanDigits_toDigits (n : Nat) {rest : List Char} (hrest : spanDigits rest = ([], rest)) :
    spanDigits (Nat.toDigits 10 n ++ rest) = (decimalDigits n, rest) := by
  rw [toDigits_eq]
  exact spanDigits_map (fun _ => decimalDigits_lt) hrest

/-- Digits show no sign. -/
theorem spanSign_toDigits (n : Nat) (rest : List Char) :
    spanSign (Nat.toDigits 10 n ++ rest) = (.absent, Nat.toDigits 10 n ++ rest) := by
  obtain ⟨c, cs, hcs⟩ := List.exists_cons_of_ne_nil (@Nat.toDigits_ne_nil n 10)
  have hdigit : c.isDigit = true :=
    Nat.isDigit_of_mem_toDigits (by decide) (by decide) (hcs ▸ List.mem_cons_self)
  rw [hcs, List.cons_append, spanSign]
  · rintro _ ⟨rfl, -⟩
    simp [Char.isDigit] at hdigit
  · rintro _ ⟨rfl, -⟩
    simp [Char.isDigit] at hdigit

/-- A number of 64 bits has few enough digits. -/
theorem boundedValue_decimalDigits {n : Nat} (h : n ≤ maxUnsigned) :
    boundedValue (decimalDigits n) = .ok n := by
  have hlength : (decimalDigits n).length ≤ 20 := by
    have := (Nat.length_toDigits_le_iff (n := n) (k := 20) (b := 10) (by decide) (by decide)).2
      (by unfold maxUnsigned at h; omega)
    rwa [toDigits_eq, List.length_map] at this
  unfold boundedValue digitLimit
  rw [if_pos (by omega), digitsValue_decimalDigits]

/-! ## Integers -/

/-- Digits up to the end, behind a sign or none. -/
theorem integerSpelling?_of_spanSign {cs : List Char} {sign : Sign} {n : Nat}
    (h : spanSign cs = (sign, Nat.toDigits 10 n)) :
    integerSpelling? cs = some (sign, decimalDigits n) := by
  have hdigits := @spanDigits_toDigits n [] rfl
  rw [List.append_nil] at hdigits
  unfold integerSpelling?
  rw [h, hdigits]
  split <;> simp_all [decimalDigits_ne_nil]

theorem readUnsigned_toDigits {n : Nat} (h : n ≤ maxUnsigned) :
    readUnsigned (String.ofList (Nat.toDigits 10 n)) = .ok (some n) := by
  have hsign := spanSign_toDigits n []
  rw [List.append_nil] at hsign
  unfold readUnsigned
  rw [String.toList_ofList, integerSpelling?_of_spanSign hsign]
  simp [boundedValue_decimalDigits h, h, bind, Except.bind, pure, Except.pure]

/-- A minus sign is never part of an unsigned integer. -/
theorem readUnsigned_minus (n : Nat) :
    readUnsigned (String.ofList ('-' :: Nat.toDigits 10 n)) = .ok none := by
  unfold readUnsigned
  rw [String.toList_ofList, @integerSpelling?_of_spanSign _ .minus n rfl]

/-- A signed integer is read behind its sign. -/
theorem readSigned_toDigits {z : Int} (h : minSigned ≤ z ∧ z ≤ maxSigned) :
    readSigned (String.ofList ((if z < 0 then '-' else '+') :: Nat.toDigits 10 z.natAbs)) =
      .ok (some z) := by
  have hbound : z.natAbs ≤ maxUnsigned := by
    unfold minSigned maxSigned at h
    unfold maxUnsigned
    omega
  unfold readSigned
  rw [String.toList_ofList]
  by_cases hz : z < 0
  · have habs : -(z.natAbs : Int) = z := by omega
    rw [if_pos hz, @integerSpelling?_of_spanSign _ .minus z.natAbs rfl]
    simp only [boundedValue_decimalDigits hbound, bind, Except.bind, pure, Except.pure, if_true, habs,
      if_pos h]
  · have habs : (z.natAbs : Int) = z := by omega
    rw [if_neg hz, @integerSpelling?_of_spanSign _ .plus z.natAbs rfl]
    simp only [boundedValue_decimalDigits hbound, bind, Except.bind, pure, Except.pure, habs,
      if_pos h, reduceCtorEq, if_false]

/-! ## Decimals -/

/-- An integer is the longest decimal in front of a space. -/
theorem spanDecimal_of_spanSign {cs rest : List Char} {sign : Sign} {n : Nat}
    (h : spanSign cs = (sign, Nat.toDigits 10 n ++ ' ' :: rest)) :
    spanDecimal cs = some (⟨sign, decimalDigits n, [], 0⟩, ' ' :: rest) := by
  have hdigits := @spanDigits_toDigits n (' ' :: rest) rfl
  have hmantissa : spanMantissa (Nat.toDigits 10 n ++ ' ' :: rest) =
      some (decimalDigits n, [], ' ' :: rest) := by
    simp [spanMantissa, hdigits, spanFraction, decimalDigits_ne_nil]
  simp [spanDecimal, h, hmantissa, spanExponent]

end MailMerge.Number
