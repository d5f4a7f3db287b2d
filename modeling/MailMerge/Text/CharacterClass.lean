/-
Classes of characters, as Unicode 14 has them: sets of characters written as ascending ranges of code
points, white space, which separates the words of a tag, and the decimal digits of every script.
-/
namespace MailMerge.Text

/-! ## Ranges of code points -/

/-- Whether `n` lies in one of the closed ranges, which are disjoint and ascending, so that the
search may stop at the first range that starts above `n`. -/
def inRanges : List (Nat × Nat) → Nat → Bool
  | [], _ => false
  | (low, high) :: rest, n => if n < low then false else n ≤ high || inRanges rest n

/-- A code point of one of the ranges lies between that range's ends. -/
theorem mem_of_inRanges {ranges : List (Nat × Nat)} {n : Nat} (h : inRanges ranges n = true) :
    ∃ r ∈ ranges, r.1 ≤ n ∧ n ≤ r.2 := by
  induction ranges with
  | nil => simp [inRanges] at h
  | cons r rest ih =>
    obtain ⟨low, high⟩ := r
    simp only [inRanges] at h
    split at h
    · simp at h
    · rename_i hlow
      rcases Bool.or_eq_true_iff.mp h with hhigh | hrest
      · exact ⟨(low, high), by simp, by simpa using hlow, by simpa using hhigh⟩
      · obtain ⟨r, hr, hn⟩ := ih hrest
        exact ⟨r, by simp [hr], hn⟩

/-! ## White space -/

/-- The ranges of the white space characters, information separators included. -/
def blankRanges : List (Nat × Nat) :=
  [ (9, 13), (28, 32), (133, 133), (160, 160), (5760, 5760), (8192, 8202), (8232, 8233),
    (8239, 8239), (8287, 8287), (12288, 12288)]

/-- Whether a character is white space. -/
def isBlank (c : Char) : Bool :=
  inRanges blankRanges c.toNat

/-- The white space at the start of a text. -/
def leadingBlanks (cs : List Char) : List Char :=
  cs.takeWhile isBlank

/-- A text without the white space at its start. -/
def dropBlanks (cs : List Char) : List Char :=
  cs.dropWhile isBlank

/-- A text without the white space at its end. -/
def trimEnd (cs : List Char) : List Char :=
  (dropBlanks cs.reverse).reverse

theorem leadingBlanks_append_dropBlanks (cs : List Char) : leadingBlanks cs ++ dropBlanks cs = cs :=
  List.takeWhile_append_dropWhile

/-! ## Decimal digits -/

/-- The code points of the digits zero, ascending; the digits one to nine follow each of them. -/
def digitZeros : List Nat :=
  [ 48, 1632, 1776, 1984, 2406, 2534, 2662, 2790, 2918, 3046, 3174, 3302, 3430, 3558, 3664, 3792,
    3872, 4160, 4240, 6112, 6160, 6470, 6608, 6784, 6800, 6992, 7088, 7232, 7248, 42528, 43216,
    43264, 43472, 43504, 43600, 44016, 65296, 66720, 68912, 69734, 69872, 69942, 70096, 70384,
    70736, 70864, 71248, 71360, 71472, 71904, 72016, 72784, 73040, 73120, 92768, 92864, 93008,
    120782, 120792, 120802, 120812, 120822, 123200, 123632, 125264, 130032]

/-- The value of a decimal digit of any script. -/
def digitValue? (c : Char) : Option Nat :=
  (digitZeros.find? fun z => z ≤ c.toNat && c.toNat < z + 10).map (c.toNat - ·)

/-- Whether a character is a decimal digit of any script. -/
def isDecimalDigit (c : Char) : Bool :=
  (digitValue? c).isSome

/-- A run of digits has the value that positional notation in base ten gives it. -/
def digitsValue (digits : List Nat) : Nat :=
  digits.foldl (fun value d => 10 * value + d) 0

/-- The decimal digits at the start of a text, with what follows them. -/
def spanDigits : List Char → List Nat × List Char
  | [] => ([], [])
  | c :: rest =>
    match digitValue? c with
    | some d =>
      let more := spanDigits rest
      (d :: more.1, more.2)
    | none => ([], c :: rest)

theorem spanDigits_length (cs : List Char) :
    (spanDigits cs).1.length + (spanDigits cs).2.length = cs.length := by
  induction cs with
  | nil => rfl
  | cons c rest ih =>
    simp only [spanDigits]
    split
    · simp
      omega
    · simp

end MailMerge.Text
