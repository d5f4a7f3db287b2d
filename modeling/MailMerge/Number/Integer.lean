/-
Integers read from text: an optional sign and decimal digits of any script, in the range of 64
bits. Leading zeros are allowed and count towards the limit on the number of digits.
-/
import MailMerge.Number.Spelling

namespace MailMerge.Number

open MailMerge.Text

/-- The most digits that are read as an integer. -/
def digitLimit : Nat := 4300

/-- More digits than are read as an integer. -/
structure TooManyDigits where
  count : Nat
  deriving DecidableEq, Repr

/-- The wording for an integer that has too many digits. -/
def TooManyDigits.message (e : TooManyDigits) : String :=
  s!"Exceeds the limit ({digitLimit} digits) for integer string conversion: value has {e.count} " ++
    "digits; use sys.set_int_max_str_digits() to increase the limit"

/-- The value of a run of digits, unless there are too many of them. -/
def boundedValue (digits : List Nat) : Except TooManyDigits Nat :=
  if digits.length ≤ digitLimit then .ok (digitsValue digits) else .error ⟨digits.length⟩

/-- The greatest unsigned integer of 64 bits. -/
def maxUnsigned : Nat := 0xFFFFFFFFFFFFFFFF

/-- The least signed integer of 64 bits. -/
def minSigned : Int := -0x8000000000000000

/-- The greatest signed integer of 64 bits. -/
def maxSigned : Int := 0x7FFFFFFFFFFFFFFF

/-- The unsigned integer that a text spells, if it spells one in range. A minus sign is never part
of an unsigned integer. -/
def readUnsigned (text : String) : Except TooManyDigits (Option Nat) :=
  match integerSpelling? text.toList with
  | some (.minus, _) | none => .ok none
  | some (_, digits) => do
    let n ← boundedValue digits
    return if n ≤ maxUnsigned then some n else none

/-- The signed integer that a text spells, if it spells one in range. -/
def readSigned (text : String) : Except TooManyDigits (Option Int) :=
  match integerSpelling? text.toList with
  | none => .ok none
  | some (sign, digits) => do
    let n ← boundedValue digits
    let z : Int := if sign = .minus then -n else n
    return if minSigned ≤ z ∧ z ≤ maxSigned then some z else none

end MailMerge.Number
