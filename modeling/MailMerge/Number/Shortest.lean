/-
The shortest decimal that is nearest to a floating point number, and its text. A decimal is right
when it lies in the interval of values that round to the number; of the decimals with the fewest
digits the nearest is taken, a tie goes to the even one.
-/
import MailMerge.Number.Binary64

namespace MailMerge.Number.Binary64

/-! ## The digits -/

/-- The values that round to a finite number, in quarters of a unit, with whether the ends belong
to them. Below a power of two the numbers lie twice as close. -/
structure RoundingInterval where
  low : Nat
  high : Nat
  closed : Bool

/-- The values that round to `units`. -/
def roundingInterval (units : Nat) : RoundingInterval :=
  let excess := excessBits units
  let leading := units >>> excess
  let below :=
    if leading = 1 <<< (significantBits - 1) ∧ 0 < excess then 1 <<< excess else 2 <<< excess
  { low := 4 * units - below, high := 4 * units + (2 <<< excess), closed := leading % 2 = 0 }

/-- The power of ten with an integer exponent, as a numerator and a denominator. -/
def tenPower (exponent : Int) : Nat × Nat :=
  (Nat.pow 10 exponent.toNat, Nat.pow 10 (-exponent).toNat)

/-- Whether `n * 10 ^ exponent` lies in the interval. -/
def RoundingInterval.contains (i : RoundingInterval) (n : Nat) (exponent : Int) : Bool :=
  let (num, den) := tenPower exponent
  let value := n * num * (4 * unitsPerOne)
  if i.closed then i.low * den ≤ value && value ≤ i.high * den
  else i.low * den < value && value < i.high * den

/-- How many decimal digits a positive number has in front of the point; for a number below one,
less one for each zero behind the point. -/
def magnitude (units : Nat) : Int :=
  let scale : Nat := 400
  ((Nat.toDigits 10 (units * Nat.pow 10 scale / unitsPerOne)).length : Int) - scale

/-- The nearest decimal with the given exponent that rounds to `units`, if one does. -/
def nearestOnGrid (units : Nat) (exponent : Int) : Option Nat :=
  let (num, den) := tenPower exponent
  let n := units * den
  let d := num * unitsPerOne
  let lower := n / d
  let interval := roundingInterval units
  match interval.contains lower exponent, interval.contains (lower + 1) exponent with
  | true, true => some (divNearest n d)
  | true, false => some lower
  | false, true => some (lower + 1)
  | false, false => none

/-- Seventeen digits tell any two numbers apart. -/
def maxDigits : Nat := 17

/-- The shortest decimal for a positive number, as an integer and an exponent. -/
def shortest (units : Nat) : Nat × Int :=
  let m := magnitude units
  ((List.range maxDigits).findSome? fun (k : Nat) =>
    let exponent : Int := m - (k + 1)
    (nearestOnGrid units exponent).map (·, exponent)).getD (units, -1074)

/-! ## The text -/

/-- Where decimals change from digits around a point to digits with an exponent. -/
structure DecimalStyle where
  leastPoint : Int
  greatestPoint : Int
  exponentDigits : Nat

/-- Numbers from `0.0001` to below `10 ^ 16` have no exponent; an exponent has two digits at
least. -/
def style : DecimalStyle := ⟨-3, 16, 2⟩

/-- Digits with zeros in front to a width. -/
def padded (width n : Nat) : List Char :=
  let digits := Nat.toDigits 10 n
  List.replicate (width - digits.length) '0' ++ digits

/-- The text of `0.digits * 10 ^ point`. -/
def decimalText (digits : List Char) (point : Int) : List Char :=
  if style.leastPoint ≤ point ∧ point ≤ style.greatestPoint then
    if point ≤ 0 then "0.".toList ++ List.replicate (-point).toNat '0' ++ digits
    else
      let whole := digits.take point.toNat
      let fraction := digits.drop point.toNat
      whole ++ List.replicate (point.toNat - whole.length) '0' ++ '.' ::
        (if fraction = [] then ['0'] else fraction)
  else
    let exponent := point - 1
    digits.take 1 ++ (if digits.length ≤ 1 then [] else '.' :: digits.drop 1) ++ 'e' ::
      (if exponent < 0 then '-' else '+') :: padded style.exponentDigits exponent.natAbs

/-- The digits of a number without the zeros at its end, and how many digits it has. -/
def significantDigits (n : Nat) : List Char × Nat :=
  let digits := Nat.toDigits 10 n
  ((digits.reverse.dropWhile (· = '0')).reverse, digits.length)

/-- The text of a magnitude. -/
def unitsText (units : Nat) : List Char :=
  if units = 0 then "0.0".toList
  else
    let (n, exponent) := shortest units
    let (digits, count) := significantDigits n
    decimalText digits (exponent + count)

/-- The text of a number. -/
def text : Binary64 → String
  | nan => "nan"
  | infinite negative => if negative then "-inf" else "inf"
  | finite negative units => String.ofList ((if negative then ['-'] else []) ++ unitsText units)

end MailMerge.Number.Binary64
