/-
Binary floating point numbers of 64 bits, as exact values: every finite one is a whole multiple of
the least positive one. Reading a decimal rounds to the nearest number, a tie to the even one.
-/
import MailMerge.Number.Spelling

namespace MailMerge.Number

open MailMerge.Text

/-- A floating point number. The finite ones are counted in units of `2 ^ (-1074)`; at most 53 bits
of the count are significant. -/
inductive Binary64
  | nan
  | infinite (negative : Bool)
  | finite (negative : Bool) (units : Nat)
  deriving DecidableEq, Repr

namespace Binary64

/-- How many bits a finite number can have. -/
def significantBits : Nat := 53

/-- One, in units. -/
def unitsPerOne : Nat := 1 <<< 1074

/-- The first count of units above all finite numbers. -/
def unitsLimit : Nat := 1 <<< 2098

/-! ## Order -/

/-- Where a number other than `nan` stands in the order; both zeros stand at zero. -/
def rank : Binary64 → Int
  | nan => 0
  | infinite negative => if negative then -unitsLimit else unitsLimit
  | finite negative units => if negative then -units else units

/-- Compares two numbers; `nan` stands in no order to any number. -/
def compare? : Binary64 → Binary64 → Option Ordering
  | nan, _ => none
  | _, nan => none
  | x, y => some (compare x.rank y.rank)

/-! ## Rounding -/

/-- A quotient rounded to the nearest integer, a tie to the even one. -/
def divNearest (num den : Nat) : Nat :=
  let q := num / den
  let r := num % den
  if den < 2 * r ∨ (2 * r = den ∧ q % 2 = 1) then q + 1 else q

/-- How many of the last bits of a count are not significant. -/
def excessBits (units : Nat) : Nat :=
  Nat.log2 units + 1 - significantBits

/-- The number nearest to a quotient of units. -/
def ofUnits (negative : Bool) (num den : Nat) : Binary64 :=
  let excess := excessBits (num / den)
  let units := (divNearest num (den <<< excess)) <<< excess
  if units < unitsLimit then finite negative units else infinite negative

/-- The decimal magnitude from which on numbers are infinite. -/
def overflowMagnitude : Int := 310

/-- The decimal magnitude up to which numbers are rounded to zero. -/
def underflowMagnitude : Int := -330

/-- The number nearest to `digits * 10 ^ exponent`. A number that is far out of range is recognised
by its magnitude alone. -/
def ofDecimal (negative : Bool) (digits : List Nat) (exponent : Int) : Binary64 :=
  let digits := digits.dropWhile (· = 0)
  let magnitude := digits.length + exponent
  if digits = [] ∨ magnitude < underflowMagnitude then finite negative 0
  else if overflowMagnitude < magnitude then infinite negative
  else
    let n := digitsValue digits * unitsPerOne
    if 0 ≤ exponent then ofUnits negative (n * Nat.pow 10 exponent.toNat) 1
    else ofUnits negative n (Nat.pow 10 (-exponent).toNat)

/-- The number nearest to the decimal that is spelled. -/
def ofSpelling (d : DecimalSpelling) : Binary64 :=
  ofDecimal (d.sign = .minus) (d.whole ++ d.fraction) (d.exponent - d.fraction.length)

/-! ## Reading -/

/-- The letters of a name, in lower case or in upper case. -/
def spells (name : List Char) (cs : List Char) : Bool :=
  cs.map Char.toLower = name

/-- Capital I with a dot and small i without one, which count as spellings of `i`. -/
def foldsToI (c : Char) : Bool :=
  c = '\u0130' || c = '\u0131'

/-- What a text is, read as a floating point number. -/
inductive Reading
  | number (x : Binary64)
  | disguised
  | none
  deriving DecidableEq, Repr

/-- Reads a text as a floating point number: a decimal, an infinity or `nan`. An infinity that is
spelled with a letter that only counts as an `i` is told apart, as it is no number. -/
def read (text : String) : Reading :=
  let cs := text.toList
  match spanDecimal cs with
  | some (d, []) => .number (ofSpelling d)
  | _ =>
    let (sign, name) := spanSign cs
    let folded := name.map fun c => if foldsToI c then 'i' else c
    if spells "inf".toList folded ∨ spells "infinity".toList folded then
      if name.any foldsToI then .disguised else .number (infinite (sign = .minus))
    else if spells "nan".toList name then .number nan
    else .none

end Binary64

end MailMerge.Number
