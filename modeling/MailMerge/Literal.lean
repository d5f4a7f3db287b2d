/-
Typed values. A literal in a template has a kind; the text of a field is read as that kind before
it is compared with the literal.
-/
import MailMerge.Number.Integer
import MailMerge.Number.Shortest
import MailMerge.Text.Quoted

namespace MailMerge

open MailMerge.Number MailMerge.Text

/-! ## Kinds -/

/-- The kinds of values that fields are compared as. -/
inductive Kind
  | unsigned
  | signed
  | float
  | text
  deriving DecidableEq, Repr

/-- What a kind is called in messages. -/
def Kind.name : Kind → String
  | .unsigned => "unsigned integer"
  | .signed => "signed integer"
  | .float => "float"
  | .text => "text"

/-- Every kind. -/
def Kind.all : List Kind := [.unsigned, .signed, .float, .text]

/-- The kind that is called so. -/
def Kind.ofName? (name : String) : Option Kind :=
  all.find? (·.name = name)

/-- A value of one of the kinds. -/
inductive Literal
  | unsigned (n : Nat)
  | signed (z : Int)
  | float (x : Binary64)
  | text (s : String)
  deriving DecidableEq, Repr

namespace Literal

/-- The kind of a literal. -/
def kind : Literal → Kind
  | unsigned _ => .unsigned
  | signed _ => .signed
  | float _ => .float
  | text _ => .text

/-- The text of a literal in messages; texts stand in double quotes, with nothing escaped. -/
def spelling : Literal → String
  | unsigned n => toString n
  | signed z => toString z
  | float x => x.text
  | text s => "\"" ++ s ++ "\""

/-- Compares two values of one kind. Texts are ordered by their code points. -/
def compare? : Literal → Literal → Option Ordering
  | unsigned m, unsigned n => some (compare m n)
  | signed y, signed z => some (compare y z)
  | float x, float y => x.compare? y
  | text s, text t => some (compare s t)
  | _, _ => none

end Literal

/-! ## Comparators -/

/-- The six comparisons. -/
inductive Comparator
  | equal
  | notEqual
  | greater
  | less
  | greaterOrEqual
  | lessOrEqual
  deriving DecidableEq, Repr

namespace Comparator

/-- How a comparison is written. -/
def symbol : Comparator → String
  | equal => "="
  | notEqual => "!="
  | greater => ">"
  | less => "<"
  | greaterOrEqual => ">="
  | lessOrEqual => "<="

/-- Every comparator. -/
def all : List Comparator :=
  [equal, notEqual, greater, less, greaterOrEqual, lessOrEqual]

/-- The comparison that is written so. -/
def ofSymbol? (symbol : String) : Option Comparator :=
  all.find? (·.symbol = symbol)

/-- Whether the comparison holds of two values in the given order. Values in no order differ, and
no other comparison holds of them. -/
def accepts : Comparator → Option Ordering → Bool
  | equal, o => o = some .eq
  | notEqual, o => o ≠ some .eq
  | greater, o => o = some .gt
  | less, o => o = some .lt
  | greaterOrEqual, o => o = some .gt ∨ o = some .eq
  | lessOrEqual, o => o = some .lt ∨ o = some .eq

end Comparator

/-! ## Reading values -/

/-- Why a text is no value of a kind. -/
inductive ValueFault
  | tooManyDigits (e : TooManyDigits)
  | disguisedInfinity (text : String)
  | notOfKind (text : String) (kind : Kind)
  deriving DecidableEq, Repr

/-- The wording of what is wrong with a value. -/
def ValueFault.message : ValueFault → String
  | tooManyDigits e => e.message
  | disguisedInfinity text => "could not convert string to float: " ++ quoted text
  | notOfKind text kind => quoted text ++ " is not a valid " ++ kind.name

namespace Literal

/-- The floating point number that a text spells, if it spells one. -/
def readFloat (text : String) : Except ValueFault (Option Binary64) :=
  match Binary64.read text with
  | .number x => .ok (some x)
  | .disguised => .error (.disguisedInfinity text)
  | .none => .ok none

/-- The value of the given kind that a text spells, if it spells one. -/
def read (text : String) : Kind → Except ValueFault (Option Literal)
  | .unsigned => ((readUnsigned text).mapError .tooManyDigits).map (·.map unsigned)
  | .signed => ((readSigned text).mapError .tooManyDigits).map (·.map signed)
  | .float => (readFloat text).map (·.map float)
  | .text => .ok (some (.text text))

/-- The value that a text spells, of the first of the kinds that fits. -/
def readFirst (text : String) : List Kind → Except ValueFault (Option Literal)
  | [] => .ok none
  | kind :: kinds => do
    match ← read text kind with
    | some value => return value
    | none => readFirst text kinds

/-- The number that a text spells, of the first kind that fits: unsigned, signed, float. A plus sign
makes an integer signed. -/
def readNumber (text : String) : Except ValueFault (Option Literal) :=
  readFirst text
    (if text.toList.head? = some '+' then [.signed, .float] else [.unsigned, .signed, .float])

/-- The text of a field as a value of the given kind. -/
def ofField (text : String) (kind : Kind) : Except ValueFault Literal := do
  match ← read text kind with
  | some value => return value
  | none => throw (.notOfKind text kind)

end Literal

/-- Whether a comparison holds between the text of a field, read as the kind of the literal, and
the literal. -/
def Comparator.holds (op : Comparator) (field : String) (literal : Literal) :
    Except ValueFault Bool := do
  return op.accepts ((← Literal.ofField field literal.kind).compare? literal)

end MailMerge
