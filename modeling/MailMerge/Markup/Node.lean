/-
The structure of a template: plain text, interpolations, and blocks with a body.
-/
import MailMerge.Markup.Fault

namespace MailMerge.Markup

/-- One step to a record of another table. The key is read from the current record, and is the
identity of the record in `table`. -/
structure Lookup where
  table : String
  index : Option String
  deriving DecidableEq, Repr

namespace Lookup

/-- The field that holds the key: the explicit index, else the name of the table. -/
def keyField (l : Lookup) : String :=
  l.index.getD l.table

/-- A lookup as messages show it. -/
def shown (l : Lookup) : String :=
  match l.index with
  | none => l.table
  | some index => l.table ++ "@" ++ index

end Lookup

/-- An interpolation: follow `path`, then read `field`. -/
structure Expansion where
  path : List Lookup
  field : String
  deriving DecidableEq, Repr

/-- An interpolation as messages show it. -/
def Expansion.shown (e : Expansion) : String :=
  String.intercalate "." (e.path.map Lookup.shown ++ [e.field])

/-- A comparison of a field with a literal. -/
structure Comparison where
  subject : Expansion
  op : Comparator
  literal : Literal
  deriving DecidableEq, Repr

/-- A comparison as messages show it. -/
def Comparison.shown (c : Comparison) : String :=
  c.subject.shown ++ " " ++ c.op.symbol ++ " " ++ c.literal.spelling

/-- The head of a loop: a name for the records of a table, which of them are kept, and whether the
one that the lookup points at is left out. -/
structure LoopHead where
  name : String
  lookup : Lookup
  condition : Option Comparison
  other : Bool
  deriving DecidableEq, Repr

/-- The tag that opens a block. -/
inductive Tag
  | loop (head : LoopHead)
  | conditional (test : Comparison)
  deriving DecidableEq, Repr

/-- The kind of the block that a tag opens. -/
def Tag.kind : Tag → BlockKind
  | loop _ => .loop
  | conditional _ => .conditional

/-- A piece of a template. -/
inductive Node
  | text (value : String)
  | expansion (e : Expansion)
  | block (tag : Tag) (body : List Node)
  deriving Repr

end MailMerge.Markup
