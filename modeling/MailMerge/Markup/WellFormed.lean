/-
Well-formed templates: no text is empty and no two of them stand side by side, no name is empty,
and every literal lies in the range of its kind.
-/
import MailMerge.Markup.Node

namespace MailMerge

open Number

/-- Whether a literal lies in the range of its kind. A template cannot spell `nan`. -/
def Literal.InRange : Literal → Prop
  | unsigned n => n ≤ maxUnsigned
  | signed z => minSigned ≤ z ∧ z ≤ maxSigned
  | float x => x ≠ .nan
  | text _ => True

namespace Markup

/-! ## Inside a bracket -/

/-- No name of the lookup is empty. -/
def Lookup.WellFormed (l : Lookup) : Prop :=
  l.table ≠ "" ∧ l.index ≠ some ""

/-- No name of the interpolation is empty. -/
def Expansion.WellFormed (e : Expansion) : Prop :=
  (∀ l ∈ e.path, l.WellFormed) ∧ e.field ≠ ""

/-- The subject is well formed, and the literal lies in the range of its kind. -/
def Comparison.WellFormed (c : Comparison) : Prop :=
  c.subject.WellFormed ∧ c.literal.InRange

/-- The name of the loop is not empty, and all that stands behind it is well formed. -/
def LoopHead.WellFormed (h : LoopHead) : Prop :=
  h.name ≠ "" ∧ h.lookup.WellFormed ∧ ∀ c ∈ h.condition, c.WellFormed

/-- What the tag says is well formed. -/
def Tag.WellFormed : Tag → Prop
  | .loop head => head.WellFormed
  | .conditional test => test.WellFormed

/-! ## Nodes -/

/-- Whether a node is plain text. -/
def Node.isText : Node → Bool
  | .text _ => true
  | .expansion _ | .block _ _ => false

mutual

/-- A node that is well formed at all depths; no text is empty. -/
def Node.WellFormed : Node → Prop
  | .text value => value ≠ ""
  | .expansion e => e.WellFormed
  | .block tag body => tag.WellFormed ∧ Node.AllWellFormed body

/-- Nodes that are well formed each, with no two texts side by side. -/
def Node.AllWellFormed : List Node → Prop
  | [] => True
  | node :: nodes =>
    node.WellFormed ∧ (node.isText → ∀ next ∈ nodes.head?, ¬ next.isText) ∧
      Node.AllWellFormed nodes

end

end Markup

end MailMerge
