/-
Writing templates. A name can be written in backticks, or bare where no character of it has a
meaning at its place; each name is written in either way on its own, so that a template can be
written in many ways. `Written` tells them all, and `print` is one of them.
-/
import MailMerge.Markup.Escape
import MailMerge.Markup.Node
import MailMerge.Text.CharacterClass

namespace MailMerge.Markup

open MailMerge.Text

/-! ## Escapes -/

/-- What is escaped in plain text. -/
def escapedInText (c : Char) : Bool :=
  c ∈ ['\\', '{', '}', '@']

/-- What is escaped in a bare name. -/
def escapedInName (c : Char) : Bool :=
  c ∈ ['\\', '@', '{', '}', '.']

/-- What is escaped between quotes. -/
def escapedIn (quote c : Char) : Bool :=
  c = '\\' || c = quote

/-- A text between quotes. -/
def enclose (quote : Char) (cs : List Char) : List Char :=
  quote :: escape (escapedIn quote) cs ++ [quote]

/-! ## Names -/

/-- The brackets that names stand in. -/
inductive Bracket
  | expansion
  | tag
  deriving DecidableEq, Repr

namespace Bracket

/-- Whether a name can be written bare. In a block tag it must not contain a comparator nor be a
keyword. -/
def allowsBare (b : Bracket) (name : List Char) : Bool :=
  name.all (fun c => !isBlank c && c ≠ '\x60') &&
    (b = .expansion ||
      name.all (· ∉ ['<', '>', '=', '!']) && (Keyword.ofWord? (String.ofList name)).isNone)

/-- The ways to write a name. -/
def WritesName (b : Bracket) (name : String) (cs : List Char) : Prop :=
  cs = enclose '\x60' name.toList ∨
    b.allowsBare name.toList = true ∧ cs = escape escapedInName name.toList

/-- A name, bare where it can be. -/
def printName (b : Bracket) (name : String) : List Char :=
  if b.allowsBare name.toList then escape escapedInName name.toList
  else enclose '\x60' name.toList

theorem writesName_printName (b : Bracket) (name : String) : b.WritesName name (b.printName name) := by
  unfold printName WritesName
  split
  · exact .inr ⟨‹_›, rfl⟩
  · exact .inl rfl

end Bracket

/-! ## Interpolations and comparisons -/

/-- The ways to write a lookup. -/
def Lookup.Written (b : Bracket) (l : Lookup) (cs : List Char) : Prop :=
  match l.index with
  | none => b.WritesName l.table cs
  | some index =>
    ∃ table key, b.WritesName l.table table ∧ b.WritesName index key ∧ cs = table ++ '@' :: key

/-- A lookup, with its names in backticks where they need them. -/
def Lookup.print (b : Bracket) (l : Lookup) : List Char :=
  match l.index with
  | none => b.printName l.table
  | some index => b.printName l.table ++ '@' :: b.printName index

/-- The ways to write some lookups and a field behind them. -/
def WrittenPath (b : Bracket) (field : String) : List Lookup → List Char → Prop
  | [], cs => b.WritesName field cs
  | l :: path, cs =>
    ∃ first rest, l.Written b first ∧ WrittenPath b field path rest ∧ cs = first ++ '.' :: rest

/-- Some lookups and a field behind them, with dots between them. -/
def printPath (b : Bracket) (field : String) : List Lookup → List Char
  | [] => b.printName field
  | l :: path => l.print b ++ '.' :: printPath b field path

/-- The ways to write an interpolation. -/
def Expansion.Written (b : Bracket) (e : Expansion) (cs : List Char) : Prop :=
  WrittenPath b e.field e.path cs

/-- An interpolation without its brackets. -/
def Expansion.print (b : Bracket) (e : Expansion) : List Char :=
  printPath b e.field e.path

/-- A literal as templates write it: signed integers always with their sign, and an infinity as a
decimal that is too great for any other number. -/
def printLiteral : Literal → List Char
  | .unsigned n => (toString n).toList
  | .signed z => (if z < 0 then '-' else '+') :: (toString z.natAbs).toList
  | .float (.infinite negative) => (if negative then "-1e400" else "1e400").toList
  | .float x => x.text.toList
  | .text s => enclose '"' s.toList

/-- The ways to write a comparison. -/
def Comparison.Written (c : Comparison) (cs : List Char) : Prop :=
  ∃ subject, c.subject.Written .tag subject ∧
    cs = subject ++ ' ' :: c.op.symbol.toList ++ ' ' :: printLiteral c.literal

/-- A comparison, with one space on both sides of the comparator. -/
def Comparison.print (c : Comparison) : List Char :=
  c.subject.print .tag ++ ' ' :: c.op.symbol.toList ++ ' ' :: printLiteral c.literal

/-! ## Tags -/

/-- The ways to write what stands behind the word `for`. -/
def LoopHead.Written (h : LoopHead) (cs : List Char) : Prop :=
  ∃ name lookup condition,
    Bracket.tag.WritesName h.name name ∧ h.lookup.Written .tag lookup ∧
      (match h.condition with
        | none => condition = []
        | some c => ∃ written, c.Written written ∧ condition = " where ".toList ++ written) ∧
      cs = (if h.other then "other ".toList else []) ++ name ++ " in ".toList ++ lookup ++ condition

/-- What stands behind the word `for`. -/
def LoopHead.print (h : LoopHead) : List Char :=
  (if h.other then "other ".toList else []) ++ Bracket.tag.printName h.name ++ " in ".toList ++
    h.lookup.print .tag ++
      match h.condition with
      | none => []
      | some c => " where ".toList ++ c.print

/-- The ways to write what stands in a tag that opens a block. -/
def Tag.Written (t : Tag) (cs : List Char) : Prop :=
  ∃ head, cs = t.kind.word.toList ++ ' ' :: head ∧
    match t with
    | .loop h => h.Written head
    | .conditional c => c.Written head

/-- What stands in a tag that opens a block. -/
def Tag.print (t : Tag) : List Char :=
  t.kind.word.toList ++ ' ' ::
    match t with
    | .loop h => h.print
    | .conditional c => c.print

/-- An interpolation in its brackets. -/
def inExpansion (cs : List Char) : List Char :=
  "\x7b\x7b ".toList ++ cs ++ " \x7d\x7d".toList

/-- A block tag in its brackets. -/
def inTag (cs : List Char) : List Char :=
  "\x7b@ ".toList ++ cs ++ " @\x7d".toList

/-- The tag that closes a block. -/
def printEnd (k : BlockKind) : List Char :=
  inTag ("end ".toList ++ k.word.toList)

/-! ## Templates -/

mutual

/-- The ways to write a node. -/
def Node.Written : Node → List Char → Prop
  | .text value, cs => cs = escape escapedInText value.toList
  | .expansion e, cs => ∃ inside, e.Written .expansion inside ∧ cs = inExpansion inside
  | .block tag body, cs =>
    ∃ head inside, tag.Written head ∧ Node.AllWritten body inside ∧
      cs = inTag head ++ inside ++ printEnd tag.kind

/-- The ways to write nodes one behind the other. -/
def Node.AllWritten : List Node → List Char → Prop
  | [], cs => cs = []
  | node :: nodes, cs =>
    ∃ first rest, node.Written first ∧ Node.AllWritten nodes rest ∧ cs = first ++ rest

end

mutual

/-- A node, with all nodes inside of it. -/
def Node.print : Node → List Char
  | .text value => escape escapedInText value.toList
  | .expansion e => inExpansion (e.print .expansion)
  | .block tag body => inTag tag.print ++ Node.printAll body ++ printEnd tag.kind

/-- Nodes, one after the other. -/
def Node.printAll : List Node → List Char
  | [] => []
  | node :: nodes => node.print ++ Node.printAll nodes

end

/-! ## Printing is one way of writing -/

theorem Lookup.written_print (b : Bracket) (l : Lookup) : l.Written b (l.print b) := by
  unfold Written print
  split
  · exact b.writesName_printName _
  · exact ⟨_, _, b.writesName_printName _, b.writesName_printName _, rfl⟩

theorem writtenPath_printPath (b : Bracket) (field : String) (path : List Lookup) :
    WrittenPath b field path (printPath b field path) := by
  induction path with
  | nil => exact b.writesName_printName _
  | cons l path ih => exact ⟨_, _, l.written_print b, ih, rfl⟩

theorem Comparison.written_print (c : Comparison) : c.Written c.print :=
  ⟨_, writtenPath_printPath _ _ _, rfl⟩

theorem LoopHead.written_print (h : LoopHead) : h.Written h.print := by
  refine ⟨_, _, _, Bracket.tag.writesName_printName _, h.lookup.written_print _, ?_, rfl⟩
  split
  · rfl
  · rename_i c _
    exact ⟨_, c.written_print, rfl⟩

theorem Tag.written_print (t : Tag) : t.Written t.print := by
  refine ⟨_, rfl, ?_⟩
  cases t with
  | loop head => exact head.written_print
  | conditional test => exact test.written_print

mutual

/-- Every node can be written. -/
theorem Node.written_print : ∀ node : Node, node.Written node.print
  | .text _ => by simp only [Node.Written, Node.print]
  | .expansion e => by
    simp only [Node.Written, Node.print]
    exact ⟨_, writtenPath_printPath _ _ _, rfl⟩
  | .block tag body => by
    simp only [Node.Written, Node.print]
    exact ⟨_, _, tag.written_print, Node.allWritten_printAll body, rfl⟩

theorem Node.allWritten_printAll : ∀ nodes : List Node, Node.AllWritten nodes (Node.printAll nodes)
  | [] => by simp only [Node.AllWritten, Node.printAll]
  | node :: nodes => by
    simp only [Node.AllWritten, Node.printAll]
    exact ⟨_, _, node.written_print, Node.allWritten_printAll nodes, rfl⟩

end

end MailMerge.Markup
