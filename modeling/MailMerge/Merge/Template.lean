/-
Templates ready to be merged. A loop has a binding, which says how to find its records without
touching any table.
-/
import MailMerge.Markup.Reader

namespace MailMerge.Merge

open MailMerge.Markup

/-- Which records of a table a loop goes through. -/
inductive Binding
  | all (table : String)
  | filtered (table : String) (condition : Comparison)
  | others (table : String) (lookup : Lookup)
  | filteredOthers (table : String) (lookup : Lookup) (condition : Comparison)
  deriving DecidableEq, Repr

namespace Binding

/-- The table that a loop goes through. -/
def table : Binding → String
  | all table | filtered table _ | others table _ | filteredOthers table _ _ => table

/-- The lookup that points at the record to leave out. -/
def lookup? : Binding → Option Lookup
  | others _ lookup | filteredOthers _ lookup _ => some lookup
  | all _ | filtered _ _ => none

/-- The comparison that keeps a record. -/
def condition? : Binding → Option Comparison
  | filtered _ condition | filteredOthers _ _ condition => some condition
  | all _ | others _ _ => none

/-- The binding of a loop. -/
def ofHead (head : LoopHead) : Binding :=
  match head.other, head.condition with
  | true, some condition => filteredOthers head.lookup.table head.lookup condition
  | true, none => others head.lookup.table head.lookup
  | false, some condition => filtered head.lookup.table condition
  | false, none => all head.lookup.table

@[simp] theorem table_ofHead (head : LoopHead) : (ofHead head).table = head.lookup.table := by
  unfold ofHead
  split <;> rfl

@[simp] theorem lookup?_ofHead (head : LoopHead) :
    (ofHead head).lookup? = if head.other then some head.lookup else none := by
  unfold ofHead
  split <;> simp_all [lookup?]

@[simp] theorem condition?_ofHead (head : LoopHead) :
    (ofHead head).condition? = head.condition := by
  unfold ofHead
  split <;> simp_all [condition?]

end Binding

/-- A piece of a template that is ready to be merged. -/
inductive Piece
  | text (value : String)
  | expansion (e : Expansion)
  | loop (name : String) (binding : Binding) (body : List Piece)
  | conditional (test : Comparison) (body : List Piece)
  deriving Repr

namespace Piece

mutual

/-- The piece of a node. -/
def ofNode : Node → Piece
  | .text value => text value
  | .expansion e => expansion e
  | .block (.loop head) body => loop head.name (.ofHead head) (ofNodes body)
  | .block (.conditional test) body => conditional test (ofNodes body)

/-- The pieces of some nodes, in their order. -/
def ofNodes : List Node → List Piece
  | [] => []
  | node :: nodes => ofNode node :: ofNodes nodes

end

mutual

/-- How many loops a piece has, at all depths. -/
def loops : Piece → Nat
  | text _ | expansion _ => 0
  | loop _ _ body => loopsIn body + 1
  | conditional _ body => loopsIn body

/-- How many loops some pieces have, at all depths. -/
def loopsIn : List Piece → Nat
  | [] => 0
  | piece :: pieces => piece.loops + loopsIn pieces

end

mutual

/-- How many conditionals a piece has, at all depths. -/
def conditionals : Piece → Nat
  | text _ | expansion _ => 0
  | loop _ _ body => conditionalsIn body
  | conditional _ body => conditionalsIn body + 1

/-- How many conditionals some pieces have, at all depths. -/
def conditionalsIn : List Piece → Nat
  | [] => 0
  | piece :: pieces => piece.conditionals + conditionalsIn pieces

end

end Piece

/-- A template that can be rendered for any number of records. -/
structure Template where
  pieces : List Piece
  source : String
  deriving Repr

/-- Reads a template. -/
def Template.compile (source : String) : Except ParseError Template :=
  (parse source).map fun nodes => ⟨Piece.ofNodes nodes, source⟩

end MailMerge.Merge
