/-
The names that nodes use, and giving the name of a loop another spelling. A lookup uses the name of a
loop by its key field. The uses of a name end where an inner loop takes the same name.
-/
import MailMerge.Markup.Node

namespace MailMerge.Markup

/-! ## Lookups and loop names -/

/-- The lookups of a condition, if there is one. -/
def LoopHead.conditionPath (head : LoopHead) : List Lookup :=
  (head.condition.map (·.subject.path)).getD []

namespace Node

mutual

/-- The lookups of a node, at all depths. -/
def lookups : Node → List Lookup
  | text _ => []
  | expansion e => e.path
  | block (.conditional test) body => test.subject.path ++ lookupsIn body
  | block (.loop head) body => head.lookup :: head.conditionPath ++ lookupsIn body

/-- The lookups of some nodes, in their order. -/
def lookupsIn : List Node → List Lookup
  | [] => []
  | node :: nodes => node.lookups ++ lookupsIn nodes

end

mutual

/-- The names of the loops of a node, at all depths. -/
def loopNames : Node → List String
  | text _ | expansion _ => []
  | block (.conditional _) body => loopNamesIn body
  | block (.loop head) body => head.name :: loopNamesIn body

/-- The names of the loops of some nodes, in their order. -/
def loopNamesIn : List Node → List String
  | [] => []
  | node :: nodes => node.loopNames ++ loopNamesIn nodes

end

end Node

/-! ## Renaming -/

/-- Gives a lookup the key field `new` in the place of `old`; it stays in its table. -/
def Lookup.rename (old new : String) (l : Lookup) : Lookup :=
  if l.keyField = old then { l with index := some new } else l

/-- Renames a key field in every lookup of an interpolation. -/
def Expansion.rename (old new : String) (e : Expansion) : Expansion :=
  { e with path := e.path.map (·.rename old new) }

/-- Renames a key field in every lookup of a comparison. -/
def Comparison.rename (old new : String) (c : Comparison) : Comparison :=
  { c with subject := c.subject.rename old new }

namespace Node

mutual

/-- Renames the uses of the name of an enclosing loop. An inner loop of this name has uses of its
own; its lookup still is one of the enclosing loop. -/
def rename (old new : String) : Node → Node
  | text value => text value
  | expansion e => expansion (e.rename old new)
  | block (.conditional test) body =>
    block (.conditional (test.rename old new)) (renameIn old new body)
  | block (.loop head) body =>
    if head.name = old then
      block (.loop { head with lookup := head.lookup.rename old new }) body
    else
      block
        (.loop { head with
          lookup := head.lookup.rename old new
          condition := head.condition.map (·.rename old new) })
        (renameIn old new body)

/-- Renames a key field in some nodes. -/
def renameIn (old new : String) : List Node → List Node
  | [] => []
  | node :: nodes => node.rename old new :: renameIn old new nodes

end

end Node

/-- Gives a loop another name. Its own lookup is no use of the name, but its condition can be. -/
def LoopHead.renamed (head : LoopHead) (new : String) : LoopHead :=
  { head with
    name := new
    condition := head.condition.map (·.rename head.name new) }

end MailMerge.Markup
