/-
The tokens that nodes stand for, in the order in which they are written and without white space.
Reading a template puts its tokens into nodes; flattening takes them out again.
-/
import MailMerge.Markup.Node

namespace MailMerge.Markup

/-! ## Inside a bracket -/

/-- The table of a lookup, and the index behind an at sign if there is one. -/
def Lookup.tokens (l : Lookup) : List TokenKind :=
  .segment l.table :: (l.index.map fun index => [.atSign, .segment index]).getD []

/-- The lookups of an interpolation, each with a dot behind it, and its field. -/
def Expansion.tokens (e : Expansion) : List TokenKind :=
  e.path.flatMap (fun l => l.tokens ++ [.dot]) ++ [.segment e.field]

/-- The two sides of a comparison, with the comparator between them. -/
def Comparison.tokens (c : Comparison) : List TokenKind :=
  c.subject.tokens ++ [.operator c.op, .literal c.literal]

/-- What stands behind the word `for`, without the white space. -/
def LoopHead.tokens (h : LoopHead) : List TokenKind :=
  (if h.other then [.keyword .otherWord] else []) ++
    [.segment h.name, .keyword .inWord] ++ h.lookup.tokens ++
      (h.condition.map fun c => .keyword .whereWord :: c.tokens).getD []

/-- The tokens of a tag that opens a block, with its brackets. -/
def Tag.tokens (t : Tag) : List TokenKind :=
  [.openTag, .keyword t.kind.keyword] ++
    (match t with
      | .loop head => head.tokens
      | .conditional test => test.tokens) ++ [.closeTag]

/-- The tokens of the tag that closes a block. -/
def BlockKind.endTokens (k : BlockKind) : List TokenKind :=
  [.openTag, .keyword .endWord, .keyword k.keyword, .closeTag]

/-! ## Templates -/

mutual

/-- The tokens of a node, with those of all nodes inside of it. -/
def Node.tokens : Node → List TokenKind
  | .text value => [.text value]
  | .expansion e => .openExpansion :: e.tokens ++ [.closeExpansion]
  | .block tag body => tag.tokens ++ Node.allTokens body ++ tag.kind.endTokens

/-- The tokens of some nodes, one after the other. -/
def Node.allTokens : List Node → List TokenKind
  | [] => []
  | node :: nodes => node.tokens ++ Node.allTokens nodes

end

end MailMerge.Markup
