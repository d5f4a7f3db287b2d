/-
The grammar of templates, as a relation between nodes and the kinds of their tokens, white space
included. White space separates the words of a block tag, may stand in front of a comparator, and
stands nowhere else. Without it the tokens of nodes are those that flattening gives.
-/
import MailMerge.Markup.Draft
import MailMerge.Markup.Flatten

namespace MailMerge.Markup

/-! ## Tags -/

/-- The ways to spell a comparison in tokens. -/
def Comparison.Spelled (c : Comparison) (kinds : List TokenKind) : Prop :=
  ∃ gap, (gap = [] ∨ gap = [.blank]) ∧
    kinds = c.subject.tokens ++ gap ++ [.operator c.op, .literal c.literal]

/-- The name of a loop, with the word `other` if it is there. -/
def nameTokens (other : Bool) (name : String) : List TokenKind :=
  (if other then [.keyword .otherWord, .blank] else []) ++ [.segment name]

/-- The tokens in front of the table of a loop. -/
def loopTokens (other : Bool) (name : String) : List TokenKind :=
  nameTokens other name ++ [.blank, .keyword .inWord, .blank]

/-- The ways to spell what stands behind the word `for`. -/
def LoopHead.Spelled (h : LoopHead) (kinds : List TokenKind) : Prop :=
  match h.condition with
  | none => kinds = loopTokens h.other h.name ++ h.lookup.tokens
  | some c =>
    ∃ condition, c.Spelled condition ∧
      kinds = loopTokens h.other h.name ++ h.lookup.tokens ++
        [.blank, .keyword .whereWord, .blank] ++ condition

/-- The ways to spell a tag that opens a block, with its brackets. -/
def Tag.Spelled (t : Tag) (kinds : List TokenKind) : Prop :=
  ∃ head, kinds = [.openTag, .keyword t.kind.keyword, .blank] ++ head ++ [.closeTag] ∧
    match t with
    | .loop h => h.Spelled head
    | .conditional c => c.Spelled head

/-- The tokens of the tag that closes a block, with its white space. -/
def BlockKind.endSpelling (k : BlockKind) : List TokenKind :=
  [.openTag, .keyword .endWord, .blank, .keyword k.keyword, .closeTag]

/-- The ways to spell a block tag. -/
def TagEffect.Spelled : TagEffect → List TokenKind → Prop
  | .opens tag, kinds => tag.Spelled kinds
  | .closes kind, kinds => kinds = kind.endSpelling

/-! ## Templates -/

mutual

/-- The ways to spell a node. -/
def Node.Spelled : Node → List TokenKind → Prop
  | .text value, kinds => kinds = [.text value]
  | .expansion e, kinds => kinds = .openExpansion :: e.tokens ++ [.closeExpansion]
  | .block tag body, kinds =>
    ∃ head inside, tag.Spelled head ∧ Node.AllSpelled body inside ∧
      kinds = head ++ inside ++ tag.kind.endSpelling

/-- The ways to spell nodes one behind the other. -/
def Node.AllSpelled : List Node → List TokenKind → Prop
  | [], kinds => kinds = []
  | node :: nodes, kinds =>
    ∃ first rest, node.Spelled first ∧ Node.AllSpelled nodes rest ∧ kinds = first ++ rest

end

namespace Node

theorem allSpelled_nil : AllSpelled [] [] := by rw [AllSpelled]

theorem AllSpelled.append {nodes more : List Node} {kinds rest : List TokenKind}
    (h : AllSpelled nodes kinds) (hmore : AllSpelled more rest) :
    AllSpelled (nodes ++ more) (kinds ++ rest) := by
  induction nodes generalizing kinds with
  | nil =>
    rw [AllSpelled] at h
    subst h
    exact hmore
  | cons node nodes ih =>
    rw [AllSpelled] at h
    obtain ⟨first, others, hfirst, hothers, rfl⟩ := h
    rw [List.cons_append, AllSpelled]
    exact ⟨first, others ++ rest, hfirst, ih hothers, List.append_assoc ..⟩

/-- Nodes that are kept in reverse get one more. -/
theorem AllSpelled.push {nodes : List Node} {node : Node} {kinds rest : List TokenKind}
    (h : AllSpelled nodes.reverse kinds) (hnode : node.Spelled rest) :
    AllSpelled (node :: nodes).reverse (kinds ++ rest) := by
  rw [List.reverse_cons]
  refine h.append ?_
  rw [AllSpelled]
  exact ⟨rest, [], hnode, allSpelled_nil, (List.append_nil _).symm⟩

end Node

/-! ## Without white space -/

/-- Tokens without white space. -/
def visible (kinds : List TokenKind) : List TokenKind :=
  kinds.filter (· ≠ .blank)

@[simp] theorem visible_nil : visible [] = [] := rfl

@[simp] theorem visible_cons (kind : TokenKind) (kinds : List TokenKind) :
    visible (kind :: kinds) = if kind = .blank then visible kinds else kind :: visible kinds := by
  by_cases h : kind = .blank <;> simp [visible, h]

@[simp] theorem visible_append (kinds more : List TokenKind) :
    visible (kinds ++ more) = visible kinds ++ visible more :=
  List.filter_append ..

theorem Lookup.visible_tokens (l : Lookup) : visible l.tokens = l.tokens := by
  obtain ⟨table, index⟩ := l
  cases index <;> rfl

theorem Expansion.visible_tokens (e : Expansion) : visible e.tokens = e.tokens := by
  obtain ⟨path, field⟩ := e
  unfold tokens
  induction path with
  | nil => rfl
  | cons l path ih =>
    simp only [List.flatMap_cons, List.append_assoc, visible_append, l.visible_tokens] at ih ⊢
    rw [ih]
    rfl

theorem Comparison.Spelled.visible {c : Comparison} {kinds : List TokenKind} (h : c.Spelled kinds) :
    visible kinds = c.tokens := by
  obtain ⟨gap, rfl | rfl, rfl⟩ := h <;> simp [c.subject.visible_tokens, tokens]

theorem visible_loopTokens (other : Bool) (name : String) :
    visible (loopTokens other name) =
      (if other then [.keyword .otherWord] else []) ++ [.segment name, .keyword .inWord] := by
  cases other <;> rfl

theorem LoopHead.Spelled.visible {h : LoopHead} {kinds : List TokenKind} (hs : h.Spelled kinds) :
    visible kinds = h.tokens := by
  unfold Spelled at hs
  unfold tokens
  split at hs
  · rename_i hc
    subst hs
    simp only [visible_append, visible_loopTokens, h.lookup.visible_tokens, hc, Option.map_none,
      Option.getD_none, List.append_nil]
  · rename_i c hc
    obtain ⟨condition, hcondition, rfl⟩ := hs
    simp [visible_loopTokens, h.lookup.visible_tokens, hcondition.visible, hc]

theorem Tag.Spelled.visible {t : Tag} {kinds : List TokenKind} (h : t.Spelled kinds) :
    visible kinds = t.tokens := by
  obtain ⟨head, rfl, hhead⟩ := h
  cases t with
  | loop h => simp [hhead.visible, tokens]
  | conditional c => simp [hhead.visible, tokens]

theorem BlockKind.visible_endSpelling (k : BlockKind) : visible k.endSpelling = k.endTokens := by
  cases k <;> rfl

mutual

theorem Node.Spelled.visible : ∀ {node : Node} {kinds : List TokenKind},
    node.Spelled kinds → visible kinds = node.tokens
  | .text value, kinds, h => by
    rw [Node.Spelled] at h
    subst h
    rw [Node.tokens]
    rfl
  | .expansion e, kinds, h => by
    rw [Node.Spelled] at h
    subst h
    rw [Node.tokens]
    simp [e.visible_tokens]
  | .block tag body, kinds, h => by
    rw [Node.Spelled] at h
    obtain ⟨head, inside, hhead, hinside, rfl⟩ := h
    rw [Node.tokens, visible_append, visible_append, hhead.visible, hinside.visible,
      BlockKind.visible_endSpelling]

/-- The tokens that spell nodes are those of the nodes, with white space in between. -/
theorem Node.AllSpelled.visible : ∀ {nodes : List Node} {kinds : List TokenKind},
    Node.AllSpelled nodes kinds → visible kinds = Node.allTokens nodes
  | [], kinds, h => by
    rw [Node.AllSpelled] at h
    subst h
    rw [Node.allTokens]
    rfl
  | node :: nodes, kinds, h => by
    rw [Node.AllSpelled] at h
    obtain ⟨first, rest, hfirst, hrest, rfl⟩ := h
    rw [Node.allTokens, visible_append, hfirst.visible, hrest.visible]

end

end MailMerge.Markup
