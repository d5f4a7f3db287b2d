/-
Reading the structure of a template from its tokens, one token at a time. A draft is what the tokens
so far amount to: the blocks that are open, the nodes read in the innermost one, and where in a
bracket the reading stands. A token that cannot follow is refused at once.

A block tag takes effect with the first token after it: only then is its block opened, or the
innermost block closed.
-/
import MailMerge.Markup.Node

namespace MailMerge.Markup

/-! ## Inside a bracket -/

/-- Where the reading of a path stands. -/
inductive PathSpot
  | start (path : List Lookup)
  | named (path : List Lookup) (name : String)
  | indexing (path : List Lookup) (table : String)
  | indexed (path : List Lookup) (last : Lookup)
  deriving DecidableEq, Repr

namespace PathSpot

/-- The spot behind one more token. A name in front of a dot is a table. -/
def next? : PathSpot → TokenKind → Option PathSpot
  | start path, .segment name => some (named path name)
  | named path name, .dot => some (start (path ++ [⟨name, none⟩]))
  | named path name, .atSign => some (indexing path name)
  | indexing path table, .segment index => some (indexed path ⟨table, some index⟩)
  | indexed path last, .dot => some (start (path ++ [last]))
  | _, _ => none

/-- The interpolation that is complete here. -/
def expansion? : PathSpot → Option Expansion
  | named path name => some ⟨path, name⟩
  | _ => none

/-- The single lookup that is complete here. -/
def lookup? : PathSpot → Option Lookup
  | named [] name => some ⟨name, none⟩
  | indexed [] last => some last
  | _ => none

end PathSpot

/-- Where the reading of a comparison stands. -/
inductive ComparisonSpot
  | subject (spot : PathSpot)
  | spaced (subject : Expansion)
  | compared (subject : Expansion) (op : Comparator)
  | complete (c : Comparison)
  deriving DecidableEq, Repr

/-- The spot behind one more token. White space may stand in front of the comparator. -/
def ComparisonSpot.next? : ComparisonSpot → TokenKind → Option ComparisonSpot
  | subject spot, .blank => spot.expansion?.map spaced
  | subject spot, .operator op => spot.expansion?.map (compared · op)
  | subject spot, kind => (spot.next? kind).map subject
  | spaced e, .operator op => some (compared e op)
  | compared e op, .literal value => some (complete ⟨e, op, value⟩)
  | _, _ => none

/-- Where the reading of a block tag stands; `other` tells whether that word was read. -/
inductive TagSpot
  | opened
  | forRead
  | nameStart
  | otherRead
  | otherStart
  | named (other : Bool) (name : String)
  | inStart (other : Bool) (name : String)
  | inRead (other : Bool) (name : String)
  | table (other : Bool) (name : String) (spot : PathSpot)
  | whereStart (other : Bool) (name : String) (lookup : Lookup)
  | whereRead (other : Bool) (name : String) (lookup : Lookup)
  | condition (other : Bool) (name : String) (lookup : Lookup) (spot : ComparisonSpot)
  | ifRead
  | test (spot : ComparisonSpot)
  | endRead
  | endStart
  | ended (kind : BlockKind)
  deriving DecidableEq, Repr

/-- What a complete block tag does. -/
inductive TagEffect
  | opens (tag : Tag)
  | closes (kind : BlockKind)
  deriving DecidableEq, Repr

namespace TagSpot

/-- The spot behind one more token. -/
def next? : TagSpot → TokenKind → Option TagSpot
  | opened, .keyword .forWord => some forRead
  | opened, .keyword .ifWord => some ifRead
  | opened, .keyword .endWord => some endRead
  | forRead, .blank => some nameStart
  | nameStart, .keyword .otherWord => some otherRead
  | nameStart, .segment name => some (named false name)
  | otherRead, .blank => some otherStart
  | otherStart, .segment name => some (named true name)
  | named other name, .blank => some (inStart other name)
  | inStart other name, .keyword .inWord => some (inRead other name)
  | inRead other name, .blank => some (table other name (.start []))
  | table _ _ _, .dot => none
  | table other name spot, .blank => spot.lookup?.map (whereStart other name)
  | table other name spot, kind => (spot.next? kind).map (table other name)
  | whereStart other name lookup, .keyword .whereWord => some (whereRead other name lookup)
  | whereRead other name lookup, .blank => some (condition other name lookup (.subject (.start [])))
  | condition other name lookup spot, kind => (spot.next? kind).map (condition other name lookup)
  | ifRead, .blank => some (test (.subject (.start [])))
  | test spot, kind => (spot.next? kind).map test
  | endRead, .blank => some endStart
  | endStart, .keyword .forWord => some (ended .loop)
  | endStart, .keyword .ifWord => some (ended .conditional)
  | _, _ => none

/-- What the tag does if it is closed here. -/
def effect? : TagSpot → Option TagEffect
  | table other name spot => spot.lookup?.map fun lookup => .opens (.loop ⟨name, lookup, none, other⟩)
  | condition other name lookup (.complete c) => some (.opens (.loop ⟨name, lookup, some c, other⟩))
  | test (.complete c) => some (.opens (.conditional c))
  | ended kind => some (.closes kind)
  | _ => none

end TagSpot

/-! ## The whole template -/

/-- Where the reading of a template stands. A tag is `pending` until the token after it is read. -/
inductive Spot
  | content
  | expansion (spot : PathSpot)
  | tag (opened : Nat) (spot : TagSpot)
  | pending (opened : Nat) (effect : TagEffect)
  deriving DecidableEq, Repr

/-- An open block: its tag, the offset of the tag, and the nodes in front of it, the last one
first. -/
structure Frame where
  tag : Tag
  opened : Nat
  before : List Node
  deriving Repr

/-- What the tokens so far amount to; `nodes` are those of the innermost block, the last one
first. -/
structure Draft where
  frames : List Frame
  nodes : List Node
  spot : Spot
  deriving Repr

namespace Draft

/-- The draft of no tokens. -/
def empty : Draft := ⟨[], [], .content⟩

/-- Lets a pending tag take effect. An end tag must name the innermost open block. -/
def settle (d : Draft) : Except Refusal Draft :=
  match d.spot with
  | .pending opened (.opens tag) => .ok ⟨⟨tag, opened, d.nodes⟩ :: d.frames, [], .content⟩
  | .pending opened (.closes kind) =>
    match d.frames with
    | [] => .error (.fault .strayEndTag opened)
    | frame :: frames =>
      if frame.tag.kind = kind then
        .ok ⟨frames, .block frame.tag d.nodes.reverse :: frame.before, .content⟩
      else .error (.fault (.mismatchedEndTag frame.tag.kind kind) opened)
  | _ => .ok d

/-- The draft with one more token, if the token can follow. An end tag can only stand where a block
is open. -/
def take? (d : Draft) (t : Token) : Option Draft :=
  match d.spot, t.kind with
  | .content, .text value => some { d with nodes := .text value :: d.nodes }
  | .content, .openExpansion => some { d with spot := .expansion (.start []) }
  | .content, .openTag => some { d with spot := .tag t.position .opened }
  | .expansion spot, .closeExpansion =>
    spot.expansion?.map fun e => { d with nodes := .expansion e :: d.nodes, spot := .content }
  | .expansion spot, kind => (spot.next? kind).map fun spot => { d with spot := .expansion spot }
  | .tag opened spot, .closeTag =>
    spot.effect?.map fun effect => { d with spot := .pending opened effect }
  | .tag opened spot, kind =>
    if kind = .keyword .endWord ∧ d.frames = [] then none
    else (spot.next? kind).map fun spot => { d with spot := .tag opened spot }
  | _, _ => none

/-- Whether the last token was an at sign, so that an index must follow. -/
def awaitsIndex (d : Draft) : Bool :=
  match d.spot with
  | .expansion (.indexing _ _)
  | .tag _ (.table _ _ (.indexing _ _))
  | .tag _ (.condition _ _ _ (.subject (.indexing _ _)))
  | .tag _ (.test (.subject (.indexing _ _))) => true
  | _ => false

/-- What is wrong with a token that cannot follow. -/
def complaint (d : Draft) (t : Token) : Fault :=
  match d.spot, t.kind with
  | .tag _ .opened, .segment name => .unknownTag name
  | .tag _ .opened, .keyword .endWord => .strayEndTag
  | _, _ => if d.awaitsIndex then .missingIndex else .unexpectedToken t

/-- Reads one more token. -/
def push (d : Draft) (t : Token) : Except Refusal Draft := do
  let d ← d.settle
  match d.take? t with
  | some d => return d
  | none => throw (.fault (d.complaint t) t.position)

/-- Why the template `source` cannot end with blocks left open. -/
def unclosed (source : String) : List Frame → Fault
  | [] => .unexpectedEnd
  | frame :: _ => .unclosedBlock frame.tag.kind (Text.placeOf source frame.opened)

/-- The nodes of the template `source` when it ends here. A tag that opens a block at the very end
does not yet count as open. -/
def finish (source : String) (d : Draft) : Except Refusal (List Node) :=
  let fail (fault : Fault) := .error (.fault fault source.length)
  match d.spot with
  | .expansion _ => fail .unterminatedExpansion
  | .tag _ _ => fail .unterminatedTag
  | .pending _ (.opens _) => fail (unclosed source d.frames)
  | _ => do
    let d ← d.settle
    if d.frames = [] then return d.nodes.reverse
    else fail (unclosed source d.frames)

end Draft

end MailMerge.Markup
