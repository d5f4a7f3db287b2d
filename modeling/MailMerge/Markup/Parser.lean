/-
Parsers that are kept for one template after the other. Beside its draft a parser writes down the
last two tokens and the blocks that are open, and it words its complaints from these notes and from
the mode in which the scanner was left. None of this is cleared when a template turns out to be
wrong; it is set back when the next one is taken up.
-/
import MailMerge.Markup.Reader

namespace MailMerge.Markup

/-- A parser, with all that it keeps from one template to the next. -/
structure Parser where
  source : String
  cursor : Cursor
  previous : Option Token
  current : Option Token
  openBlocks : List (BlockKind × Nat)
  draft : Draft

namespace Parser

/-- A parser that has read nothing. -/
def new : Parser :=
  ⟨"", .start "", none, none, [], .empty⟩

/-- Takes up a template to cut it into tokens. The open blocks and the draft stay as they are. -/
def load (p : Parser) (source : String) : Parser :=
  { p with source, cursor := .start source, previous := none, current := none }

/-- Writes down the token that the scanner found, or that it found none. -/
def note (p : Parser) (t : Option Token) (cursor : Cursor) : Parser :=
  { p with cursor, previous := p.current, current := t }

/-! ## One token -/

/-- Lets a pending tag take effect. An end tag strikes out the block that was written down last, and
then must name the innermost open block of the draft. -/
def settle (p : Parser) : Except Refusal Unit × Parser :=
  match p.draft.spot with
  | .pending opened (.opens tag) =>
    (.ok (), { p with
      openBlocks := (tag.kind, opened) :: p.openBlocks
      draft := ⟨⟨tag, opened, p.draft.nodes⟩ :: p.draft.frames, [], .content⟩ })
  | .pending opened (.closes kind) =>
    match p.openBlocks, p.draft.frames with
    | (expected, _) :: openBlocks, frame :: frames =>
      if frame.tag.kind = kind then
        (.ok (), { p with
          openBlocks
          draft := ⟨frames, .block frame.tag p.draft.nodes.reverse :: frame.before, .content⟩ })
      else (.error (.fault (.mismatchedEndTag expected kind) opened), { p with openBlocks })
    | _, _ => (.error (.fault .strayEndTag opened), p)
  | _ => (.ok (), p)

/-- What is wrong with a token that cannot follow, told from the token in front of it. -/
def complaint (p : Parser) (t : Token) : Fault :=
  match p.previous.map Token.kind, t.kind with
  | some .openTag, .segment name => .unknownTag name
  | some .openTag, .keyword .endWord =>
    if p.openBlocks = [] then .strayEndTag else .unexpectedToken t
  | some .atSign, _ => .missingIndex
  | _, _ => .unexpectedToken t

/-- Reads one more token, which was written down before. -/
def push (p : Parser) (t : Token) : Except Refusal Unit × Parser :=
  match p.settle with
  | (.error e, p) => (.error e, p)
  | (.ok (), p) =>
    match p.draft.take? t with
    | some draft => (.ok (), { p with draft })
    | none => (.error (.fault (p.complaint t) t.position), p)

/-- A tag that takes effect changes the open blocks and the draft, and nothing else. -/
theorem settle_keeps (p : Parser) :
    ∃ openBlocks draft, p.settle.2 = { p with openBlocks, draft } := by
  unfold settle
  split
  · exact ⟨_, _, rfl⟩
  · split
    · split <;> exact ⟨_, _, rfl⟩
    · exact ⟨_, _, rfl⟩
  · exact ⟨_, _, rfl⟩

theorem push_keeps (p : Parser) (t : Token) :
    ∃ openBlocks draft, (p.push t).2 = { p with openBlocks, draft } := by
  obtain ⟨openBlocks, draft, hsettle⟩ := p.settle_keeps
  unfold push
  split
  · rename_i h
    rw [h] at hsettle
    exact ⟨openBlocks, draft, hsettle⟩
  · rename_i h
    rw [h] at hsettle
    split
    · rename_i next _
      exact ⟨openBlocks, next, congrArg ({ · with draft := next }) hsettle⟩
    · exact ⟨openBlocks, draft, hsettle⟩

/-! ## The end of a template -/

/-- Why the template cannot end here, told from the mode and from the blocks that were written
down. -/
def endFault (p : Parser) : Fault :=
  match p.cursor.mode, p.openBlocks with
  | .expansion, _ => .unterminatedExpansion
  | .tag, _ | .literal, _ => .unterminatedTag
  | .text, [] => .unexpectedEnd
  | .text, (kind, opened) :: _ => .unclosedBlock kind (Text.placeOf p.source opened)

/-- Refuses a template that ends too early. -/
def refuseEnd (p : Parser) : Except Refusal (List Node) × Parser :=
  (.error (.fault p.endFault p.source.length), p)

/-- The nodes of the template when it ends between brackets. -/
def finishContent (p : Parser) : Except Refusal (List Node) × Parser :=
  match p.settle with
  | (.error e, p) => (.error e, p)
  | (.ok (), p) => if p.draft.frames = [] then (.ok p.draft.nodes.reverse, p) else p.refuseEnd

/-- The nodes of the template when it ends here. -/
def finish (p : Parser) : Except Refusal (List Node) × Parser :=
  match p.draft.spot with
  | .expansion _ | .tag _ _ | .pending _ (.opens _) => p.refuseEnd
  | .content | .pending _ (.closes _) => p.finishContent

/-! ## Templates -/

/-- Reads on to the end of the template. -/
def readNodes (p : Parser) : Except Refusal (List Node) × Parser :=
  match _h : p.cursor.step with
  | .token t cursor =>
    match _hpush : (p.note (some t) cursor).push t with
    | (.ok (), next) => readNodes next
    | (.error e, next) => (.error e, next)
  | .finished cursor => (p.note none cursor).finish
  | .fault f cursor => (.error (f.placed cursor.position), { p with cursor })
termination_by p.cursor.rest.length
decreasing_by
  obtain ⟨openBlocks, draft, hkeeps⟩ := (p.note (some t) cursor).push_keeps t
  rw [_hpush] at hkeeps
  rw [show next = _ from hkeeps]
  exact Cursor.step_length_lt _h

/-- Reads the structure of a template. -/
def parse (p : Parser) (source : String) : Except ParseError (List Node) × Parser :=
  let (result, p) := { p.load source with openBlocks := [], draft := .empty }.readNodes
  (result.mapError (Refusal.report p.source), p)

/-- The tokens up to the end of the template. -/
def readTokens (p : Parser) : Except Refusal (List Token) × Parser :=
  match _h : p.cursor.step with
  | .token t cursor =>
    let (result, p) := readTokens (p.note (some t) cursor)
    (result.map (t :: ·), p)
  | .finished cursor => (.ok [], p.note none cursor)
  | .fault f cursor => (.error (f.placed cursor.position), { p with cursor })
termination_by p.cursor.rest.length
decreasing_by exact Cursor.step_length_lt ‹_›

/-- The tokens of a template. -/
def tokenize (p : Parser) (source : String) : Except ParseError (List Token) × Parser :=
  let (result, p) := (p.load source).readTokens
  (result.mapError (Refusal.report p.source), p)

end Parser

/-! ## Requests -/

/-- What a parser is asked for. -/
inductive Request
  | parse (source : String)
  | tokenize (source : String)
  deriving DecidableEq, Repr

/-- What it replies. -/
inductive Reply
  | nodes (result : Except ParseError (List Node))
  | tokens (result : Except ParseError (List Token))

/-- The reply of a parser, and the parser as it is then. -/
def Parser.answer (p : Parser) : Request → Reply × Parser
  | .parse source => (p.parse source).map .nodes id
  | .tokenize source => (p.tokenize source).map .tokens id

/-- The reply of a reader, and the reader as it is then. -/
def Reader.answer (r : Reader) : Request → Reply × Reader
  | .parse source => (r.parse source).map .nodes id
  | .tokenize source => (r.tokenize source).map .tokens id

/-- The reply to a request that is made by itself. -/
def Request.reply : Request → Reply
  | .parse source => .nodes (Markup.parse source)
  | .tokenize source => .tokens (Markup.tokenize source)

/-- The replies to requests that are made one after the other. -/
def inTurn {σ : Type} (answer : σ → Request → Reply × σ) (s : σ) : List Request → List Reply × σ
  | [] => ([], s)
  | q :: requests =>
    let first := answer s q
    let rest := inTurn answer first.2 requests
    (first.1 :: rest.1, rest.2)

end MailMerge.Markup
