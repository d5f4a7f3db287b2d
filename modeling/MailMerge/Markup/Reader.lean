/-
Reading templates. A reader keeps the scanner's place and the draft between tokens, and also from
one template to the next; loading a template sets both back to their start. A fault of the scanner
wins over a fault of a later token, and a token that cannot follow wins over everything behind it.
-/
import MailMerge.Markup.Scan
import MailMerge.Markup.Draft

namespace MailMerge.Markup

/-- A reader of templates, with all that changes while it reads. -/
structure Reader where
  source : String
  cursor : Cursor
  draft : Draft

namespace Reader

/-- A reader that has read nothing. -/
def new : Reader :=
  ⟨"", .start "", .empty⟩

/-- Takes up a template to cut it into tokens. -/
def load (r : Reader) (source : String) : Reader :=
  { r with source, cursor := .start source }

/-! ## Structure -/

/-- Reads on to the end of the template. -/
def readNodes (r : Reader) : Except Refusal (List Node) × Reader :=
  match _h : r.cursor.step with
  | .token t cursor =>
    match r.draft.push t with
    | .ok draft => readNodes { r with cursor, draft }
    | .error e => (.error e, { r with cursor })
  | .finished cursor => (r.draft.finish r.source, { r with cursor })
  | .fault f cursor => (.error (f.placed cursor.position), { r with cursor })
termination_by r.cursor.rest.length
decreasing_by exact Cursor.step_length_lt ‹_›

/-- Reads the structure of a template. -/
def parse (r : Reader) (source : String) : Except ParseError (List Node) × Reader :=
  let (result, r) := { r.load source with draft := .empty }.readNodes
  (result.mapError (Refusal.report source), r)

/-! ## Tokens -/

/-- The tokens up to the end of the template or the first fault, the fault, and the reader there. -/
def readTokens (r : Reader) : List Token × Option Refusal × Reader :=
  match _h : r.cursor.step with
  | .token t cursor =>
    let (tokens, fault, r) := readTokens { r with cursor }
    (t :: tokens, fault, r)
  | .finished cursor => ([], none, { r with cursor })
  | .fault f cursor => ([], some (f.placed cursor.position), { r with cursor })
termination_by r.cursor.rest.length
decreasing_by exact Cursor.step_length_lt ‹_›

/-- The tokens of a template up to its end or to the first fault. -/
def scan (r : Reader) (source : String) : List Token × Option ParseError × Reader :=
  let (tokens, fault, r) := (r.load source).readTokens
  (tokens, fault.map (Refusal.report source), r)

/-- The tokens of a template. -/
def tokenize (r : Reader) (source : String) : Except ParseError (List Token) × Reader :=
  match r.scan source with
  | (tokens, none, r) => (.ok tokens, r)
  | (_, some e, r) => (.error e, r)

end Reader

/-- The nodes of a template. -/
def parse (source : String) : Except ParseError (List Node) :=
  (Reader.new.parse source).1

/-- The tokens of a template. -/
def tokenize (source : String) : Except ParseError (List Token) :=
  (Reader.new.tokenize source).1

end MailMerge.Markup
