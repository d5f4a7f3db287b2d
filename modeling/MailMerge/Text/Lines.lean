/-
Cutting a text into lines, and places in it. A rule says after which characters a line ends; every
line keeps its end, so the lines of a text are always that text cut up. The place of an offset is its
line and column, both counted from one, where lines end with line feeds.
-/
namespace MailMerge.Text

/-! ## Lines -/

/-- Tells from a character and the one that follows it whether a line ends between them. -/
abbrev LineRule := Char → Option Char → Bool

namespace LineRule

/-- Lines end after line feeds only. -/
def lineFeed : LineRule := fun c _ => c = '\n'

/-- Lines end after a line feed, a carriage return, or the two in this order. -/
def universal : LineRule := fun c next => c = '\n' || (c = '\r' && next ≠ some '\n')

/-- Lines end after any line boundary, form feeds and separators among them. -/
def boundary : LineRule := fun c next =>
  if c = '\r' then next ≠ some '\n'
  else c ∈ ['\n', '\x0b', '\x0c', '\x1c', '\x1d', '\x1e', '\u0085', '\u2028', '\u2029']

end LineRule

/-- Puts a character in front of the lines of what follows it. -/
def consLine (rule : LineRule) (c : Char) (lines : List (List Char)) : List (List Char) :=
  match lines with
  | [] => [[c]]
  | line :: rest => if rule c line.head? then [c] :: line :: rest else (c :: line) :: rest

/-- The lines of a text, each with its end; the last one may have none. -/
def cutLines (rule : LineRule) (cs : List Char) : List (List Char) :=
  cs.foldr (consLine rule) []

theorem flatten_consLine (rule : LineRule) (c : Char) (lines : List (List Char)) :
    (consLine rule c lines).flatten = c :: lines.flatten := by
  unfold consLine
  split
  · rfl
  · split <;> simp

/-- The lines of a text put together are the text. -/
theorem flatten_cutLines (rule : LineRule) (cs : List Char) : (cutLines rule cs).flatten = cs := by
  induction cs with
  | nil => rfl
  | cons c cs ih => rw [cutLines, List.foldr_cons, flatten_consLine, ← cutLines, ih]

/-- A text with every line end written as a line feed. -/
def unifyLineEnds : List Char → List Char
  | [] => []
  | '\r' :: '\n' :: rest => '\n' :: unifyLineEnds rest
  | c :: rest => (if c = '\r' then '\n' else c) :: unifyLineEnds rest

/-! ## Places -/

/-- A line and a column, both counted from one. -/
structure Place where
  line : Nat
  column : Nat
  deriving DecidableEq, Repr

/-- The offset at which the line that holds the end of `before` starts. -/
def lineStart (before : List Char) : Nat :=
  before.length - (before.reverse.takeWhile (· ≠ '\n')).length

/-- The place of an offset. The line is told by the line feeds before the offset; an offset past
the end counts on from the last line. -/
def placeOf (text : String) (offset : Nat) : Place :=
  let before := text.toList.take offset
  { line := before.count '\n' + 1, column := offset - lineStart before + 1 }

end MailMerge.Text
