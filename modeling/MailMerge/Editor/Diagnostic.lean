/-
What an editor marks in a template: the place of the fault, as a line and a character counted from
zero.
-/
import MailMerge.Markup.Reader

namespace MailMerge.Editor

open MailMerge.Markup

/-- A line and a character in it, both counted from zero. -/
structure Position where
  line : Nat
  character : Nat
  deriving DecidableEq, Repr

/-- The position that is `offset` characters behind `p`, which stands in front of the text. -/
def Position.behind (p : Position) : List Char → Nat → Position
  | _, 0 => p
  | [], n => ⟨p.line, p.character + n⟩
  | '\n' :: rest, n + 1 => behind ⟨p.line + 1, 0⟩ rest n
  | _ :: rest, n + 1 => behind ⟨p.line, p.character + 1⟩ rest n

/-- The position of an offset. An offset past the end counts on in the last line. -/
def positionOf (text : String) (offset : Nat) : Position :=
  Position.behind ⟨0, 0⟩ text.toList offset

/-- A mark under one character, with a message. -/
structure Diagnostic where
  start : Position
  stop : Position
  message : String
  deriving DecidableEq, Repr

namespace Diagnostic

/-- How an editor shows a diagnostic: as an error. -/
def severity : Nat := 1

/-- Who a diagnostic comes from. -/
def source : String := "popvars"

/-- The mark of a fault in a text. -/
def ofError (text : String) (e : SyntaxError) : Diagnostic :=
  let start := positionOf text e.position
  ⟨start, ⟨start.line, start.character + 1⟩, e.reason⟩

end Diagnostic

/-- The marks in a template; a number that is too long to be read is no fault with a place. -/
def diagnose (r : Reader) (text : String) : Except ValueFault (List Diagnostic) × Reader :=
  match r.parse text with
  | (.ok _, r) => (.ok [], r)
  | (.error (.syntaxError e), r) => (.ok [.ofError text e], r)
  | (.error (.valueError e), r) => (.error e, r)

end MailMerge.Editor
