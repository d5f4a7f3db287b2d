/-
A template that is open in an editor. Every change of its text is diagnosed; hovering and completing
go by the lines of the text.
-/
import MailMerge.Editor.Completion
import MailMerge.Editor.Diagnostic
import MailMerge.Text.Lines

namespace MailMerge.Editor

open MailMerge.Markup MailMerge.Text

/-- An open template, with the reader that diagnoses it. -/
structure Document where
  text : String
  reader : Reader

namespace Document

/-- A document of which no text is known yet. -/
def empty : Document := ⟨"", .new⟩

/-- The lines of the text, with their ends. -/
def lines (d : Document) : List (List Char) :=
  cutLines .boundary d.text.toList

/-- Takes the text of a document and diagnoses it. -/
def update (d : Document) (text : String) : Except ValueFault (List Diagnostic) × Document :=
  let (found, reader) := diagnose d.reader text
  (found, ⟨text, reader⟩)

/-- What is shown about the word at a position. -/
def hover (d : Document) (line character : Nat) : Option String :=
  d.lines[line]?.bind fun chars => hoverAt chars character

/-- What is offered at a position. -/
def complete (d : Document) (line character : Nat) : List Item :=
  completions d.text (((d.lines[line]?).getD []).take character)

end Document

end MailMerge.Editor
