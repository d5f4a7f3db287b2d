/-
What can be wrong with a template, and how it is reported.
-/
import MailMerge.Markup.Token
import MailMerge.Text.Lines

namespace MailMerge.Markup

open MailMerge.Text

/-- The two kinds of blocks. -/
inductive BlockKind
  | loop
  | conditional
  deriving DecidableEq, Repr

/-- The keyword of a kind of block. -/
def BlockKind.keyword : BlockKind → Keyword
  | loop => .forWord
  | conditional => .ifWord

/-- The keyword of a kind of block, as it is spelled. -/
def BlockKind.word (k : BlockKind) : String :=
  k.keyword.word

/-- What is wrong at some place of a template. -/
inductive Fault
  | unfinishedEscape
  | invalidEscape (c : Char)
  | unterminatedQuote
  | strayInExpansion (c : Char)
  | strayInTag (c : Char)
  | expectedLiteral (c : Char)
  | invalidNumber (spelling : String)
  | unterminatedExpansion
  | unterminatedTag
  | unclosedBlock (kind : BlockKind) (opened : Place)
  | unexpectedEnd
  | unknownTag (name : String)
  | strayEndTag
  | mismatchedEndTag (expected found : BlockKind)
  | missingIndex
  | unexpectedToken (t : Token)
  deriving DecidableEq, Repr

/-- The closing bracket of an interpolation. -/
def expansionEnd : String := "\x7d\x7d"

/-- The closing bracket of a block tag. -/
def tagEnd : String := "@\x7d"

/-- The wording of a fault. -/
def Fault.reason : Fault → String
  | unfinishedEscape => "Unfinished escape sequence at end of template"
  | invalidEscape c => s!"Invalid escape sequence '\\" ++ c.toString ++ "'"
  | unterminatedQuote => "Unterminated quoted segment"
  | strayInExpansion c => s!"Unexpected '{c}' in interpolation (expected '{expansionEnd}')"
  | strayInTag c => s!"Unexpected '{c}' in block tag (expected '{tagEnd}')"
  | expectedLiteral c =>
    s!"Expected a quoted string or a number after comparison operator, got '{c}'"
  | invalidNumber spelling => s!"Invalid number literal '{spelling}'"
  | unterminatedExpansion => s!"Unterminated interpolation (expected '{expansionEnd}')"
  | unterminatedTag => s!"Unterminated block tag (expected '{tagEnd}')"
  | unclosedBlock kind opened =>
    "Missing '\x7b@ end " ++ kind.word ++ s!" {tagEnd}' for block opened at line {opened.line}, " ++
      s!"column {opened.column}"
  | unexpectedEnd => "Unexpected end of template"
  | unknownTag name => s!"Unknown block tag '{name}'"
  | strayEndTag => "Unexpected end tag with no open block"
  | mismatchedEndTag expected found =>
    s!"Mismatched end tag: expected 'end {expected.word}' but found 'end {found.word}'"
  | missingIndex => "An explicit index must follow '@' (escape a literal '@' as '\\@')"
  | unexpectedToken t => s!"Syntax error at {t.described}"

/-- Why a template is refused: a fault at an offset, or a number that is too long to be read. -/
inductive Refusal
  | fault (f : Fault) (position : Nat)
  | value (e : ValueFault)
  deriving DecidableEq, Repr

/-- A fault as it is reported, at an offset and at a line and column. -/
structure SyntaxError where
  fault : Fault
  position : Nat
  place : Place
  deriving DecidableEq, Repr

namespace SyntaxError

/-- The wording of an error without its place. -/
def reason (e : SyntaxError) : String :=
  e.fault.reason

/-- The wording of an error, with its place in lines and in the whole template. -/
def message (e : SyntaxError) : String :=
  s!"{e.reason} at line {e.place.line}, column {e.place.column} (position {e.position})"

end SyntaxError

/-- Why a template is refused, as it is reported. -/
inductive ParseError
  | syntaxError (e : SyntaxError)
  | valueError (e : ValueFault)
  deriving DecidableEq, Repr

/-- The report of a refusal of the template `source`. -/
def Refusal.report (source : String) : Refusal → ParseError
  | fault f position => .syntaxError ⟨f, position, placeOf source position⟩
  | value e => .valueError e

/-- The wording of a refusal. -/
def ParseError.message : ParseError → String
  | syntaxError e => e.message
  | valueError e => e.message

end MailMerge.Markup
