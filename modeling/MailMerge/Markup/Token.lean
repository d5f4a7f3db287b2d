/-
The tokens of a template: plain text, the brackets of interpolations and of block tags, and what
stands between them.
-/
import MailMerge.Literal

namespace MailMerge.Markup

/-- The words with a meaning of their own in block tags. -/
inductive Keyword
  | forWord
  | otherWord
  | inWord
  | whereWord
  | ifWord
  | endWord
  deriving DecidableEq, Repr

namespace Keyword

/-- How a keyword is spelled. -/
def word : Keyword → String
  | forWord => "for"
  | otherWord => "other"
  | inWord => "in"
  | whereWord => "where"
  | ifWord => "if"
  | endWord => "end"

/-- Every keyword. -/
def all : List Keyword := [forWord, otherWord, inWord, whereWord, ifWord, endWord]

/-- The keyword that is spelled so. -/
def ofWord? (word : String) : Option Keyword :=
  all.find? (·.word = word)

end Keyword

/-- What a token stands for; texts and names have their escapes resolved. -/
inductive TokenKind
  | text (value : String)
  | openExpansion
  | closeExpansion
  | openTag
  | closeTag
  | segment (name : String)
  | dot
  | atSign
  | blank
  | keyword (k : Keyword)
  | operator (op : Comparator)
  | literal (value : Literal)
  deriving DecidableEq, Repr

/-- A token, with the offset at which it starts and the characters that it covers. -/
structure Token where
  kind : TokenKind
  position : Nat
  spelling : String
  deriving DecidableEq, Repr

/-- The value of a token: a text or name with its escapes resolved, and otherwise how it is
spelled. -/
def Token.value (t : Token) : String :=
  match t.kind with
  | .text value => value
  | .segment name => name
  | .literal value => value.spelling
  | _ => t.spelling

/-- A token as messages name it. -/
def Token.described (t : Token) : String :=
  match t.kind with
  | .blank => "whitespace"
  | .keyword _ => s!"keyword '{t.value}'"
  | _ => s!"'{t.value}'"

end MailMerge.Markup
