/-
Log events as lines: for people, or as JSON objects in which every character that is not printable
ASCII is escaped by its UTF-16 units.
-/
import MailMerge.Log

namespace MailMerge.Log

open MailMerge.Text

/-! ## JSON -/

/-- The escape of a UTF-16 unit. -/
def unitEscape (n : Nat) : List Char :=
  '\\' :: 'u' :: hexDigits 4 n

/-- A character in a JSON text; beyond the first plane it takes two units. -/
def jsonChar (c : Char) : List Char :=
  if c = '"' ∨ c = '\\' then ['\\', c]
  else if c = '\n' then ['\\', 'n']
  else if c = '\r' then ['\\', 'r']
  else if c = '\t' then ['\\', 't']
  else if ' ' ≤ c ∧ c ≤ '~' then [c]
  else if c.toNat < 0x10000 then unitEscape c.toNat
  else
    let n := c.toNat - 0x10000
    unitEscape (0xD800 + n / 0x400) ++ unitEscape (0xDC00 + n % 0x400)

/-- A text in double quotes. -/
def jsonText (s : String) : String :=
  "\"" ++ String.ofList (s.toList.flatMap jsonChar) ++ "\""

/-- Items in square brackets, with commas between them. -/
def jsonList (items : List String) : String :=
  "[" ++ String.intercalate ", " items ++ "]"

/-- Members with their names, in braces. -/
def jsonObject (members : List (String × String)) : String :=
  "\x7b" ++ String.intercalate ", " (members.map fun (name, value) => jsonText name ++ ": " ++ value) ++
    "\x7d"

/-- A value as a line shows it when lines are objects. -/
def Value.json : Value → String
  | number n => toString n
  | text s => jsonText s
  | texts ss => jsonList (ss.map jsonText)
  | tables fields => jsonObject (fields.map fun (name, ss) => (name, jsonList (ss.map jsonText)))

namespace Event

/-- An event as a JSON object. -/
def json (e : Event) : String :=
  jsonObject (e.values.map (fun (name, value) => (name, value.json)) ++
    [("event", jsonText e.name), ("level", jsonText e.levelName)])

/-! ## Plain lines -/

/-- An event for people: its level, what it is called, and its values. -/
def line (e : Event) : String :=
  String.intercalate " " (s!"[{e.levelName}]" :: e.name ::
    e.values.map fun (name, value) => name ++ "=" ++ value.json)

end Event

end MailMerge.Log
