/-
Words under the cursor, and what an editor shows about them.
-/
import MailMerge.Data.Record
import MailMerge.Text.WordCharacter

namespace MailMerge.Editor

/-- Whether a character belongs to a word: letters, numbers, underscores, and the dollar sign that
special fields start with. -/
def isWordCharacter (c : Char) : Bool :=
  Text.isAlphanumeric c || c = '_' || c = '$'

/-- The longest word around a character; empty where no character of a word stands. -/
def wordAt (line : List Char) (character : Int) : List Char :=
  if 0 ≤ character then
    let before := line.take character.toNat
    let after := line.drop character.toNat
    match after.takeWhile isWordCharacter with
    | [] => []
    | word => (before.reverse.takeWhile isWordCharacter).reverse ++ word
  else []

/-- Whether a character of a word stands at a place in a line. -/
def inWord (cs : List Char) (n : Nat) : Bool :=
  cs[n]?.any isWordCharacter

/-- Where a walk to the left ends that goes on as long as a character of a word stands in front. -/
def wordStart (cs : List Char) : Nat → Nat
  | 0 => 0
  | n + 1 => if inWord cs n then wordStart cs n else n + 1

/-- Where a walk to the right ends that goes on as long as it stands at a character of a word. -/
def wordStop (cs : List Char) (n : Nat) : Nat :=
  if n < cs.length ∧ inWord cs n then wordStop cs (n + 1) else n
termination_by cs.length - n

/-- The word around a character, cut out between the ends of the two walks from it. -/
def walkedWordAt (cs : List Char) (character : Int) : List Char :=
  if character < 0 ∨ cs.length ≤ character then []
  else if inWord cs character.toNat then
    cs.extract (wordStart cs character.toNat) (wordStop cs character.toNat)
  else []

/-- The keywords, with what they do. -/
def keywordHelp : List (String × String) :=
  [("for", "Repeat the body once per record of a table: \x60\x7b@ for name in table @\x7d\x60"),
    ("other", "Skip the record the current row points at: " ++
      "\x60\x7b@ for other name in table @\x7d\x60"),
    ("in", "Names the table a loop iterates"),
    ("where", "Keep only records for which a comparison holds"),
    ("if", "Render the body only when a comparison holds: \x60\x7b@ if field = \"x\" @\x7d\x60"),
    ("end", "Close the innermost block: \x60\x7b@ end for @\x7d\x60 or \x60\x7b@ end if @\x7d\x60")]

/-- The fields with a meaning of their own. -/
def fieldHelp : List (String × String) :=
  [(Data.idField, "Record identity; lookups match a key against this field"),
    (Data.outfileField, "Output file name for this vars row")]

/-- What is shown about a word. -/
def hoverText (word : String) : Option String :=
  (Data.valueOf? word (keywordHelp ++ fieldHelp)).map fun help => "**" ++ word ++ "**: " ++ help

/-- What is shown about the word at a character. -/
def hoverAt (line : List Char) (character : Int) : Option String :=
  match wordAt line character with
  | [] => none
  | word => hoverText (String.ofList word)

end MailMerge.Editor
