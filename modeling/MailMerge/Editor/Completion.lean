/-
What an editor offers behind an opening bracket: tags behind the bracket of a block tag, loop names
and special fields behind the bracket of an interpolation.
-/
import MailMerge.Editor.Word
import MailMerge.Text.CharacterClass

namespace MailMerge.Editor

open MailMerge.Text

/-! ## Loop names -/

/-- What follows a word at the start of a text. -/
def after? (word : List Char) (cs : List Char) : Option (List Char) :=
  if word <+: cs then some (cs.drop word.length) else none

/-- What follows the white space at the start of a text; some must be there. -/
def afterBlanks? (cs : List Char) : Option (List Char) :=
  if leadingBlanks cs = [] then none else some (dropBlanks cs)

/-- Whether a character can stand in a loop name without backticks. -/
def isNameCharacter (c : Char) : Bool :=
  !isBlank c && c ∉ ['\x60', '{', '}', '@', '.']

/-- The loop name at the start of a text, with its backticks if it has them, and what follows it. -/
def spanName (cs : List Char) : Option (List Char × List Char) :=
  match cs with
  | [] => none
  | c :: rest =>
    if c = '\x60' then
      let inside := rest.takeWhile (· ≠ '\x60')
      match rest.drop inside.length with
      | [] => none
      | quote :: rest' => if inside = [] then none else some (c :: inside ++ [quote], rest')
    else
      match cs.takeWhile isNameCharacter with
      | [] => none
      | name => some (name, cs.dropWhile isNameCharacter)

/-- Whether a word ends in front of a text. -/
def atWordEnd (cs : List Char) : Bool :=
  cs.head?.all fun c => !(isAlphanumeric c || c = '_')

/-- The loop name at the start of a text that goes on with `in`, and what follows that word. -/
def nameBeforeIn? (cs : List Char) : Option (List Char × List Char) :=
  (spanName cs).bind fun (name, rest) =>
    ((afterBlanks? rest).bind (after? ['i', 'n'])).bind fun rest =>
      if atWordEnd rest then some (name, rest) else none

/-- What follows the words `for` and white space in a block tag at the start of a text. -/
def afterFor? (cs : List Char) : Option (List Char) :=
  ((after? ['{', '@'] cs).bind fun rest => after? ['f', 'o', 'r'] (dropBlanks rest)).bind afterBlanks?

/-- The name of the loop whose tag starts a text, and what follows the word `in`. After `for` the
word `other` is passed over, unless it is the name. -/
def loopName? (cs : List Char) : Option (List Char × List Char) :=
  (afterFor? cs).bind fun rest =>
    match ((after? ['o', 't', 'h', 'e', 'r'] rest).bind afterBlanks?).bind nameBeforeIn? with
    | some found => some found
    | none => nameBeforeIn? rest

theorem length_after?_le {word cs rest : List Char} (h : after? word cs = some rest) :
    rest.length + word.length = cs.length := by
  unfold after? at h
  split at h
  · rename_i hword
    cases h
    have := hword.length_le
    simp only [List.length_drop]
    omega
  · simp at h

theorem length_dropBlanks_le (cs : List Char) : (dropBlanks cs).length ≤ cs.length := by
  have := congrArg List.length (leadingBlanks_append_dropBlanks cs)
  rw [List.length_append] at this
  omega

theorem length_afterBlanks?_le {cs rest : List Char} (h : afterBlanks? cs = some rest) :
    rest.length ≤ cs.length := by
  unfold afterBlanks? at h
  split at h
  · simp at h
  · cases h
    exact length_dropBlanks_le cs

theorem length_spanName_le {cs name rest : List Char} (h : spanName cs = some (name, rest)) :
    rest.length ≤ cs.length := by
  unfold spanName at h
  split at h
  · simp at h
  · rename_i c cs
    split at h
    · simp only at h
      split at h
      · simp at h
      · rename_i quote rest' hdrop
        split at h
        · simp at h
        · have := congrArg List.length hdrop
          simp only [Option.some.injEq, Prod.mk.injEq] at h
          simp only [← h.2, List.length_drop, List.length_cons] at this ⊢
          omega
    · split at h
      · simp at h
      · have := congrArg List.length (List.takeWhile_append_dropWhile (p := isNameCharacter) (l := c :: cs))
        simp only [Option.some.injEq, Prod.mk.injEq] at h
        rw [← h.2]
        rw [List.length_append] at this
        omega

theorem length_nameBeforeIn?_le {cs name rest : List Char}
    (h : nameBeforeIn? cs = some (name, rest)) : rest.length ≤ cs.length := by
  obtain ⟨⟨name₁, rest₁⟩, h₁, h⟩ := Option.bind_eq_some_iff.1 h
  obtain ⟨rest₂, h₂, h⟩ := Option.bind_eq_some_iff.1 h
  obtain ⟨rest₃, h₃, h₂⟩ := Option.bind_eq_some_iff.1 h₂
  have := length_spanName_le h₁
  have := length_afterBlanks?_le h₃
  have := length_after?_le h₂
  split at h
  · cases h
    omega
  · simp at h

theorem length_afterFor?_lt {cs rest : List Char} (h : afterFor? cs = some rest) :
    rest.length < cs.length := by
  obtain ⟨rest₂, h₂, h⟩ := Option.bind_eq_some_iff.1 h
  obtain ⟨rest₁, h₁, h₂⟩ := Option.bind_eq_some_iff.1 h₂
  have := length_after?_le h₁
  have := length_after?_le h₂
  have := length_dropBlanks_le rest₁
  have := length_afterBlanks?_le h
  simp only [List.length_cons, List.length_nil] at *
  omega

/-- A loop tag leaves a shorter rest. -/
theorem length_loopName?_lt {cs name rest : List Char} (h : loopName? cs = some (name, rest)) :
    rest.length < cs.length := by
  obtain ⟨rest₁, h₁, h⟩ := Option.bind_eq_some_iff.1 h
  have := length_afterFor?_lt h₁
  split at h
  · rename_i found hfound
    cases h
    obtain ⟨rest₃, h₃, h⟩ := Option.bind_eq_some_iff.1 hfound
    obtain ⟨rest₂, h₂, h₃⟩ := Option.bind_eq_some_iff.1 h₃
    have := length_after?_le h₂
    have := length_afterBlanks?_le h₃
    have := length_nameBeforeIn?_le h
    omega
  · have := length_nameBeforeIn?_le h
    omega

/-- The names of the loop tags in a text, in order. -/
def loopNamesIn (cs : List Char) : List (List Char) :=
  match cs with
  | [] => []
  | c :: rest =>
    match _h : loopName? (c :: rest) with
    | some (name, more) => name :: loopNamesIn more
    | none => loopNamesIn rest
termination_by cs.length
decreasing_by
  · exact length_loopName?_lt ‹_›
  · simp

/-- The names of the loops in a template, in order of first appearance. -/
def loopNames (source : String) : List String :=
  ((loopNamesIn source.toList).map String.ofList).eraseDups

/-! ## Items -/

/-- What an item stands for. -/
inductive ItemKind
  | snippet
  | variable
  | field
  deriving DecidableEq, Repr

/-- Something that is offered. A snippet has a text to insert, with places to fill in. -/
structure Item where
  label : String
  kind : ItemKind
  detail : String
  insert : Option String
  deriving DecidableEq, Repr

/-- The block tags that are offered, each with its snippet and a description. -/
def tagSnippets : List (String × String × String) :=
  [("for", "for $\x7b1:name\x7d in $\x7b2:table\x7d @\x7d$0\x7b@ end for @\x7d", "Loop over a table"),
    ("for where",
      "for $\x7b1:name\x7d in $\x7b2:table\x7d where $\x7b3:field\x7d $\x7b4:=\x7d " ++
        "$\x7b5:\"value\"\x7d @\x7d$0\x7b@ end for @\x7d",
      "Loop over the records matching a comparison"),
    ("for other", "for other $\x7b1:name\x7d in $\x7b2:table\x7d @\x7d$0\x7b@ end for @\x7d",
      "Loop over every record except the current one"),
    ("if", "if $\x7b1:field\x7d $\x7b2:=\x7d $\x7b3:\"value\"\x7d @\x7d$0\x7b@ end if @\x7d",
      "Conditional section"),
    ("end for", "end for @\x7d", "Close a for block"),
    ("end if", "end if @\x7d", "Close an if block")]

/-- Whether a line ends with a bracket, not counting white space. -/
def endsWith (line bracket : List Char) : Bool :=
  bracket <:+ trimEnd line

/-- What is offered behind `line`, the start of a line of the template `source`. -/
def completions (source : String) (line : List Char) : List Item :=
  if endsWith line ['{', '@'] then
    tagSnippets.map fun (label, snippet, detail) => ⟨label, .snippet, detail, some snippet⟩
  else if endsWith line ['{', '{'] then
    (loopNames source).map (⟨·, .variable, "Loop binding", none⟩) ++
      fieldHelp.map fun (name, help) => ⟨name, .field, help, none⟩
  else []

end MailMerge.Editor
