/-
Cutting a template into tokens. What may stand at a place depends on the mode: plain text, the
inside of an interpolation, the inside of a block tag, or the literal after a comparator. In each
mode the rules are tried in order and the first that applies decides; every token leaves a shorter
rest.
-/
import MailMerge.Markup.Escape
import MailMerge.Markup.Fault
import MailMerge.Text.CharacterClass

namespace MailMerge.Markup

open MailMerge.Text MailMerge.Number

/-- Where in a template the scanner stands. -/
inductive Mode
  | text
  | expansion
  | tag
  | literal
  deriving DecidableEq, Repr

/-- The mode after a token: brackets open and close, and a comparator asks for one literal. -/
def Mode.after (mode : Mode) : TokenKind → Mode
  | .openExpansion => .expansion
  | .openTag => .tag
  | .closeExpansion | .closeTag => .text
  | .operator _ => .literal
  | .literal _ => .tag
  | _ => mode

/-- A token at the start of a text, with what follows it. -/
structure Lexeme where
  kind : TokenKind
  spelling : List Char
  rest : List Char

/-! ## Units -/

/-- Plain text: a brace that opens something must be escaped. -/
def textUnits : Units where
  plain c next := c ≠ '{' || (next ≠ some '{' && next ≠ some '@')
  escapable c := c ∈ ['\\', '{', '}', '@']

/-- Names in interpolations end at white space and at punctuation. -/
def expansionUnits : Units where
  plain c _ := !isBlank c && c ∉ ['{', '}', '@', '.', '\x60']
  escapable c := c ∈ ['\\', '@', '{', '}', '.']

/-- Names in block tags also end at comparators. -/
def tagUnits : Units where
  plain c next := expansionUnits.plain c next && c ∉ ['<', '>', '=', '!']
  escapable := expansionUnits.escapable

/-- Names in backticks. -/
def quotedUnits : Units where
  plain c _ := c ≠ '\x60'
  escapable c := c = '\x60' || expansionUnits.escapable c

/-- Texts in double quotes. -/
def stringUnits : Units where
  plain c _ := c ≠ '"'
  escapable c := c = '"' || expansionUnits.escapable c

/-! ## Rules -/

/-- A rule reads one kind of token at the start of a text. -/
abbrev Rule := List Char → Option Lexeme

namespace Rule

/-- A token of a fixed spelling. -/
def fixed (kind : TokenKind) (spelling : List Char) : Rule := fun cs =>
  if spelling <+: cs then some ⟨kind, spelling, cs.drop spelling.length⟩ else none

/-- An opening bracket with the white space after it. -/
def opening (kind : TokenKind) (bracket : List Char) : Rule := fun cs =>
  (fixed kind bracket cs).map fun x =>
    ⟨kind, bracket ++ leadingBlanks x.rest, dropBlanks x.rest⟩

/-- A closing bracket with the white space in front of it. -/
def closing (kind : TokenKind) (bracket : List Char) : Rule := fun cs =>
  (fixed kind bracket (dropBlanks cs)).map fun x =>
    { x with spelling := leadingBlanks cs ++ bracket }

/-- White space. -/
def blank : Rule := fun cs =>
  if leadingBlanks cs = [] then none else some ⟨.blank, leadingBlanks cs, dropBlanks cs⟩

/-- A run of units. -/
def run (units : Units) (kind : List Char → TokenKind) : Rule := fun cs =>
  if (units.span cs).1 = [] then none
  else some ⟨kind (units.span cs).1, (units.span cs).1, (units.span cs).2⟩

/-- The name that a run of units spells. -/
def segmentOf (spelling : List Char) : TokenKind :=
  .segment (String.ofList (unescape spelling))

/-- The keyword or name that a run of units spells; a keyword has no escapes. -/
def wordOf (spelling : List Char) : TokenKind :=
  match Keyword.ofWord? (String.ofList spelling) with
  | some k => .keyword k
  | none => segmentOf spelling

/-- A name in backticks, which is never a keyword and never empty. -/
def quotedSegment : Rule := fun cs =>
  match quotedUnits.spanQuoted '\x60' cs with
  | some (inside, rest) =>
    if inside = [] then none
    else some ⟨segmentOf inside, '\x60' :: inside ++ ['\x60'], rest⟩
  | none => none

/-- A comparator; of two that start alike the longer one. -/
def comparator : Rule := fun cs =>
  [Comparator.notEqual, .greaterOrEqual, .lessOrEqual, .greater, .less, .equal].findSome? fun op =>
    fixed (.operator op) op.symbol.toList cs

/-- A text in double quotes. -/
def quotedText : Rule := fun cs =>
  (stringUnits.spanQuoted '"' cs).map fun (inside, rest) =>
    ⟨.literal (.text (String.ofList (unescape inside))), '"' :: inside ++ ['"'], rest⟩

end Rule

open Rule in
/-- The rules of each mode, in the order in which they are tried. -/
def Mode.rules : Mode → List Rule
  | .text =>
    [opening .openExpansion ['{', '{'], opening .openTag ['{', '@'],
      run textUnits fun spelling => .text (String.ofList (unescape spelling))]
  | .expansion =>
    [closing .closeExpansion ['}', '}'], blank, quotedSegment, run expansionUnits segmentOf,
      fixed .dot ['.'], fixed .atSign ['@']]
  | .tag =>
    [closing .closeTag ['@', '}'], blank, quotedSegment, run tagUnits wordOf,
      fixed .dot ['.'], fixed .atSign ['@'], comparator]
  | .literal => [quotedText]

/-! ## One token -/

/-- What is wrong with a text that starts with `c` and that no rule of the mode applies to. -/
def Mode.fault (mode : Mode) (c : Char) (rest : List Char) : Fault :=
  match mode with
  | .literal => .expectedLiteral c
  | .text | .expansion | .tag =>
    if c = '\\' then
      match rest with
      | [] => .unfinishedEscape
      | d :: _ => .invalidEscape d
    else if c = '\x60' then .unterminatedQuote
    else if mode = .tag then .strayInTag c
    else .strayInExpansion c

/-- Why no token could be read. -/
inductive ScanFault
  | fault (f : Fault)
  | value (e : ValueFault)
  deriving DecidableEq, Repr

/-- The number at the start of a text, as a token. -/
def number (cs : List Char) : Option (Except ScanFault Lexeme) :=
  (spanDecimal cs).map fun (_, rest) =>
    let size := cs.length - rest.length
    let spelling := String.ofList (cs.take size)
    match Literal.readNumber spelling with
    | .ok (some value) => .ok ⟨.literal value, cs.take size, cs.drop size⟩
    | .ok none => .error (.fault (.invalidNumber spelling))
    | .error e => .error (.value e)

/-- The token at the start of a text that is not empty. After the rules, a literal may be a
number. -/
def Mode.scan (mode : Mode) (cs : List Char) : Except ScanFault Lexeme :=
  match mode.rules.findSome? (· cs) with
  | some x => .ok x
  | none =>
    match if mode = .literal then number cs else none with
    | some x => x
    | none => .error (.fault (mode.fault (cs.headD '\\') cs.tail))

/-! ## Tokens cut the text -/

/-- A token covers some characters of a text and leaves the others. -/
def Lexeme.Cuts (x : Lexeme) (cs : List Char) : Prop :=
  x.spelling ≠ [] ∧ x.spelling ++ x.rest = cs

namespace Rule

/-- A rule whose tokens cut the text. -/
def Cutting (rule : Rule) : Prop :=
  ∀ cs x, rule cs = some x → x.Cuts cs

theorem fixed_cutting {kind : TokenKind} {spelling : List Char} (h : spelling ≠ []) :
    Cutting (fixed kind spelling) := by
  intro cs x hx
  unfold fixed at hx
  split at hx
  · rename_i hcs
    cases hx
    exact ⟨h, by obtain ⟨rest, rfl⟩ := hcs; simp⟩
  · simp at hx

theorem opening_cutting {kind : TokenKind} {bracket : List Char} (h : bracket ≠ []) :
    Cutting (opening kind bracket) := by
  intro cs x hx
  obtain ⟨y, hy, rfl⟩ := Option.map_eq_some_iff.1 hx
  have hcut := (fixed_cutting h cs y hy).2
  have hspelling : y.spelling = bracket := by
    unfold fixed at hy
    split at hy
    · cases hy; rfl
    · simp at hy
  refine ⟨by simp [h], ?_⟩
  rw [← hcut, hspelling]
  simp only [List.append_assoc, leadingBlanks_append_dropBlanks]

theorem closing_cutting {kind : TokenKind} {bracket : List Char} (h : bracket ≠ []) :
    Cutting (closing kind bracket) := by
  intro cs x hx
  obtain ⟨y, hy, rfl⟩ := Option.map_eq_some_iff.1 hx
  have hcut := (fixed_cutting h _ y hy).2
  have hspelling : y.spelling = bracket := by
    unfold fixed at hy
    split at hy
    · cases hy; rfl
    · simp at hy
  refine ⟨by simp [h], ?_⟩
  simp only [List.append_assoc]
  rw [← hspelling, hcut, leadingBlanks_append_dropBlanks]

theorem blank_cutting : Cutting blank := by
  intro cs x hx
  unfold blank at hx
  split at hx
  · simp at hx
  · rename_i h
    cases hx
    exact ⟨h, leadingBlanks_append_dropBlanks cs⟩

theorem run_cutting (units : Units) (kind : List Char → TokenKind) : Cutting (run units kind) := by
  intro cs x hx
  unfold run at hx
  split at hx
  · simp at hx
  · rename_i h
    cases hx
    exact ⟨h, units.span_append cs⟩

theorem quotedSegment_cutting : Cutting quotedSegment := by
  intro cs x hx
  unfold quotedSegment at hx
  split at hx
  · rename_i inside rest h
    split at hx
    · simp at hx
    · cases hx
      exact ⟨by simp, by simpa using Units.spanQuoted_append h⟩
  · simp at hx

theorem comparator_cutting : Cutting comparator := by
  intro cs x hx
  obtain ⟨op, -, hop⟩ := List.exists_of_findSome?_eq_some hx
  refine fixed_cutting ?_ cs x hop
  cases op <;> decide

theorem quotedText_cutting : Cutting quotedText := by
  intro cs x hx
  obtain ⟨⟨inside, rest⟩, h, rfl⟩ := Option.map_eq_some_iff.1 hx
  exact ⟨by simp, by simpa using Units.spanQuoted_append h⟩

end Rule

/-- The tokens of every rule cut the text. -/
theorem Mode.rules_cutting (mode : Mode) : ∀ rule ∈ mode.rules, rule.Cutting := by
  cases mode <;> simp only [rules, List.forall_mem_cons, List.not_mem_nil, false_implies,
    implies_true, and_true]
  · exact ⟨Rule.opening_cutting (by simp), Rule.opening_cutting (by simp), Rule.run_cutting _ _⟩
  · exact ⟨Rule.closing_cutting (by simp), Rule.blank_cutting, Rule.quotedSegment_cutting,
      Rule.run_cutting _ _, Rule.fixed_cutting (by simp), Rule.fixed_cutting (by simp)⟩
  · exact ⟨Rule.closing_cutting (by simp), Rule.blank_cutting, Rule.quotedSegment_cutting,
      Rule.run_cutting _ _, Rule.fixed_cutting (by simp), Rule.fixed_cutting (by simp),
      Rule.comparator_cutting⟩
  · exact Rule.quotedText_cutting

theorem number_cuts {cs : List Char} {x : Lexeme} (h : number cs = some (.ok x)) : x.Cuts cs := by
  obtain ⟨⟨d, rest⟩, hd, hx⟩ := Option.map_eq_some_iff.1 h
  have hlt := spanDecimal_length_lt hd
  simp only at hx
  split at hx
  · cases hx
    refine ⟨fun h => ?_, List.take_append_drop _ _⟩
    have := congrArg List.length h
    simp only [List.length_take, List.length_nil] at this
    omega
  · simp at hx
  · simp at hx

/-- Every token cuts the text. -/
theorem Mode.scan_cuts {mode : Mode} {cs : List Char} {x : Lexeme} (h : mode.scan cs = .ok x) :
    x.Cuts cs := by
  unfold scan at h
  split at h
  · rename_i y hy
    cases h
    obtain ⟨rule, hrule, hx⟩ := List.exists_of_findSome?_eq_some hy
    exact mode.rules_cutting rule hrule cs x hx
  · split at h
    · rename_i y hy
      split at hy
      · exact number_cuts (by rw [hy, h])
      · simp at hy
    · simp at h

/-! ## The template -/

/-- A place in a template: the mode, the offset, and what is still to be read. -/
structure Cursor where
  mode : Mode
  position : Nat
  rest : List Char

/-- The white space that is passed over in front of a literal. -/
def isLayout (c : Char) : Bool :=
  c ∈ [' ', '\t', '\r', '\n']

namespace Cursor

/-- The start of a template. -/
def start (source : String) : Cursor :=
  ⟨.text, 0, source.toList⟩

/-- The place behind the next `n` characters. -/
def advance (c : Cursor) (n : Nat) : Cursor :=
  { c with position := c.position + n, rest := c.rest.drop n }

/-- The place at which the next token starts. -/
def skipLayout (c : Cursor) : Cursor :=
  if c.mode = .literal then c.advance (c.rest.takeWhile isLayout).length else c

/-- What is found at a place, with the place at which the scanner is left. -/
inductive Step
  | token (t : Token) (next : Cursor)
  | finished (final : Cursor)
  | fault (f : ScanFault) (final : Cursor)

/-- Reads one token. A fault where a literal should be leaves the scanner in plain text. -/
def step (c : Cursor) : Step :=
  let c := c.skipLayout
  if c.rest = [] then .finished c
  else
    match c.mode.scan c.rest with
    | .ok x =>
      .token ⟨x.kind, c.position, String.ofList x.spelling⟩
        ⟨c.mode.after x.kind, c.position + x.spelling.length, x.rest⟩
    | .error (.fault f) =>
      .fault (.fault f) { c with mode := if c.mode = .literal then .text else c.mode }
    | .error (.value e) => .fault (.value e) c

theorem skipLayout_length_le (c : Cursor) : c.skipLayout.rest.length ≤ c.rest.length := by
  unfold skipLayout
  split
  · simp [advance]
  · exact Nat.le_refl _

/-- Every token leaves a shorter rest. -/
theorem step_length_lt {c next : Cursor} {t : Token} (h : c.step = .token t next) :
    next.rest.length < c.rest.length := by
  unfold step at h
  simp only at h
  split at h
  · simp at h
  · split at h
    · rename_i x hx
      obtain ⟨hne, hcut⟩ := Mode.scan_cuts hx
      have hlength := congrArg List.length hcut
      have := c.skipLayout_length_le
      have := List.length_pos_iff.2 hne
      simp only [Step.token.injEq] at h
      rw [List.length_append] at hlength
      rw [← h.2]
      simp only
      omega
    · simp at h
    · simp at h

end Cursor

/-- A fault of the scanner at a place. -/
def ScanFault.placed (f : ScanFault) (position : Nat) : Refusal :=
  match f with
  | .fault f => .fault f position
  | .value e => .value e

end MailMerge.Markup
