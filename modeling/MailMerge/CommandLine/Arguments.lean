/-
Reading the arguments of a run. Each argument is first told apart: a switch, a plain argument, or
the divider after which there are no more switches. Then they are taken in order; the value of a
switch is joined to it or is the plain argument behind it. A switch that is joined to the divider is
given a blank value: the switch counts as given, but its value is no text, and most uses of it fail.
-/
import MailMerge.Files.Path
import MailMerge.Text.CharacterClass
import MailMerge.Text.Quoted

namespace MailMerge.CommandLine

open MailMerge.Files MailMerge.Text

/-! ## Values of switches -/

/-- A value that a switch was given. -/
inductive Given (α : Type)
  | blank
  | value (a : α)
  deriving DecidableEq, Repr

/-- Turns a value into another; a blank one stays blank. -/
def Given.map (f : α → β) : Given α → Given β
  | blank => blank
  | value a => value (f a)

/-- What a blank value was used as. -/
inductive BlankFault
  | path
  | directory
  | level
  deriving DecidableEq, Repr

/-- The wording for a blank value, by what it was used as. -/
def BlankFault.message : BlankFault → String
  | path => "expected str, bytes or os.PathLike object, not list"
  | directory => "unsupported operand type(s) for /: 'list' and 'str'"
  | level => "'list' object has no attribute 'upper'"

/-- A blank value, where it is shown. -/
def blankShown : String := "[]"

/-! ## Switches -/

/-- The switches. -/
inductive Switch
  | help
  | vars
  | table
  | out
  | logLevel
  | logFormat
  | version
  deriving DecidableEq, Repr

namespace Switch

/-- Every switch. -/
def all : List Switch := [help, vars, table, out, logLevel, logFormat, version]

/-- The spellings of a switch. -/
def spellings : Switch → List String
  | help => ["-h", "--help"]
  | vars => ["-v", "--vars"]
  | table => ["-t", "--table", "--types"]
  | out => ["-o", "--out"]
  | logLevel => ["--log-level"]
  | logFormat => ["--log-format"]
  | version => ["--version"]

/-- A switch as messages name it. -/
def shown (s : Switch) : String :=
  String.intercalate "/" s.spellings

/-- Whether a value belongs to a switch. -/
def takesValue : Switch → Bool
  | help | version => false
  | vars | table | out | logLevel | logFormat => true

/-- The values that a switch allows, if it does not allow all. -/
def choices : Switch → Option (List String)
  | logLevel => some ["debug", "info", "warning", "error"]
  | logFormat => some ["text", "json"]
  | _ => none

/-- Every spelling of every switch. -/
def spelled : List (List Char × Switch) :=
  all.flatMap fun s => s.spellings.map fun spelling => (spelling.toList, s)

/-- The switch with a spelling, written out in full. -/
def ofSpelling? (spelling : List Char) : Option Switch :=
  (spelled.find? (·.1 = spelling)).map (·.2)

end Switch

/-! ## Faults -/

/-- What is wrong with the arguments. -/
inductive UsageFault
  | ambiguous (text : String) (candidates : List String)
  | missingValue (s : Switch)
  | uselessValue (s : Switch) (value : String)
  | invalidChoice (s : Switch) (value : String) (choices : List String)
  | required (names : List String)
  | unrecognized (texts : List String)
  deriving DecidableEq, Repr

/-- The wording of what is wrong with the arguments. -/
def UsageFault.message : UsageFault → String
  | ambiguous text candidates =>
    s!"ambiguous option: {text} could match " ++ String.intercalate ", " candidates
  | missingValue s => s!"argument {s.shown}: expected one argument"
  | uselessValue s value => s!"argument {s.shown}: ignored explicit argument {quoted value}"
  | invalidChoice s value choices =>
    s!"argument {s.shown}: invalid choice: {quoted value} (choose from " ++
      String.intercalate ", " (choices.map quoted) ++ ")"
  | required names => "the following arguments are required: " ++ String.intercalate ", " names
  | unrecognized texts => "unrecognized arguments: " ++ String.intercalate " " texts

/-- Why no run follows from the arguments. -/
inductive Stop
  | help
  | version
  | fault (f : UsageFault)
  deriving DecidableEq, Repr

/-! ## Telling arguments apart -/

/-- What an argument is. A text that looks like a switch but is none is `unknown`. -/
inductive Word
  | plain (text : String)
  | divider
  | switch (s : Switch) (spelling : List Char) (joined : Option (List Char))
  | unknown (text : String)
  deriving DecidableEq, Repr

/-- A text cut at its first equals sign. -/
def cutAtEquals (cs : List Char) : List Char × Option (List Char) :=
  let name := cs.takeWhile (· ≠ '=')
  match cs.drop name.length with
  | [] => (name, none)
  | _ :: text => (name, some text)

/-- What a text can mean that starts with a dash and is not itself the spelling of a switch: the
start of a long spelling, or a short one with text joined to it. -/
def readings (cs : List Char) : List (Switch × List Char × Option (List Char)) :=
  match cs with
  | '-' :: '-' :: _ =>
    let (name, joined) := cutAtEquals cs
    Switch.spelled.filterMap fun (spelling, s) =>
      if name <+: spelling then some (s, spelling, joined) else none
  | dash :: letter :: text =>
    Switch.spelled.filterMap fun (spelling, s) =>
      if spelling = [dash, letter] then some (s, spelling, some text) else none
  | _ => []

/-- Whether a text spells a negative number, possibly with a line feed behind it. -/
def isNegativeNumber (cs : List Char) : Bool :=
  match cs with
  | '-' :: rest =>
    let whole := rest.takeWhile isDecimalDigit
    match rest.dropWhile isDecimalDigit with
    | '.' :: more => more.any isDecimalDigit && atEnd (more.dropWhile isDecimalDigit)
    | more => whole ≠ [] && atEnd more
  | _ => false
where
  /-- Nothing is left but a line feed. -/
  atEnd (cs : List Char) : Bool := cs = [] || cs = ['\n']

/-- Tells what an argument in front of the divider is. -/
def Word.ofText (text : String) : Except UsageFault Word :=
  let cs := text.toList
  if cs.head? ≠ some '-' ∨ cs = ['-'] then .ok (.plain text)
  else
    match Switch.ofSpelling? cs with
    | some s => .ok (.switch s cs none)
    | none =>
      let (name, joined) := cutAtEquals cs
      match joined, Switch.ofSpelling? name with
      | some joined, some s => .ok (.switch s name (some joined))
      | _, _ =>
        match readings cs with
        | [(s, spelling, joined)] => .ok (.switch s spelling joined)
        | [] =>
          if isNegativeNumber cs ∨ ' ' ∈ cs then .ok (.plain text) else .ok (.unknown text)
        | several => .error (.ambiguous text (several.map fun (_, spelling, _) => .ofList spelling))

/-- Tells what the arguments are. -/
def Word.ofTexts : List String → Except UsageFault (List Word)
  | [] => .ok []
  | text :: rest =>
    if text = "--" then .ok (.divider :: rest.map .plain)
    else do return (← Word.ofText text) :: (← Word.ofTexts rest)

/-! ## Taking them -/

/-- A switch with the value that it was given, blank for one that takes none. -/
structure Setting where
  switch : Switch
  value : Given String
  deriving DecidableEq, Repr

/-- What was taken so far. -/
structure Taken where
  template : Option String
  settings : List Setting
  extras : List String
  deriving DecidableEq, Repr

namespace Taken

/-- Nothing was taken yet. -/
def empty : Taken := ⟨none, [], []⟩

/-- Puts aside a text that no place is left for. -/
def addExtra (t : Taken) (text : String) : Taken :=
  { t with extras := t.extras ++ [text] }

/-- Notes a switch with its value, behind those before it. -/
def addSetting (t : Taken) (setting : Setting) : Taken :=
  { t with settings := t.settings ++ [setting] }

/-- Lets a switch do what it does. A blank value is not held against the choices. -/
def apply (t : Taken) : Setting → Except Stop Taken
  | ⟨.help, _⟩ => .error .help
  | ⟨.version, _⟩ => .error .version
  | ⟨s, .blank⟩ => .ok (t.addSetting ⟨s, .blank⟩)
  | ⟨s, .value text⟩ =>
    match s.choices with
    | some choices =>
      if text ∈ choices then .ok (t.addSetting ⟨s, .value text⟩)
      else .error (.fault (.invalidChoice s text choices))
    | none => .ok (t.addSetting ⟨s, .value text⟩)

end Taken

/-- What one argument asks for: its switches in order, and whether the next argument was its
value. -/
structure Demand where
  settings : List Setting
  tookNext : Bool

/-- The value that a text joined to a switch gives it. -/
def Given.ofJoined (text : List Char) : Given String :=
  if text = ['-', '-'] then .blank else .value (.ofList text)

/-- Reads the switches in one argument. Behind a short switch without a value more of them can
follow in the same argument. -/
def demand (s : Switch) (spelling : List Char) (joined : Option (List Char))
    (next : Option String) : Except UsageFault Demand :=
  match joined with
  | none =>
    if s.takesValue then
      match next with
      | some text => .ok ⟨[⟨s, .value text⟩], true⟩
      | none => .error (.missingValue s)
    else .ok ⟨[⟨s, .blank⟩], false⟩
  | some text =>
    if s.takesValue then .ok ⟨[⟨s, .ofJoined text⟩], false⟩
    else
      match text with
      | [] => .error (.uselessValue s "")
      | letter :: more =>
        if spelling[1]? = some '-' then .error (.uselessValue s (.ofList text))
        else
          match Switch.ofSpelling? ['-', letter] with
          | none => .error (.uselessValue s (.ofList text))
          | some s₁ => do
            let d ← demand s₁ ['-', letter] (if more = [] then none else some more) next
            return { d with settings := ⟨s, .blank⟩ :: d.settings }
termination_by (joined.map (·.length + 1)).getD 0
decreasing_by by_cases h : more = [] <;> simp [h]

/-- Takes the arguments in order. The divider is passed over next to the template. -/
def take (t : Taken) (words : List Word) : Except Stop Taken :=
  match words with
  | [] => .ok t
  | .plain text :: rest =>
    match t.template with
    | some _ => take (t.addExtra text) rest
    | none => take { t with template := some text } (rest.dropWhile (· = .divider))
  | .divider :: rest =>
    if t.template = none ∧ rest ≠ [] then take t rest else take (t.addExtra "--") rest
  | .unknown text :: rest => take (t.addExtra text) rest
  | .switch s spelling joined :: rest => do
    let next :=
      match rest with
      | .plain text :: _ => some text
      | _ => none
    let d ← (demand s spelling joined next).mapError .fault
    let t ← d.settings.foldlM Taken.apply t
    take t (if d.tookNext then rest.tail else rest)
termination_by words.length
decreasing_by
  · simp
  · have := (List.dropWhile_sublist (l := rest) fun w => decide (w = .divider)).length_le
    simp only [List.length_cons]
    omega
  · simp
  · simp
  · simp
  · split
    · simp only [List.length_tail, List.length_cons]
      omega
    · simp

/-! ## Options -/

/-- How log events are written. -/
inductive LogFormat
  | text
  | json
  deriving DecidableEq, Repr

/-- What a run is asked to do. -/
structure Options where
  template : Path
  vars : Given Path
  tables : List (Given Path)
  out : Option (Given Path)
  logLevel : Option (Given String)
  logFormat : LogFormat
  deriving DecidableEq, Repr

namespace Taken

/-- The values that a switch was given, in order. -/
def valuesOf (t : Taken) (s : Switch) : List (Given String) :=
  (t.settings.filter (·.switch = s)).map (·.value)

/-- The options that were taken. A template and a vars table must be among them, and nothing that
has no meaning; of several values of a switch the last one counts, except for tables. -/
def options (t : Taken) : Except UsageFault Options :=
  match t.template, (t.valuesOf .vars).getLast? with
  | some template, some vars =>
    if t.extras ≠ [] then .error (.unrecognized t.extras)
    else .ok {
      template := .ofString template
      vars := vars.map .ofString
      tables := (t.valuesOf .table).map (.map .ofString)
      out := (t.valuesOf .out).getLast?.map (.map .ofString)
      logLevel := (t.valuesOf .logLevel).getLast?
      logFormat := if (t.valuesOf .logFormat).getLast? = some (.value "json") then .json else .text }
  | template, vars =>
    .error (.required ((if template.isNone then ["template"] else []) ++
      if vars.isNone then [Switch.vars.shown] else []))

end Taken

/-- The options that the arguments of a run ask for. -/
def Options.ofArguments (arguments : List String) : Except Stop Options := do
  let words ← (Word.ofTexts arguments).mapError .fault
  let taken ← take .empty words
  taken.options.mapError .fault

end MailMerge.CommandLine
