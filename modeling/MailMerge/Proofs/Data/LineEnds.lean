/-
One text, cut into lines in two ways: after line feeds only, and after every line end. The rows are
the same as long as no carriage return stands alone outside quotes with more of its line behind it;
where one does, the first way refuses the text. A carriage return that stands alone in quotes, or
with other line ends behind it, only counts as a line of its own.
-/
import MailMerge.Proofs.Data.Rows

namespace MailMerge.Data.Csv

open MailMerge.Text

/-! ## Counting lines -/

/-- Both numbers count the lines of one front of a text, by the two rules, on top of the lines that
were complete before. -/
def Counted (line line' : Nat) (cs : List Char) (a b : Nat) : Prop :=
  ∃ front, front <+: cs ∧ (front = [] → cs = []) ∧
    a = line + (cutLines .lineFeed front).length ∧ b = line' + (cutLines .universal front).length

section

variable {line line' a b : Nat} {c : Char} {cs : List Char}

theorem Counted.cons {ended ended' : Bool} (hover : lineOver .lineFeed c cs = ended)
    (hover' : lineOver .universal c cs = ended')
    (h : Counted (line + ended.toNat) (line' + ended'.toNat) cs a b) :
    Counted line line' (c :: cs) a b := by
  obtain ⟨front, hfront, hnil, rfl, rfl⟩ := h
  refine ⟨c :: front, List.cons_prefix_cons.2 ⟨rfl, hfront⟩, nofun, ?_, ?_⟩
  · rw [length_cutLines_cons _ hfront hnil, hover, Nat.add_assoc]
  · rw [length_cutLines_cons _ hfront hnil, hover', Nat.add_assoc]

/-- The lines up to a row that ends with the next character. -/
theorem counted_here : Counted line line' (c :: cs) (line + 1) (line' + 1) :=
  ⟨[c], ⟨cs, rfl⟩, nofun, rfl, rfl⟩

/-- The lines up to a row that ends with the text. -/
theorem counted_end : Counted line line' [] line line' :=
  ⟨[], List.prefix_rfl, fun _ => rfl, rfl, rfl⟩

end

/-! ## Rows cut anew -/

/-- What is found by the second way of cutting, beside what is found by the first: the same rows,
with other numbers and blank rows behind them, and the same end, unless the first way refuses a
carriage return. -/
inductive Recut (counted : Nat → Nat → Prop) :
    List NumberedRow → Option Fault → List NumberedRow → Option Fault → Prop
  | done : Recut counted [] none [] none
  | cellTooLong : Recut counted [] (some .cellTooLong) [] (some .cellTooLong)
  | strayLineEnd (rows : List NumberedRow) (fault : Option Fault) :
    Recut counted [] (some .strayLineEnd) rows fault
  | row {a b : Nat} {rows rows' blanks : List NumberedRow} {fault fault' : Option Fault}
      (cells : List String) (h : counted a b) (hblank : ∀ row ∈ blanks, row.cells = [])
      (hrest : Recut counted rows fault rows' fault') :
    Recut counted (⟨a, cells⟩ :: rows) fault (⟨b, cells⟩ :: (blanks ++ rows')) fault'

theorem Recut.imp {counted counted' : Nat → Nat → Prop} {rows rows' : List NumberedRow}
    {fault fault' : Option Fault} (h : Recut counted rows fault rows' fault')
    (himp : ∀ a b, counted a b → counted' a b) : Recut counted' rows fault rows' fault' := by
  induction h with
  | done => exact .done
  | cellTooLong => exact .cellTooLong
  | strayLineEnd rows fault => exact .strayLineEnd rows fault
  | row cells h hblank _ ih => exact .row cells (himp _ _ h) hblank ih

theorem Recut.cons {counted : Nat → Nat → Prop} {a b : Nat} {rows rows' : List NumberedRow}
    {fault fault' : Option Fault} (cells : List String) (h : counted a b)
    (hrest : Recut counted rows fault rows' fault') :
    Recut counted (⟨a, cells⟩ :: rows) fault (⟨b, cells⟩ :: rows') fault' :=
  @Recut.row counted a b rows rows' [] fault fault' cells h nofun hrest

/-- The rows and the fault of what is left of a text. -/
def found (rule : LineRule) (line : Nat) (p : Partial) (cs : List Char) :
    List NumberedRow × Option Fault :=
  closeRows (rowsAlong rule line p cs)

section

variable {rule : LineRule} {line : Nat} {p q : Partial} {c : Char} {cs : List Char}

theorem found_within (h : p.feed c = .ok q) (hover : lineOver rule c cs = false) :
    found rule line p (c :: cs) = found rule line q cs := by
  rw [found, rowsAlong_within h hover, found]

theorem found_over_quoted (h : p.feed c = .ok q) (hover : lineOver rule c cs = true)
    (hquoted : q.spot = .quoted) :
    found rule line p (c :: cs) = found rule (line + 1) q cs := by
  rw [found, rowsAlong_over_quoted h hover hquoted, found]

theorem found_over (h : p.feed c = .ok q) (hover : lineOver rule c cs = true)
    (hend : q.endLine.spot = .rowStart) :
    found rule line p (c :: cs) =
      (⟨line + 1, q.endLine.row⟩ :: (found rule (line + 1) .start cs).1,
        (found rule (line + 1) .start cs).2) := by
  rw [found, rowsAlong_over h hover hend, found]
  generalize rowsAlong rule (line + 1) .start cs = more
  obtain ⟨rows, fault | ⟨line, p⟩⟩ := more <;> rfl

theorem found_fault {fault : Fault} (h : p.feed c = .error fault) :
    found rule line p (c :: cs) = ([], some fault) := by
  rw [found, rowsAlong_fault h]
  rfl

end

/-! ## Where the two ways part -/

section

variable {c : Char} {cs : List Char} {p q : Partial}

/-- A line that is over completes its row, unless a quoted cell is open. -/
theorem endLine_spot (q : Partial) : q.endLine.spot = .rowStart ∨ q.spot = .quoted := by
  obtain ⟨spot, cells, cell, size⟩ := q
  cases spot <;> simp [Partial.endLine, Partial.save]

/-- What one more character can make of a row. -/
inductive Fed (p : Partial) (c : Char) : Except Fault Partial → Prop
  | lineEnd (q : Partial) (hc : Partial.isLineEnd c = true) (hq : q.spot = .lineEnd) :
    Fed p c (.ok q)
  | other (q : Partial) (hc : Partial.isLineEnd c = true → q.spot = .quoted)
      (hq : q.spot ≠ .lineEnd) : Fed p c (.ok q)
  | cellTooLong : Fed p c (.error .cellTooLong)
  | strayLineEnd (hp : p.spot = .lineEnd) (hc : Partial.isLineEnd c = false) :
    Fed p c (.error .strayLineEnd)

theorem fed_add {spot : Spot} (hc : Partial.isLineEnd c = true → spot = .quoted)
    (hspot : spot ≠ .lineEnd) : Fed p c (p.add spot c) := by
  unfold Partial.add
  split
  · exact .other _ hc hspot
  · exact .cellTooLong

theorem fed_cellStart (p : Partial) (c : Char) : Fed p c (Partial.feed.cellStart c p) := by
  unfold Partial.feed.cellStart
  split
  · exact .lineEnd _ ‹_› rfl
  · rename_i hc
    split
    · exact .other _ (fun h => absurd h hc) nofun
    · split
      · exact .other _ (fun h => absurd h hc) nofun
      · exact fed_add (fun h => absurd h hc) nofun

theorem fed (p : Partial) (c : Char) : Fed p c (p.feed c) := by
  have hquote : c = '"' → ¬ Partial.isLineEnd c = true := by rintro rfl; decide
  have hcomma : c = ',' → ¬ Partial.isLineEnd c = true := by rintro rfl; decide
  unfold Partial.feed
  split
  · split
    · exact .lineEnd _ ‹_› rfl
    · exact fed_cellStart p c
  · exact fed_cellStart p c
  · split
    · exact .lineEnd _ ‹_› rfl
    · rename_i hc
      split
      · exact .other _ (fun h => absurd h hc) nofun
      · exact fed_add (fun h => absurd h hc) nofun
  · split
    · exact .other _ (fun h => absurd h (hquote ‹_›)) nofun
    · exact fed_add (fun _ => rfl) nofun
  · split
    · exact fed_add (fun _ => rfl) nofun
    · split
      · exact .other _ (fun h => absurd h (hcomma ‹_›)) nofun
      · split
        · exact .lineEnd _ ‹_› rfl
        · exact fed_add (fun h => absurd h ‹_›) nofun
  · split
    · exact .lineEnd _ ‹_› ‹_›
    · exact .strayLineEnd ‹_› (Bool.eq_false_iff.2 ‹_›)

theorem spot_of_carriageReturn (h : p.feed '\r' = .ok q) :
    q.spot = .quoted ∨ q.spot = .lineEnd := by
  have hfed := fed p '\r'
  rw [h] at hfed
  cases hfed with
  | lineEnd _ _ hq => exact .inr hq
  | other _ hc _ => exact .inl (hc rfl)

theorem feed_of_lineEnd (hp : p.spot = .lineEnd) :
    p.feed c = if Partial.isLineEnd c then .ok p else .error .strayLineEnd := by
  rw [Partial.feed, hp]

theorem endLine_of_lineEnd (hp : p.spot = .lineEnd) : p.endLine = { p with spot := .rowStart } := by
  rw [Partial.endLine, hp]

/-- A row of which nothing but line ends is read. -/
structure Blank (p : Partial) : Prop where
  spot : p.spot = .rowStart ∨ p.spot = .lineEnd
  cells : p.cells = []

theorem blank_start : Blank .start := ⟨.inl rfl, rfl⟩

theorem Blank.feed (h : Blank p) (hc : Partial.isLineEnd c = true) :
    p.feed c = .ok { p with spot := .lineEnd } := by
  obtain ⟨spot, cells, cell, size⟩ := p
  rcases h.spot with hspot | hspot <;> cases hspot <;> simp [Partial.feed, hc]

theorem Blank.lineEnd (h : Blank p) : Blank { p with spot := .lineEnd } :=
  ⟨.inr rfl, h.cells⟩

theorem Blank.found_over (h : Blank p) (hc : Partial.isLineEnd c = true) {rule : LineRule}
    {line : Nat} (hover : lineOver rule c cs = true) :
    found rule line p (c :: cs) =
      (⟨line + 1, []⟩ :: (found rule (line + 1) .start cs).1,
        (found rule (line + 1) .start cs).2) := by
  have hrow : ({ p with spot := .lineEnd } : Partial).endLine.row = [] := by
    rw [endLine_of_lineEnd rfl, Partial.row, h.cells]
    rfl
  rw [Csv.found_over (h.feed hc) hover (by rw [endLine_of_lineEnd rfl]), hrow]

end

/-- The second way has completed a row at a carriage return, and the first way has not come to the
end of its line yet: it completes the row there, or refuses what stands in between. -/
def Trails (counted : Nat → Nat → Prop) (number : Nat) (cells : List String)
    (first second : List NumberedRow × Option Fault) : Prop :=
  first = ([], some .strayLineEnd) ∨
    ∃ rows fault blanks rows' fault', first = (⟨number, cells⟩ :: rows, fault) ∧
      second = (blanks ++ rows', fault') ∧ (∀ row ∈ blanks, row.cells = []) ∧
        Recut counted rows fault rows' fault'

/-- Both ways are at one place of a text, in the same row. -/
def InStep (cs : List Char) : Prop :=
  ∀ line line' p, Recut (Counted line line' cs) (found .lineFeed line p cs).1
    (found .lineFeed line p cs).2 (found .universal line' p cs).1 (found .universal line' p cs).2

/-- The first way has to read the rest of a line that is over for the second. -/
def Behind (cs : List Char) : Prop :=
  cs ≠ [] → ∀ (line line' : Nat) (p q : Partial), p.spot = .lineEnd → Blank q →
    Trails (Counted line line' cs) (line + 1) p.row (found .lineFeed line p cs)
      (found .universal line' q cs)

theorem Trails.imp {counted counted' : Nat → Nat → Prop} {number : Nat} {cells : List String}
    {first second : List NumberedRow × Option Fault} (h : Trails counted number cells first second)
    (himp : ∀ a b, counted a b → counted' a b) : Trails counted' number cells first second := by
  rcases h with h | ⟨rows, fault, blanks, rows', fault', hfirst, hsecond, hblank, hrest⟩
  · exact .inl h
  · exact .inr ⟨rows, fault, blanks, rows', fault', hfirst, hsecond, hblank, hrest.imp himp⟩

theorem behind_cons {c : Char} {cs : List Char} (hstep : InStep cs) (hbehind : Behind cs) :
    Behind (c :: cs) := by
  intro _ line line' p q hp hq
  cases hc : Partial.isLineEnd c with
  | false =>
    have hfeed : p.feed c = .error .strayLineEnd := by rw [feed_of_lineEnd hp, hc]; rfl
    exact .inl (found_fault hfeed)
  | true =>
    have hfeed : p.feed c = .ok p := by rw [feed_of_lineEnd hp, hc]; rfl
    have hrow : p.endLine.row = p.row := by rw [endLine_of_lineEnd hp]; rfl
    cases hover : lineOver .lineFeed c cs with
    | true =>
      -- the first way completes the row, and the second one more blank row
      rw [found_over hfeed hover (by rw [endLine_of_lineEnd hp]),
        hq.found_over hc (lineOver_universal hover), hrow]
      refine .inr ⟨_, _, [⟨line' + 1, []⟩], _, _, rfl, rfl, by simp, ?_⟩
      exact (hstep (line + 1) (line' + 1) .start).imp fun a b =>
        Counted.cons hover (lineOver_universal hover)
    | false =>
      have hne : cs ≠ [] := by
        rintro rfl
        simp [lineOver] at hover
      rw [found_within hfeed hover]
      cases hover' : lineOver .universal c cs with
      | true =>
        rw [hq.found_over hc hover']
        have hmore := hbehind hne line (line' + 1) p .start hp blank_start
        have hcount : ∀ a b, Counted line (line' + 1) cs a b → Counted line line' (c :: cs) a b :=
          fun a b => Counted.cons hover hover'
        rcases hmore.imp hcount with
          h | ⟨rows, fault, blanks, rows', fault', hfirst, hsecond, hblank, hrest⟩
        · exact .inl h
        · refine .inr ⟨rows, fault, ⟨line' + 1, []⟩ :: blanks, rows', fault', hfirst, ?_, ?_, hrest⟩
          · rw [hsecond]
            rfl
          · intro row hmem
            rcases List.mem_cons.1 hmem with rfl | hmem
            · rfl
            · exact hblank row hmem
      | false =>
        rw [found_within (hq.feed hc) hover']
        exact (hbehind hne line line' p _ hp hq.lineEnd).imp fun a b => Counted.cons hover hover'

theorem inStep_cons {c : Char} {cs : List Char} (hstep : InStep cs) (hbehind : Behind cs) :
    InStep (c :: cs) := by
  intro line line' p
  cases hfeed : p.feed c with
  | error fault =>
    rw [found_fault hfeed, found_fault hfeed]
    cases fault with
    | cellTooLong => exact .cellTooLong
    | strayLineEnd => exact .strayLineEnd _ _
  | ok q =>
    cases hover : lineOver .lineFeed c cs with
    | true =>
      have hover' := lineOver_universal hover
      have hcount : ∀ a b, Counted (line + 1) (line' + 1) cs a b →
          Counted line line' (c :: cs) a b :=
        fun a b => Counted.cons hover hover'
      rcases endLine_spot q with hend | hquoted
      · rw [found_over hfeed hover hend, found_over hfeed hover' hend]
        exact .cons _ counted_here ((hstep _ _ _).imp hcount)
      · rw [found_over_quoted hfeed hover hquoted, found_over_quoted hfeed hover' hquoted]
        exact (hstep _ _ _).imp hcount
    | false =>
      rw [found_within hfeed hover]
      cases hover' : lineOver .universal c cs with
      | false =>
        rw [found_within hfeed hover']
        exact (hstep line line' q).imp fun a b => Counted.cons hover hover'
      | true =>
        -- a carriage return that stands alone
        have hcount : ∀ a b, Counted line (line' + 1) cs a b → Counted line line' (c :: cs) a b :=
          fun a b => Counted.cons hover hover'
        have hreturn : c = '\r' := Decidable.byContradiction fun hne => by
          rw [lineOver_eq hne, hover] at hover'
          cases hover'
        subst hreturn
        have hne : cs ≠ [] := by
          rintro rfl
          simp [lineOver] at hover
        rcases spot_of_carriageReturn hfeed with hquoted | hend
        · rw [found_over_quoted hfeed hover' hquoted]
          exact (hstep line (line' + 1) q).imp hcount
        · have hrow : q.endLine.row = q.row := by rw [endLine_of_lineEnd hend]; rfl
          rw [found_over hfeed hover' (by rw [endLine_of_lineEnd hend]), hrow]
          have hmore := (hbehind hne line (line' + 1) q .start hend blank_start).imp hcount
          rcases hmore with h | ⟨rows, fault, blanks, rows', fault', hfirst, hsecond, hblank, hrest⟩
          · rw [h]
            exact .strayLineEnd _ _
          · rw [hfirst, hsecond]
            exact .row _ counted_here hblank hrest

theorem inStep_and_behind (cs : List Char) : InStep cs ∧ Behind cs := by
  induction cs with
  | nil =>
    refine ⟨?_, fun h => absurd rfl h⟩
    intro line line' p
    show Recut _ ([] ++ lastRow line p) none ([] ++ lastRow line' p) none
    rw [lastRow, lastRow]
    split
    · exact .cons _ counted_end .done
    · exact .done
  | cons c cs ih => exact ⟨inStep_cons ih.1 ih.2, behind_cons ih.1 ih.2⟩

/-! ## Where every line end ends a line, none is refused -/

theorem found_universal_ne {line : Nat} {p : Partial} {cs : List Char}
    (h : p.spot = .lineEnd → cs.head? = some '\n') :
    (found .universal line p cs).2 ≠ some .strayLineEnd := by
  induction cs generalizing line p with
  | nil => nofun
  | cons c cs ih =>
    have hfed := fed p c
    cases hfeed : p.feed c with
    | error fault =>
      rw [found_fault hfeed]
      rw [hfeed] at hfed
      cases hfed with
      | cellTooLong => nofun
      | strayLineEnd hp hc =>
        obtain rfl : c = '\n' := Option.some.inj (h hp)
        cases hc
    | ok q =>
      cases hover : lineOver .universal c cs with
      | true =>
        rcases endLine_spot q with hend | hquoted
        · rw [found_over hfeed hover hend]
          exact ih nofun
        · rw [found_over_quoted hfeed hover hquoted]
          exact ih (fun hq => by rw [hquoted] at hq; cases hq)
      | false =>
        rw [found_within hfeed hover]
        apply ih
        intro hq
        rw [hfeed] at hfed
        cases hfed with
        | other _ _ hne => exact absurd hq hne
        | lineEnd _ hc _ =>
          -- the line goes on behind a line end only inside the pair of the two characters
          simp only [lineOver, LineRule.universal, Bool.or_eq_false_iff, decide_eq_false_iff_not,
            Bool.and_eq_false_iff, ne_eq] at hover
          simp only [Partial.isLineEnd, Bool.or_eq_true, decide_eq_true_eq] at hc
          obtain ⟨-, hfeedChar, hreturn⟩ := hover
          have hc := hc.resolve_left hfeedChar
          simpa [hc] using hreturn

/-! ## Tables -/

/-- The records below a header. A row of a wrong width wins over a fault behind it. -/
def recordsBelow (table : String) (header : List String) (rows : List NumberedRow)
    (fault : Option Fault) : Except TableFault (List Record) :=
  match recordsOf table header rows, fault with
  | .error e, _ => .error (.width e)
  | .ok _, some e => .error (.csv e)
  | .ok records, none => .ok records

/-- The table of the rows and the fault that were found. -/
def tableOfFound (name : String) : List NumberedRow → Option Fault → Except TableFault Table
  | [], none => .ok (.ofRecords name [])
  | [], some e => .error (.csv e)
  | header :: below, fault =>
    (recordsBelow name header.cells below fault).map (.ofRecords name)

theorem tableOfLines_eq (name : String) (lines : List (List Char)) :
    tableOfLines name lines = tableOfFound name (rows lines).1 (rows lines).2 := by
  unfold tableOfLines
  obtain ⟨_ | ⟨header, below⟩, _ | e⟩ := rows lines
  · rfl
  · rfl
  · simp only [tableOfRows, tableOfFound, recordsBelow]
    cases recordsOf name header.cells below <;> rfl
  · simp only [tableOfRows, tableOfFound, recordsBelow]
    cases recordsOf name header.cells below <;> rfl

section

variable {table : String} {header : List String} {rows : List NumberedRow} {fault : Option Fault}
  {row : NumberedRow}

theorem recordsBelow_blank (h : row.cells = []) :
    recordsBelow table header (row :: rows) fault = recordsBelow table header rows fault := by
  have hrecords : recordsOf table header (row :: rows) = recordsOf table header rows := by
    rw [recordsOf, if_pos h]
  unfold recordsBelow
  rw [hrecords]

theorem recordsBelow_blanks {blanks : List NumberedRow} (h : ∀ row ∈ blanks, row.cells = []) :
    recordsBelow table header (blanks ++ rows) fault = recordsBelow table header rows fault := by
  induction blanks with
  | nil => rfl
  | cons row blanks ih =>
    rw [List.cons_append, recordsBelow_blank (h row List.mem_cons_self)]
    exact ih fun row hrow => h row (List.mem_cons_of_mem _ hrow)

theorem recordsBelow_width (h : row.cells ≠ []) (hwidth : row.cells.length ≠ header.length) :
    recordsBelow table header (row :: rows) fault =
      .error (.width ⟨table, row.line, header.length, row.cells.length⟩) := by
  have hrecords : recordsOf table header (row :: rows) =
      .error ⟨table, row.line, header.length, row.cells.length⟩ := by
    rw [recordsOf, if_neg h, if_pos hwidth]
  unfold recordsBelow
  rw [hrecords]

theorem recordsBelow_cons (h : row.cells ≠ []) (hwidth : row.cells.length = header.length) :
    recordsBelow table header (row :: rows) fault =
      (recordsBelow table header rows fault).map (.ofFields (header.zip row.cells) :: ·) := by
  have hrecords : recordsOf table header (row :: rows) =
      (recordsOf table header rows).map (.ofFields (header.zip row.cells) :: ·) := by
    rw [recordsOf, if_neg h, if_neg (fun hne => hne hwidth)]
    rfl
  unfold recordsBelow
  rw [hrecords]
  cases recordsOf table header rows with
  | error e => rfl
  | ok records => cases fault <;> rfl

end

/-- What the second way loads, beside what the first one does. -/
inductive SameLoad {α : Type} (counted : Nat → Nat → Prop) :
    Except TableFault α → Except TableFault α → Prop
  | loaded (a : α) : SameLoad counted (.ok a) (.ok a)
  | width (e : WidthFault) {line : Nat} (h : counted e.line line) :
    SameLoad counted (.error (.width e)) (.error (.width { e with line }))
  | cellTooLong : SameLoad counted (.error (.csv .cellTooLong)) (.error (.csv .cellTooLong))
  | strayLineEnd (second : Except TableFault α) :
    SameLoad counted (.error (.csv .strayLineEnd)) second

theorem SameLoad.map {α β : Type} {counted : Nat → Nat → Prop} {x y : Except TableFault α}
    (h : SameLoad counted x y) (f : α → β) : SameLoad counted (x.map f) (y.map f) := by
  cases h with
  | loaded a => exact .loaded (f a)
  | width e h => exact .width e h
  | cellTooLong => exact .cellTooLong
  | strayLineEnd _ => exact .strayLineEnd _

theorem Recut.recordsBelow {counted : Nat → Nat → Prop} {rows rows' : List NumberedRow}
    {fault fault' : Option Fault} (h : Recut counted rows fault rows' fault') (table : String)
    (header : List String) :
    SameLoad counted (recordsBelow table header rows fault)
      (recordsBelow table header rows' fault') := by
  induction h with
  | done => exact .loaded []
  | cellTooLong => exact .cellTooLong
  | strayLineEnd _ _ => exact .strayLineEnd _
  | row cells h hblank _ ih =>
    by_cases hnil : cells = []
    · rw [recordsBelow_blank hnil, recordsBelow_blank hnil, recordsBelow_blanks hblank]
      exact ih
    · by_cases hwidth : cells.length = header.length
      · rw [recordsBelow_cons hnil hwidth, recordsBelow_cons hnil hwidth,
          recordsBelow_blanks hblank]
        exact ih.map _
      · rw [recordsBelow_width hnil hwidth, recordsBelow_width hnil hwidth]
        exact .width _ h

theorem Recut.tableOfFound {counted : Nat → Nat → Prop} {rows rows' : List NumberedRow}
    {fault fault' : Option Fault} (h : Recut counted rows fault rows' fault') (name : String) :
    SameLoad counted (tableOfFound name rows fault) (tableOfFound name rows' fault') := by
  cases h with
  | done => exact .loaded _
  | cellTooLong => exact .cellTooLong
  | strayLineEnd _ _ => exact .strayLineEnd _
  | row cells h hblank hrest =>
    show SameLoad counted ((Csv.recordsBelow name cells _ _).map _)
      ((Csv.recordsBelow name cells _ _).map _)
    rw [recordsBelow_blanks hblank]
    exact (hrest.recordsBelow name cells).map _

/-- The tables of one text whose lines are cut in the two ways. -/
theorem sameLoad_tableOfLines (name : String) (cs : List Char) :
    SameLoad (Counted 0 0 cs) (tableOfLines name (cutLines .lineFeed cs))
      (tableOfLines name (cutLines .universal cs)) := by
  rw [tableOfLines_eq, tableOfLines_eq, rows_cutLines, rows_cutLines]
  exact ((inStep_and_behind cs).1 0 0 .start).tableOfFound name

theorem tableOfFound_ne {name : String} {rows : List NumberedRow} {fault : Option Fault}
    {e : Fault} (h : fault ≠ some e) : tableOfFound name rows fault ≠ .error (.csv e) := by
  rcases rows with _ | ⟨header, below⟩
  · rcases fault with _ | e'
    · nofun
    · rintro ⟨⟩
      exact h rfl
  · rw [tableOfFound, recordsBelow.eq_def]
    cases recordsOf name header.cells below with
    | error _ => nofun
    | ok records =>
      rcases fault with _ | e'
      · nofun
      · rintro ⟨⟩
        exact h rfl

/-- Where every line end ends a line, no table is refused for a carriage return. -/
theorem tableOfLines_universal_ne (name : String) (cs : List Char) :
    tableOfLines name (cutLines .universal cs) ≠ .error (.csv .strayLineEnd) := by
  rw [tableOfLines_eq, rows_cutLines]
  exact tableOfFound_ne (found_universal_ne nofun)

end MailMerge.Data.Csv
