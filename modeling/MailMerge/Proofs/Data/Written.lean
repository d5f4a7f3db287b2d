/-
What is written is read back. Every cell is written in double quotes, so whatever it holds (quotes,
commas, line ends, nothing) stands in a quoted cell, and only the ends of the written rows end a row.
A table that is loaded from the written text has the records that were written, in their order.
-/
import MailMerge.Data.Csv.Write
import MailMerge.Proofs.Data.Rows

namespace MailMerge.Data

open MailMerge.Text

/-! ## Records of distinct fields -/

theorem setValue_of_notMem {α : Type} {key : String} {value : α} {pairs : List (String × α)}
    (h : key ∉ pairs.map (·.1)) : setValue key value pairs = pairs ++ [(key, value)] := by
  induction pairs with
  | nil => rfl
  | cons pair pairs ih =>
    obtain ⟨k, v⟩ := pair
    simp only [List.map_cons, List.mem_cons, not_or] at h
    rw [setValue, if_neg (Ne.symm h.1), ih h.2]
    rfl

theorem valueOf?_map_mk {α : Type} (f : String → α) (key : String) (names : List String) :
    valueOf? key (names.map fun name => (name, f name)) =
      if key ∈ names then some (f key) else none := by
  induction names with
  | nil => rfl
  | cons name names ih =>
    rw [List.map_cons, valueOf?]
    by_cases h : name = key
    · subst h
      simp
    · simp [h, ih, Ne.symm h]

namespace Record

/-- Fields of distinct names are the fields of their record. -/
theorem ofFields_of_nodup {fields : List (String × String)} (h : (fields.map (·.1)).Nodup) :
    ofFields fields = ⟨fields⟩ := by
  -- the record grows at its end, as no name is set twice
  have hgrow : ∀ (later earlier : List (String × String)), ((earlier ++ later).map (·.1)).Nodup →
      later.foldl (fun r p => r.set p.1 p.2) ⟨earlier⟩ = (⟨earlier ++ later⟩ : Record) := by
    intro later
    induction later with
    | nil => intro earlier _; simp
    | cons pair later ih =>
      intro earlier hnodup
      have hnew : pair.1 ∉ earlier.map (·.1) := by
        rw [List.map_append, List.map_cons, List.nodup_append] at hnodup
        intro hmem
        exact hnodup.2.2 _ hmem _ List.mem_cons_self rfl
      have hset : (⟨earlier⟩ : Record).set pair.1 pair.2 = ⟨earlier ++ [pair]⟩ := by
        rw [set, setValue_of_notMem hnew]
      rw [List.foldl_cons, hset, ih (earlier ++ [pair]) (by simpa using hnodup)]
      simp
  simpa [ofFields, empty] using hgrow fields [] h

/-- A record has exactly some fields, and none of their texts is too long for a cell. -/
structure Fits (r : Record) (names : List String) : Prop where
  given : ∀ name, (r.get? name).isSome ↔ name ∈ names
  short : ∀ name text, r.get? name = some text → text.length ≤ Csv.cellLimit

variable {r : Record} {names : List String}

theorem length_texts_inOrder (names : List String) (r : Record) :
    (r.inOrder names).texts.length = names.length := by
  simp [inOrder, texts]

theorem zip_texts_inOrder (names : List String) (r : Record) :
    names.zip (r.inOrder names).texts = (r.inOrder names).fields := by
  induction names with
  | nil => rfl
  | cons name names ih =>
    simp only [inOrder, texts, List.map_cons, List.zip_cons_cons] at ih ⊢
    rw [ih]

/-- The order of the fields changes no text. -/
theorem Fits.get?_inOrder (h : r.Fits names) (name : String) :
    (r.inOrder names).get? name = r.get? name := by
  rw [get?, inOrder, valueOf?_map_mk]
  split
  · rename_i hmem
    obtain ⟨text, htext⟩ := Option.isSome_iff_exists.1 ((h.given name).2 hmem)
    rw [htext]
    rfl
  · rename_i hmem
    have hnone : ¬ (r.get? name).isSome := fun hsome => hmem ((h.given name).1 hsome)
    exact (Option.not_isSome_iff_eq_none.1 hnone).symm

theorem Fits.length_le (h : r.Fits names) : ∀ text ∈ (r.inOrder names).texts,
    text.length ≤ Csv.cellLimit := by
  intro text htext
  simp only [texts, inOrder, List.map_map, List.mem_map, Function.comp_apply] at htext
  obtain ⟨name, hname, rfl⟩ := htext
  obtain ⟨text, htext⟩ := Option.isSome_iff_exists.1 ((h.given name).2 hname)
  rw [htext]
  exact h.short name text htext

end Record

namespace Csv

/-! ## Quoted cells -/

/-- A text with every quote in it written twice. -/
def doubled (content : List Char) : List Char :=
  content.flatMap fun c => if c = '"' then ['"', '"'] else [c]

theorem doubled_cons (c : Char) (content : List Char) :
    doubled (c :: content) = (if c = '"' then ['"', '"'] else [c]) ++ doubled content := rfl

theorem writeCell_eq (cell : String) : writeCell cell = '"' :: (doubled cell.toList ++ ['"']) := rfl

section

variable {line size : Nat} {cells : List String} {acc content rest : List Char}

/-- What is written in a quoted cell is added to the cell, line ends too. -/
theorem rowsAlong_doubled (h : size + content.length ≤ cellLimit) :
    ∃ line', rowsAlong .lineFeed line ⟨.quoted, cells, acc, size⟩ (doubled content ++ '"' :: rest) =
      rowsAlong .lineFeed line' ⟨.quoted, cells, content.reverse ++ acc, size + content.length⟩
        ('"' :: rest) := by
  induction content generalizing line acc size with
  | nil => exact ⟨line, rfl⟩
  | cons c content ih =>
    have hsize : size < cellLimit := by simp only [List.length_cons] at h; omega
    have hrest : doubled content ++ '"' :: rest ≠ [] := by simp
    have hnext : ∃ line', rowsAlong .lineFeed line ⟨.quoted, cells, acc, size⟩
          (doubled (c :: content) ++ '"' :: rest) =
        rowsAlong .lineFeed line' ⟨.quoted, cells, c :: acc, size + 1⟩
          (doubled content ++ '"' :: rest) := by
      by_cases hquote : c = '"'
      · subst hquote
        refine ⟨line, ?_⟩
        show rowsAlong .lineFeed line ⟨.quoted, cells, acc, size⟩
          ('"' :: '"' :: (doubled content ++ '"' :: rest)) = _
        rw [rowsAlong_within (q := ⟨.quoteInQuoted, cells, acc, size⟩) rfl rfl]
        refine rowsAlong_within ?_ (lineOver_lineFeed hrest)
        simp [Partial.feed, Partial.add, hsize]
      · have hfeed : (⟨.quoted, cells, acc, size⟩ : Partial).feed c =
            .ok ⟨.quoted, cells, c :: acc, size + 1⟩ := by
          simp [Partial.feed, Partial.add, hquote, hsize]
        have hover := @lineOver_lineFeed c _ hrest
        rw [doubled_cons, if_neg hquote]
        by_cases hend : c = '\n'
        · exact ⟨line + 1, rowsAlong_over_quoted hfeed (hover.trans (decide_eq_true hend)) rfl⟩
        · exact ⟨line, rowsAlong_within hfeed (hover.trans (decide_eq_false hend))⟩
    obtain ⟨line₁, hfirst⟩ := hnext
    obtain ⟨line₂, hmore⟩ := @ih line₁ (size + 1) (c :: acc)
      (by simp only [List.length_cons] at h; omega)
    refine ⟨line₂, ?_⟩
    have hcount : size + 1 + content.length = size + (c :: content).length := by
      simp only [List.length_cons]
      omega
    rw [hfirst, hmore, hcount]
    simp

/-- A written cell, read where a cell can start. -/
theorem rowsAlong_writeCell {spot : Spot} {cell : String}
    (hspot : spot = .rowStart ∨ spot = .cellStart) (hcell : cell.length ≤ cellLimit)
    (hrest : rest ≠ []) :
    ∃ line', rowsAlong .lineFeed line ⟨spot, cells, [], 0⟩ (writeCell cell ++ rest) =
      rowsAlong .lineFeed line' ⟨.quoteInQuoted, cells, cell.toList.reverse, cell.length⟩ rest := by
  have hopen : (⟨spot, cells, [], 0⟩ : Partial).feed '"' = .ok ⟨.quoted, cells, [], 0⟩ := by
    rcases hspot with rfl | rfl <;> rfl
  have hlength : 0 + cell.toList.length ≤ cellLimit := by
    rwa [Nat.zero_add, String.length_toList]
  obtain ⟨line', hcontent⟩ := @rowsAlong_doubled line 0 cells [] cell.toList rest hlength
  refine ⟨line', ?_⟩
  rw [writeCell_eq, List.cons_append, List.append_assoc, List.singleton_append,
    rowsAlong_within hopen (lineOver_lineFeed (by simp)), hcontent]
  rw [List.append_nil, Nat.zero_add, String.length_toList]
  refine rowsAlong_within ?_ (lineOver_lineFeed hrest)
  simp [Partial.feed]

/-- The end of a written row. -/
theorem rowsAlong_lineEnd (lineEnd : LineEnd) (cell : String) :
    rowsAlong .lineFeed line ⟨.quoteInQuoted, cells, cell.toList.reverse, size⟩
        (lineEnd.chars ++ rest) =
      (⟨line + 1, cells.reverse ++ [cell]⟩ :: (rowsAlong .lineFeed (line + 1) .start rest).1,
        (rowsAlong .lineFeed (line + 1) .start rest).2) := by
  have hover : ∀ cs, lineOver .lineFeed '\n' cs = true := by
    intro cs
    simp [lineOver, LineRule.lineFeed]
  have hrow : ∀ spot, ((⟨spot, cells, cell.toList.reverse, size⟩ : Partial).save .rowStart).row =
      cells.reverse ++ [cell] := by
    intro spot
    simp [Partial.save, Partial.row]
  cases lineEnd with
  | lineFeed =>
    show rowsAlong .lineFeed line _ ('\n' :: rest) = _
    rw [rowsAlong_over (q := Partial.save _ .lineEnd) rfl (hover rest) rfl]
    rw [← hrow .quoteInQuoted]
    rfl
  | both =>
    show rowsAlong .lineFeed line _ ('\r' :: '\n' :: rest) = _
    rw [rowsAlong_within (q := Partial.save _ .lineEnd) rfl (lineOver_lineFeed (by simp)),
      rowsAlong_over (q := Partial.save _ .lineEnd) rfl (hover rest) rfl]
    rw [← hrow .quoteInQuoted]
    rfl

/-- A written row, read where a cell can start. -/
theorem rowsAlong_writeRow (lineEnd : LineEnd) {row : List String} {spot : Spot}
    (hspot : spot = .rowStart ∨ spot = .cellStart) (hrow : row ≠ [])
    (hcells : ∀ cell ∈ row, cell.length ≤ cellLimit) :
    ∃ line', rowsAlong .lineFeed line ⟨spot, cells, [], 0⟩ (writeRow lineEnd row ++ rest) =
      (⟨line', cells.reverse ++ row⟩ :: (rowsAlong .lineFeed line' .start rest).1,
        (rowsAlong .lineFeed line' .start rest).2) := by
  have hends : lineEnd.chars ++ rest ≠ [] := by cases lineEnd <;> simp [LineEnd.chars]
  induction row generalizing line cells spot with
  | nil => exact absurd rfl hrow
  | cons cell row ih =>
    have hcell : cell.length ≤ cellLimit := hcells cell List.mem_cons_self
    cases row with
    | nil =>
      obtain ⟨line', hread⟩ := @rowsAlong_writeCell line cells _ spot cell hspot hcell hends
      refine ⟨line' + 1, ?_⟩
      rw [writeRow, writeCells, List.append_assoc, hread]
      exact rowsAlong_lineEnd lineEnd cell
    | cons next row =>
      have hbehind : ',' :: (writeRow lineEnd (next :: row) ++ rest) ≠ [] := by simp
      obtain ⟨line₁, hread⟩ :=
        @rowsAlong_writeCell line cells _ spot cell hspot hcell hbehind
      obtain ⟨line₂, hmore⟩ := @ih line₁ (cell :: cells) .cellStart (.inr rfl) (by simp)
        (fun c hc => hcells c (List.mem_cons_of_mem _ hc))
      refine ⟨line₂, ?_⟩
      have hsplit : writeRow lineEnd (cell :: next :: row) ++ rest =
          writeCell cell ++ ',' :: (writeRow lineEnd (next :: row) ++ rest) := by
        simp [writeRow, writeCells]
      have hcomma : (⟨.quoteInQuoted, cells, cell.toList.reverse, cell.length⟩ : Partial).feed ',' =
          .ok ⟨.cellStart, cell :: cells, [], 0⟩ := by
        simp [Partial.feed, Partial.save]
      rw [hsplit, hread, rowsAlong_within hcomma (lineOver_lineFeed (by simp [writeRow, hends])),
        hmore]
      simp

end

/-! ## Written rows -/

/-- Written rows are read as they were written. -/
theorem rowsAlong_written (lineEnd : LineEnd) (line : Nat) {written : List (List String)}
    (hrows : ∀ row ∈ written, row ≠ [] ∧ ∀ cell ∈ row, cell.length ≤ cellLimit) :
    ∃ rows line', rowsAlong .lineFeed line .start (written.flatMap (writeRow lineEnd)) =
      (rows, .ok (line', .start)) ∧ rows.map (·.cells) = written := by
  induction written generalizing line with
  | nil => exact ⟨[], line, rfl, rfl⟩
  | cons row written ih =>
    obtain ⟨hne, hcells⟩ := hrows row List.mem_cons_self
    obtain ⟨line₁, hread⟩ := @rowsAlong_writeRow line [] (written.flatMap (writeRow lineEnd))
      lineEnd row .rowStart (.inl rfl) hne hcells
    obtain ⟨rows, line₂, hmore, hwritten⟩ :=
      ih line₁ fun row hrow => hrows row (List.mem_cons_of_mem _ hrow)
    refine ⟨⟨line₁, row⟩ :: rows, line₂, ?_, by rw [List.map_cons, hwritten]⟩
    rw [List.flatMap_cons]
    refine hread.trans ?_
    rw [hmore]
    rfl

/-- Rows as wide as the header, which are not blank, are all taken. -/
theorem recordsOf_eq_ok (table : String) {header : List String} {rows : List NumberedRow}
    (hheader : header ≠ []) (hrows : ∀ row ∈ rows, row.cells.length = header.length) :
    recordsOf table header rows = .ok (rows.map fun row => .ofFields (header.zip row.cells)) := by
  induction rows with
  | nil => rfl
  | cons row rows ih =>
    have hwidth : row.cells.length = header.length := hrows row List.mem_cons_self
    have hcells : row.cells ≠ [] := by
      intro hnil
      rw [hnil] at hwidth
      exact hheader (List.length_eq_zero_iff.1 hwidth.symm)
    rw [recordsOf, if_neg hcells, if_neg (fun h => h hwidth),
      ih fun row hrow => hrows row (List.mem_cons_of_mem _ hrow)]
    rfl

/-- What was written of some records is read as the table of these records, whatever their texts
hold: with their fields in the order of the header, and every field with its text. -/
theorem tableOfText_writeRecords (table : String) (lineEnd : LineEnd) {names : List String}
    {records : List Record} (hnames : names ≠ []) (hdistinct : names.Nodup)
    (hshort : ∀ name ∈ names, name.length ≤ cellLimit) (hfits : ∀ r ∈ records, r.Fits names) :
    tableOfText table (writeRecords lineEnd names records) =
        .ok (.ofRecords table (records.map (·.inOrder names))) ∧
      ∀ r ∈ records, ∀ name, (r.inOrder names).get? name = r.get? name := by
  refine ⟨?_, fun r hr => (hfits r hr).get?_inOrder⟩
  have hrows : ∀ row ∈ names :: records.map fun r => (r.inOrder names).texts,
      row ≠ [] ∧ ∀ cell ∈ row, cell.length ≤ cellLimit := by
    intro row hrow
    rcases List.mem_cons.1 hrow with rfl | hrow
    · exact ⟨hnames, hshort⟩
    · obtain ⟨r, hr, rfl⟩ := List.mem_map.1 hrow
      refine ⟨?_, (hfits r hr).length_le⟩
      rw [← List.length_pos_iff, Record.length_texts_inOrder]
      exact List.length_pos_iff.2 hnames
  obtain ⟨rows, line, hread, hcells⟩ := rowsAlong_written lineEnd 0 hrows
  obtain ⟨header, below, rfl, hheader, hbelow⟩ := List.map_eq_cons_iff.1 hcells
  have hfound : Csv.rows (cutLines .lineFeed (writeRecords lineEnd names records).toList) =
      (header :: below, none) := by
    rw [writeRecords, write, String.toList_ofList, rows_cutLines, hread]
    exact congrArg (·, none) (List.append_nil _)
  have hwidth : ∀ row ∈ below, row.cells.length = names.length := by
    intro row hrow
    have hmem : row.cells ∈ below.map (·.cells) := List.mem_map_of_mem hrow
    rw [hbelow] at hmem
    obtain ⟨r, -, hr⟩ := List.mem_map.1 hmem
    rw [← hr, Record.length_texts_inOrder]
  have hrecords : (below.map fun row => Record.ofFields (names.zip row.cells)) =
      records.map (·.inOrder names) := by
    calc below.map (fun row => Record.ofFields (names.zip row.cells))
        = (below.map (·.cells)).map fun cells => Record.ofFields (names.zip cells) := by simp
      _ = records.map fun r => Record.ofFields (r.inOrder names).fields := by
        simp [hbelow, Record.zip_texts_inOrder]
      _ = records.map (·.inOrder names) := by
        refine List.map_congr_left fun r _ => Record.ofFields_of_nodup ?_
        simpa [Record.inOrder, Function.comp_def] using hdistinct
  rw [tableOfText, tableOfLines, hfound]
  simp only [tableOfRows, hheader, recordsOf_eq_ok table hnames hwidth, hrecords]
  rfl

/-- A text with a comma, both characters of a line end and a quote, and an empty one. -/
theorem tableOfText_writeRecords_line_ends :
    tableOfText "t" (writeRecords .both ["a", ""] [⟨[("", "x\r,\n\""), ("a", "")]⟩]) =
      .ok (.ofRecords "t" [⟨[("a", ""), ("", "x\r,\n\"")]⟩]) := by
  have hfits : (⟨[("", "x\r,\n\""), ("a", "")]⟩ : Record).Fits ["a", ""] := by
    constructor
    · intro name
      by_cases h : "" = name
      · subst h
        decide
      · by_cases h' : "a" = name
        · subst h'
          decide
        · simp [Record.get?, valueOf?, h, h', Ne.symm h, Ne.symm h']
    · intro name text htext
      simp only [Record.get?, valueOf?] at htext
      split at htext
      · cases htext
        decide
      · split at htext <;> cases htext
        decide
  exact (tableOfText_writeRecords "t" .both (by decide) (by decide) (by decide)
    (by simpa using hfits)).1

end Csv

end MailMerge.Data
