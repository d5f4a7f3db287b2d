/-
Tables of texts are uniform: their records have the same fields, the distinct names of the header,
and a lookup finds out at the first record whether there are identities. Where a row is of a wrong
width the first such row is reported, with the line in which it ends.
-/
import Mathlib.Data.List.Forall2
import Mathlib.Data.List.Induction
import MailMerge.Data.Table.History
import MailMerge.Proofs.Data.Alike
import MailMerge.Proofs.Data.RowLines
import MailMerge.Proofs.List

namespace MailMerge.Data

/-! ## Records of a header -/

theorem map_fst_setValue {α : Type} (key : String) (value : α) (pairs : List (String × α)) :
    (setValue key value pairs).map (·.1) =
      if key ∈ pairs.map (·.1) then pairs.map (·.1) else pairs.map (·.1) ++ [key] := by
  induction pairs with
  | nil => rfl
  | cons pair pairs ih =>
    obtain ⟨k, v⟩ := pair
    by_cases hk : k = key
    · simp [setValue, hk]
    · rw [setValue, if_neg hk, List.map_cons, List.map_cons, ih]
      by_cases hmem : key ∈ pairs.map (·.1)
      · rw [if_pos hmem, if_pos (List.mem_cons_of_mem _ hmem)]
      · rw [if_neg hmem, if_neg (by simpa [Ne.symm hk] using hmem)]
        rfl

theorem valueOf?_eq_none_iff {α : Type} {key : String} {pairs : List (String × α)} :
    valueOf? key pairs = none ↔ key ∉ pairs.map (·.1) := by
  induction pairs with
  | nil => simp [valueOf?]
  | cons pair pairs ih =>
    obtain ⟨k, v⟩ := pair
    by_cases hk : k = key
    · simp [valueOf?, hk]
    · rw [valueOf?, if_neg hk, ih, List.map_cons, List.mem_cons]
      simp [Ne.symm hk]

namespace Record

theorem ofFields_concat (fields : List (String × String)) (field : String × String) :
    ofFields (fields ++ [field]) = (ofFields fields).set field.1 field.2 := by
  rw [ofFields, List.foldl_append]
  rfl

theorem names_ofFields (fields : List (String × String)) :
    (ofFields fields).names = (fields.map (·.1)).eraseDups := by
  induction fields using List.reverseRecOn with
  | nil => rfl
  | append_singleton fields field ih =>
    rw [ofFields_concat, names, set, map_fst_setValue, ← names, ih, List.map_append,
      List.map_singleton, eraseDups_concat]
    simp only [List.mem_eraseDups]

/-- Of fields of one name the last one counts. -/
theorem get?_ofFields (fields : List (String × String)) (name : String) :
    (ofFields fields).get? name = ((fields.filter (·.1 = name)).getLast?).map (·.2) := by
  induction fields using List.reverseRecOn with
  | nil => rfl
  | append_singleton fields field ih =>
    rw [ofFields_concat, get?_set, ih, List.filter_append]
    by_cases h : field.1 = name
    · simp [h]
    · simp [h, Ne.symm h]

/-- A record has the distinct names of a header as its fields, each with the cell in the last column
of that name. -/
structure Fills (r : Record) (header cells : List String) : Prop where
  names : r.names = header.eraseDups
  cell : ∀ (i : Nat) (name : String), header[i]? = some name →
    (∀ j > i, header[j]? ≠ some name) → r.get? name = cells[i]?

theorem fills_ofFields {header cells : List String} (h : cells.length = header.length) :
    (ofFields (header.zip cells)).Fills header cells := by
  constructor
  · rw [names_ofFields]
    exact congrArg List.eraseDups (List.map_fst_zip (Nat.le_of_eq h.symm))
  · intro i name hname hlast
    have hi : i < header.length := (List.getElem?_eq_some_iff.1 hname).1
    have hfield : (header.zip cells)[i]? = some (name, cells[i]) := by
      rw [List.getElem?_zip_eq_some]
      exact ⟨hname, List.getElem?_eq_getElem (h ▸ hi)⟩
    obtain ⟨hi', hfield⟩ := List.getElem?_eq_some_iff.1 hfield
    have hafter : ((header.zip cells).drop (i + 1)).filter (·.1 = name) = [] := by
      rw [List.filter_eq_nil_iff]
      intro field hmem hsame
      obtain ⟨j, hj⟩ := List.mem_iff_getElem?.1 hmem
      rw [List.getElem?_drop, List.getElem?_zip_eq_some] at hj
      exact hlast _ (by omega) (hj.1.trans (congrArg some (of_decide_eq_true hsame)))
    rw [get?_ofFields, ← List.take_append_drop i (header.zip cells), List.drop_eq_getElem_cons hi',
      hfield, List.filter_append, List.filter_cons_of_pos (by simp), hafter,
      List.getLast?_append]
    simp [List.getElem?_eq_getElem (h ▸ hi : i < cells.length)]

theorem id?_eq_none_iff {r : Record} {header : List String} (h : r.names = header.eraseDups) :
    r.id? = none ↔ idField ∉ header := by
  rw [id?, get?, valueOf?_eq_none_iff, ← names, h, List.mem_eraseDups]

end Record

/-! ## Tables of a header -/

namespace Table

variable {t : Table} {header : List String}

/-- Records with the same names make these the names of the table. -/
theorem fields_of_names (h : ∀ r ∈ t.records, r.names = header.eraseDups) :
    t.fields = if t.records = [] then [] else header.eraseDups := by
  unfold fields
  cases hrecords : t.records with
  | nil => rfl
  | cons r rest =>
    rw [hrecords] at h
    have hrest : rest.flatMap Record.names ⊆ r.names := by
      intro name hname
      obtain ⟨r', hr', hname⟩ := List.mem_flatMap.1 hname
      rw [h r' (List.mem_cons_of_mem _ hr')] at hname
      rwa [h r List.mem_cons_self]
    rw [List.flatMap_cons, eraseDups_append_of_subset hrest, h r List.mem_cons_self,
      eraseDups_eraseDups, if_neg (List.cons_ne_nil _ _)]

/-- Where the header has identities every record has one. -/
theorem Fresh.find?_of_mem (ht : t.Fresh) (h : ∀ r ∈ t.records, r.names = header.eraseDups)
    (hids : t.records = [] ∨ idField ∈ header) (key : String) :
    t.find? key = .ok (t.records.find? (·.id? = some key)) := by
  have hnone : t.records.findIdx? (·.id? = none) = none := by
    rw [List.findIdx?_eq_none_iff]
    intro r hr
    have : idField ∈ header := hids.resolve_left (List.ne_nil_of_mem hr)
    simpa [Record.id?_eq_none_iff (h r hr)] using this
  rw [ht.find?_eq, hnone]

/-- Where the header has none the first record has none. -/
theorem Fresh.find?_of_notMem (ht : t.Fresh) (h : ∀ r ∈ t.records, r.names = header.eraseDups)
    (hne : t.records ≠ []) (hids : idField ∉ header) (key : String) :
    t.find? key = .error (.recordWithoutId t.name 1) := by
  obtain ⟨r, rest, hcons⟩ := List.exists_cons_of_ne_nil hne
  have hid : r.id? = none := by
    rwa [Record.id?_eq_none_iff (h r (hcons ▸ List.mem_cons_self))]
  have hfirst : t.records.findIdx? (·.id? = none) = some 0 := by
    rw [hcons, List.findIdx?_cons]
    simp [hid]
  rw [ht.find?_eq, hfirst]

/-- Whether an action looks for a record. -/
def Action.looks : Action → Bool
  | .find _ | .require _ => true
  | .append _ | .remove _ | .set _ _ _ => false

/-- Looking for records changes no answer. -/
theorem answers_after_looks {actions : List Action} (h : ∀ a ∈ actions, a.looks = true)
    (key : String) :
    (t.after actions).find? key = t.find? key ∧
      (t.after actions).require key = t.require key := by
  induction actions generalizing t with
  | nil => exact ⟨rfl, rfl⟩
  | cons a actions ih =>
    have hstep : (t.perform a).2 = t.keepIndex := by
      have ha := h a List.mem_cons_self
      cases a with
      | find | require => rfl
      | append | remove | set => cases ha
    obtain ⟨hfind, hrequire⟩ :=
      ih (t := t.keepIndex) fun a' ha' => h a' (List.mem_cons_of_mem _ ha')
    show ((t.perform a).2.after actions).find? key = _ ∧
      ((t.perform a).2.after actions).require key = _
    rw [hstep, hfind, hrequire, find?_keepIndex, require_keepIndex]
    exact ⟨rfl, rfl⟩

/-- A table is that of a header and some rows: the rows that are not blank are as wide as the
header and are the records, in their order. The first record with an identity is the one that is
found, time and again, and if there are records without one, the first record has none. -/
structure Uniform (t : Table) (header : List String) (rows : List (List String)) : Prop where
  width : ∀ row ∈ rows, row ≠ [] → row.length = header.length
  records : List.Forall₂ (fun row r => Record.Fills r header row) (rows.filter (· ≠ [])) t.records
  fields : t.fields = if t.records = [] then [] else header.eraseDups
  found : t.records = [] ∨ idField ∈ header → ∀ looks : List Action,
    (∀ a ∈ looks, a.looks = true) → ∀ key, let first := t.records.find? (·.id? = some key)
      (t.after looks).find? key = .ok first ∧
      (t.after looks).require key =
        match first with
        | some record => .ok record
        | none => .error (.noSuchRecord t.name key)
  missing : t.records ≠ [] → idField ∉ header → ∀ looks : List Action,
    (∀ a ∈ looks, a.looks = true) → ∀ key,
      (t.after looks).find? key = .error (.recordWithoutId t.name 1) ∧
      (t.after looks).require key = .error (.recordWithoutId t.name 1)

/-- A table that nothing was done with yet, with the records of its rows. -/
theorem Fresh.uniform {rows : List (List String)} (hfresh : t.Fresh)
    (hwidth : ∀ row ∈ rows, row ≠ [] → row.length = header.length)
    (hrecords : t.records =
      (rows.filter (· ≠ [])).map fun row => Record.ofFields (header.zip row)) :
    t.Uniform header rows := by
  have hfills : ∀ row ∈ rows.filter (· ≠ []),
      (Record.ofFields (header.zip row)).Fills header row := by
    intro row hrow
    obtain ⟨hrow, hne⟩ := List.mem_filter.1 hrow
    exact Record.fills_ofFields (hwidth row hrow (of_decide_eq_true hne))
  have hnames : ∀ r ∈ t.records, r.names = header.eraseDups := by
    intro r hr
    rw [hrecords] at hr
    obtain ⟨row, hrow, rfl⟩ := List.mem_map.1 hr
    exact (hfills row hrow).names
  refine ⟨hwidth, ?_, fields_of_names hnames, ?_, ?_⟩
  · rw [hrecords, List.forall₂_map_right_iff, List.forall₂_same]
    exact hfills
  · intro hids looks hlooks key
    obtain ⟨hfind, hrequire⟩ := answers_after_looks (t := t) hlooks key
    refine ⟨hfind.trans (hfresh.find?_of_mem hnames hids key), hrequire.trans ?_⟩
    rw [require, hfresh.find?_of_mem hnames hids]
    cases t.records.find? (·.id? = some key) <;> rfl
  · intro hne hids looks hlooks key
    obtain ⟨hfind, hrequire⟩ := answers_after_looks (t := t) hlooks key
    refine ⟨hfind.trans (hfresh.find?_of_notMem hnames hne hids key), hrequire.trans ?_⟩
    rw [require, hfresh.find?_of_notMem hnames hne hids]
    rfl

end Table

namespace Csv

open MailMerge.Text

/-! ## Rows and records -/

/-- Whether a row is neither blank nor as wide as the header. -/
def isRagged (header : List String) (row : NumberedRow) : Bool :=
  row.cells ≠ [] && row.cells.length ≠ header.length

/-- The first ragged row is reported; where there is none, the rows that are not blank are the
records. -/
theorem recordsOf_eq (table : String) (header : List String) (rows : List NumberedRow) :
    recordsOf table header rows =
      match rows.find? (isRagged header) with
      | some row => .error ⟨table, row.line, header.length, row.cells.length⟩
      | none =>
        .ok ((rows.filter (·.cells ≠ [])).map fun row => .ofFields (header.zip row.cells)) := by
  induction rows with
  | nil => rfl
  | cons row rows ih =>
    by_cases hblank : row.cells = []
    · have hragged : isRagged header row = false := by simp [isRagged, hblank]
      rw [recordsOf, if_pos hblank, ih, List.find?_cons_of_neg (by simp [hragged]),
        List.filter_cons_of_neg (by simp [hblank])]
    · by_cases hwidth : row.cells.length = header.length
      · have hragged : isRagged header row = false := by simp [isRagged, hwidth]
        rw [recordsOf, if_neg hblank, if_neg (fun h => h hwidth), ih,
          List.find?_cons_of_neg (by simp [hragged]),
          List.filter_cons_of_pos (by simpa using hblank)]
        cases rows.find? (isRagged header) <;> rfl
      · have hragged : isRagged header row = true := by simp [isRagged, hblank, hwidth]
        rw [recordsOf, if_neg hblank, if_pos hwidth, List.find?_cons_of_pos hragged]

/-- The cells of the first row. -/
def headerOf (rows : List NumberedRow) : List String :=
  (rows.head?.map (·.cells)).getD []

theorem tableOfFound_eq (name : String) (rows : List NumberedRow) (fault : Option Fault) :
    tableOfFound name rows fault =
      match rows.tail.find? (isRagged (headerOf rows)), fault with
      | some row, _ => .error (.width ⟨name, row.line, (headerOf rows).length, row.cells.length⟩)
      | none, some e => .error (.csv e)
      | none, none => .ok (.ofRecords name ((rows.tail.filter (·.cells ≠ [])).map fun row =>
          .ofFields ((headerOf rows).zip row.cells))) := by
  cases rows with
  | nil => cases fault <;> rfl
  | cons header rows =>
    simp only [tableOfFound, recordsBelow, recordsOf_eq, headerOf, List.head?_cons, Option.map_some,
      Option.getD_some, List.tail_cons]
    cases rows.find? (isRagged header.cells) <;> cases fault <;> rfl

section

variable {name : String} {rows : List NumberedRow} {fault : Option Fault}

theorem tableOfFound_eq_ok_iff {t : Table} :
    tableOfFound name rows fault = .ok t ↔
      fault = none ∧ (∀ row ∈ rows.tail, isRagged (headerOf rows) row = false) ∧
        t = .ofRecords name ((rows.tail.filter (·.cells ≠ [])).map fun row =>
          .ofFields ((headerOf rows).zip row.cells)) := by
  have hnone : rows.tail.find? (isRagged (headerOf rows)) = none ↔
      ∀ row ∈ rows.tail, isRagged (headerOf rows) row = false := by
    simp only [List.find?_eq_none, Bool.not_eq_true]
  rw [tableOfFound_eq, ← hnone]
  cases rows.tail.find? (isRagged (headerOf rows)) with
  | some row => simp
  | none => cases fault <;> simp [eq_comm]

theorem tableOfFound_eq_width_iff {e : WidthFault} :
    tableOfFound name rows fault = .error (.width e) ↔
      ∃ row, rows.tail.find? (isRagged (headerOf rows)) = some row ∧
        e = ⟨name, row.line, (headerOf rows).length, row.cells.length⟩ := by
  rw [tableOfFound_eq]
  cases rows.tail.find? (isRagged (headerOf rows)) with
  | some row => simp [eq_comm]
  | none => cases fault <;> simp

end

/-- The table of a text. There is one if the rows can be read and none below the header is ragged;
then it is that of its rows below the header. If one is ragged the first such row is reported, with
the number of the line in which it ends: the lines up to this one are those of the rows up to it. -/
theorem uniform_tableOfText (name text : String) :
    let lines := cutLines .lineFeed text.toList
    let found := rows lines
    let header := headerOf found.1
    RowsIn 0 lines found.1 found.2 ∧
    ((∃ t, tableOfText name text = .ok t) ↔
      found.2 = none ∧ ∀ row ∈ found.1.tail, isRagged header row = false) ∧
    (∀ t, tableOfText name text = .ok t →
      t.name = name ∧ t.Uniform header (found.1.tail.map (·.cells))) ∧
    ((∃ e, tableOfText name text = .error (.width e)) ↔
      ∃ row ∈ found.1.tail, isRagged header row = true) ∧
    ∀ e, tableOfText name text = .error (.width e) →
      ∃ first before row after, found.1 = first :: (before ++ row :: after) ∧
        (∀ r ∈ before, isRagged header r = false) ∧ isRagged header row = true ∧
        e = ⟨name, row.line, header.length, row.cells.length⟩ ∧
        RowsIn 0 (lines.take e.line) (first :: (before ++ [row])) none := by
  intro lines found header
  have hrows : RowsIn 0 lines found.1 found.2 := rowsIn_rows lines
  have htable : tableOfText name text = tableOfFound name found.1 found.2 :=
    tableOfLines_eq name lines
  simp only [htable, tableOfFound_eq_ok_iff, tableOfFound_eq_width_iff]
  refine ⟨hrows, by simp [header], ?_, ?_, ?_⟩
  · rintro t ⟨-, hwidth, rfl⟩
    refine ⟨rfl, (Table.fresh_ofRecords _ _).uniform ?_ ?_⟩
    · intro cells hcells hne
      obtain ⟨row, hrow, rfl⟩ := List.mem_map.1 hcells
      simpa [isRagged, hne] using hwidth row hrow
    · rw [Table.records_ofRecords, List.filter_map, List.map_map]
      rfl
  · rw [← List.find?_isSome, Option.isSome_iff_exists]
    simp [header]
  · rintro e ⟨row, hfind, rfl⟩
    obtain ⟨hragged, before, after, htail, hbefore⟩ := List.find?_eq_some_iff_append.1 hfind
    have hne : found.1 ≠ [] := by
      intro hnil
      simp [hnil] at htail
    obtain ⟨first, below, hfound⟩ := List.exists_cons_of_ne_nil hne
    obtain rfl : below = before ++ row :: after := by rwa [hfound] at htail
    rw [hfound, ← List.cons_append] at hrows
    obtain ⟨front, back, hlines, hnumber, hfront⟩ := hrows.take
    refine ⟨first, before, row, after, hfound, fun r hr => ?_, hragged, rfl, ?_⟩
    · simpa using hbefore r hr
    · rw [Nat.zero_add] at hnumber
      rw [hlines, hnumber, List.take_left]
      exact hfront

/-- A blank row and a cell of two lines. In the first text a name is given twice, and its last
column counts; the second one has no identities, which every lookup finds at its first record; and
in the third one the row in line five is the first that is ragged. -/
theorem uniform_tableOfText_two_lines :
    (∃ t, tableOfText "t" "a,$id,a\n\n\"1\n2\",x,3\n" = .ok t ∧ t.fields = ["a", "$id"] ∧
      t.find? "x" = .ok (some ⟨[("a", "3"), ("$id", "x")]⟩)) ∧
    (∃ t, tableOfText "t" "a\n\n\"1\n2\"\n" = .ok t ∧
      (t.after [.find "x"]).require "x" = .error (.recordWithoutId "t" 1)) ∧
    ∃ e, tableOfText "t" "a,b\n\n\"1\n2\",3\n4\n" = .error (.width e) ∧
      ∃ first before row after,
        (rows (cutLines .lineFeed "a,b\n\n\"1\n2\",3\n4\n".toList)).1 =
          first :: (before ++ row :: after) ∧ e = ⟨"t", 5, 2, 1⟩ := by
  have hread : tableOfText "t" "a,$id,a\n\n\"1\n2\",x,3\n" =
      .ok (.ofRecords "t" [⟨[("a", "3"), ("$id", "x")]⟩]) := by
    rfl
  have hnoIds : tableOfText "t" "a\n\n\"1\n2\"\n" = .ok (.ofRecords "t" [⟨[("a", "1\n2")]⟩]) := by
    rfl
  have hragged : tableOfText "t" "a,b\n\n\"1\n2\",3\n4\n" = .error (.width ⟨"t", 5, 2, 1⟩) := by
    rfl
  obtain ⟨-, -, huniform, -, -⟩ := uniform_tableOfText "t" "a,$id,a\n\n\"1\n2\",x,3\n"
  obtain ⟨-, -, huniform', -, -⟩ := uniform_tableOfText "t" "a\n\n\"1\n2\"\n"
  obtain ⟨-, -, -, -, hreport⟩ := uniform_tableOfText "t" "a,b\n\n\"1\n2\",3\n4\n"
  obtain ⟨-, htable⟩ := huniform _ hread
  obtain ⟨-, htable'⟩ := huniform' _ hnoIds
  have hfound := (htable.found (.inr (by decide)) [] (by simp) "x").1
  have hmissing := (htable'.missing (by decide) (by decide) [.find "x"] (by decide) "x").2
  obtain ⟨first, before, row, after, hrows, -, -, -, -⟩ := hreport _ hragged
  exact ⟨⟨_, hread, htable.fields, hfound⟩, ⟨_, hnoIds, hmissing⟩,
    _, hragged, first, before, row, after, hrows, rfl⟩

end Csv

end MailMerge.Data
