/-
What a table finds before it has kept an index: the first record with the identity, unless some
record of the table has none. The index leads to records by their serial numbers, so all that counts
is that no two rows have the same one.
-/
import MailMerge.Data.Definition

namespace MailMerge.Data

theorem mem_of_valueOf? {α : Type} {key : String} {value : α} {pairs : List (String × α)}
    (h : valueOf? key pairs = some value) : (key, value) ∈ pairs := by
  induction pairs with
  | nil => cases h
  | cons pair pairs ih =>
    obtain ⟨k, v⟩ := pair
    rw [valueOf?] at h
    split at h
    · rename_i hk
      cases h
      rw [hk]
      exact List.mem_cons_self
    · exact List.mem_cons_of_mem _ (ih h)

namespace Table

/-- No record was looked for in the table yet, and its rows can be told apart. -/
structure Fresh (t : Table) : Prop where
  noIndex : t.index = none
  serials : (t.rows.map (·.serial)).Nodup

theorem records_ofRecords (name : String) (records : List Record) :
    (ofRecords name records).records = records := by
  apply List.ext_getElem?
  intro i
  rw [Table.records, ofRecords, List.getElem?_map, List.getElem?_mapIdx]
  cases records[i]? <;> rfl

theorem fresh_ofRecords (name : String) (records : List Record) :
    (ofRecords name records).Fresh := by
  constructor
  · rfl
  have hserials : (ofRecords name records).rows.map (·.serial) = List.range records.length := by
    apply List.ext_getElem?
    intro i
    by_cases hi : i < records.length <;> simp [ofRecords, hi]
  rw [hserials]
  exact List.nodup_range

/-! ## Rows and their serial numbers -/

/-- An index leads from an identity to the first row that has it. -/
theorem valueOf?_index (rows : List Row) (key : String) :
    valueOf? key (rows.filterMap fun row => row.record.id?.map (·, row.serial)) =
      (rows.find? (·.record.id? = some key)).map (·.serial) := by
  induction rows with
  | nil => rfl
  | cons row rows ih =>
    cases hid : row.record.id? with
    | none => simp [hid, ih]
    | some id =>
      by_cases h : id = key
      · simp [hid, valueOf?, h]
      · simp [hid, valueOf?, h, ih]

/-- A row is found again by its serial number. -/
theorem find?_serial {rows : List Row} (h : (rows.map (·.serial)).Nodup) {row : Row}
    (hrow : row ∈ rows) : rows.find? (·.serial = row.serial) = some row := by
  induction rows with
  | nil => simp at hrow
  | cons first rows ih =>
    rw [List.map_cons, List.nodup_cons] at h
    rcases List.mem_cons.1 hrow with rfl | hrow
    · simp
    · have hne : first.serial ≠ row.serial := by
        intro heq
        exact h.1 (heq ▸ List.mem_map_of_mem hrow)
      simpa [hne] using ih h.2 hrow

/-! ## Finding records -/

/-- The row that an index leads to is found by its serial number. -/
theorem Fresh.recordOf_index {t : Table} (h : t.Fresh) (key : String) :
    (valueOf? key (t.rows.filterMap fun row => row.record.id?.map (·, row.serial))).bind t.recordOf =
      t.records.find? (·.id? = some key) := by
  rw [valueOf?_index, records, List.find?_map]
  show _ = (t.rows.find? (·.record.id? = some key)).map (·.record)
  cases hrow : t.rows.find? (·.record.id? = some key) with
  | none => rfl
  | some row =>
    have hserial := find?_serial h.serials (List.mem_of_find?_eq_some hrow)
    simp [recordOf, List.find?_append, hserial]

/-- The record with an identity is the first one that has it. -/
theorem Fresh.find?_eq {t : Table} (h : t.Fresh) (key : String) :
    t.find? key =
      match t.records.findIdx? (·.id? = none) with
      | some i => .error (.recordWithoutId t.name (i + 1))
      | none => .ok (t.records.find? (·.id? = some key)) := by
  unfold find? currentIndex freshIndex
  rw [h.noIndex]
  by_cases hrows : t.rows = []
  · simp [hrows, records]
  · rw [if_neg hrows]
    cases t.records.findIdx? (·.id? = none) with
    | some i => rfl
    | none => exact congrArg Except.ok (h.recordOf_index key)

theorem Fresh.require_eq_ok_iff {t : Table} (h : t.Fresh) {key : String} {record : Record} :
    t.require key = .ok record ↔
      t.records.findIdx? (·.id? = none) = none ∧
        t.records.find? (·.id? = some key) = some record := by
  unfold require
  rw [h.find?_eq]
  constructor
  · intro hrecord
    cases hids : t.records.findIdx? (·.id? = none) with
    | some i =>
      rw [hids] at hrecord
      cases hrecord
    | none =>
      rw [hids] at hrecord
      cases hfirst : t.records.find? (·.id? = some key) with
      | none =>
        rw [hfirst] at hrecord
        cases hrecord
      | some first =>
        rw [hfirst] at hrecord
        cases hrecord
        exact ⟨rfl, rfl⟩
  · rintro ⟨hids, hfirst⟩
    rw [hids, hfirst]
    rfl

end Table

namespace Definition

/-- No record was looked for in any table yet. -/
def Fresh (d : Definition) : Prop :=
  ∀ entry ∈ d.tables, entry.2.Fresh

theorem fresh_ofRecords (vars : List Record) (tables : List (String × List Record)) :
    (ofRecords vars tables).Fresh := by
  intro entry h
  obtain ⟨⟨name, records⟩, -, rfl⟩ := List.mem_map.1 h
  exact Table.fresh_ofRecords name records

theorem Fresh.table? {d : Definition} (h : d.Fresh) {name : String} {t : Table}
    (ht : d.table? name = some t) : t.Fresh :=
  h (name, t) (mem_of_valueOf? ht)

end Definition

end MailMerge.Data
