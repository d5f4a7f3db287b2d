/-
Definitions as they are built, from records or from texts: no record was looked for yet, and each
table bears the name that lookups have for it. Two of them that hold the same records under a name
cannot be told apart there.
-/
import MailMerge.Data.Csv
import MailMerge.Proofs.Data.Alike
import MailMerge.Proofs.Except

namespace MailMerge.Data

theorem Table.Fresh.alike {t t' : Table} (h : t.Fresh) (h' : t'.Fresh) (hname : t.name = t'.name)
    (hrecords : t.records = t'.records) : t.Alike t' := by
  refine ⟨hname, hrecords, ?_⟩
  intro key
  rw [h.find?_eq, h'.find?_eq, hname, hrecords]

/-! ## Tables of texts -/

namespace Csv

theorem tableOfRows_eq_ok {name : String} {rows : List NumberedRow} {t : Table}
    (h : tableOfRows name rows = .ok t) : ∃ records, t = .ofRecords name records := by
  cases rows with
  | nil =>
    cases h
    exact ⟨[], rfl⟩
  | cons header rows =>
    rw [tableOfRows] at h
    cases hrecords : recordsOf name header.cells rows with
    | error e => rw [hrecords] at h; cases h
    | ok records =>
      rw [hrecords] at h
      cases h
      exact ⟨records, rfl⟩

theorem tableOfText_eq_ok {name text : String} {t : Table} (h : tableOfText name text = .ok t) :
    ∃ records, t = .ofRecords name records := by
  unfold tableOfText tableOfLines at h
  generalize rows (Text.cutLines .lineFeed text.toList) = found at h
  obtain ⟨rows, fault⟩ := found
  cases htable : tableOfRows name rows with
  | error e =>
    simp only [htable] at h
    cases h
  | ok table =>
    simp only [htable] at h
    cases fault with
    | some e => cases h
    | none =>
      cases h
      exact tableOfRows_eq_ok htable

end Csv

/-! ## Definitions -/

namespace Definition

/-- A definition as it is built. -/
structure Built (d : Definition) : Prop where
  fresh : d.Fresh
  named : ∀ entry ∈ d.tables, entry.2.name = entry.1

theorem built_of_tables {d : Definition}
    (h : ∀ entry ∈ d.tables, ∃ records, entry.2 = .ofRecords entry.1 records) : d.Built := by
  constructor
  · intro entry hentry
    obtain ⟨records, hrecords⟩ := h entry hentry
    rw [hrecords]
    exact Table.fresh_ofRecords entry.1 records
  · intro entry hentry
    obtain ⟨records, hrecords⟩ := h entry hentry
    rw [hrecords]
    rfl

theorem built_ofRecords (vars : List Record) (tables : List (String × List Record)) :
    (ofRecords vars tables).Built := by
  apply built_of_tables
  intro entry hentry
  obtain ⟨⟨name, records⟩, -, rfl⟩ := List.mem_map.1 hentry
  exact ⟨records, rfl⟩

theorem built_of_definitionOfTexts {vars : String} {texts : List (String × String)}
    {d : Definition} (h : Csv.definitionOfTexts vars texts = .ok d) : d.Built := by
  obtain ⟨varsTable, -, h⟩ := bind_eq_ok h
  obtain ⟨tables, htables, h⟩ := bind_eq_ok h
  cases h
  apply built_of_tables
  intro entry hentry
  obtain ⟨⟨name, text⟩, -, htext⟩ := exists_of_mapM_eq_ok htables hentry
  obtain ⟨t, ht, hpure⟩ := bind_eq_ok htext
  cases hpure
  exact Csv.tableOfText_eq_ok ht

theorem Built.alikeAt {d d' : Definition} (h : d.Built) (h' : d'.Built) {name : String}
    (hrecords : (d.table? name).map Table.records = (d'.table? name).map Table.records) :
    d.AlikeAt d' name := by
  unfold AlikeAt
  cases ht : d.table? name with
  | none =>
    cases ht' : d'.table? name with
    | none => exact .none
    | some t' =>
      rw [ht, ht'] at hrecords
      cases hrecords
  | some t =>
    cases ht' : d'.table? name with
    | none =>
      rw [ht, ht'] at hrecords
      cases hrecords
    | some t' =>
      rw [ht, ht'] at hrecords
      have hname : t.name = t'.name :=
        (h.named _ (mem_of_valueOf? ht)).trans (h'.named _ (mem_of_valueOf? ht')).symm
      exact .some ((h.fresh.table? ht).alike (h'.fresh.table? ht') hname (Option.some.inj hrecords))

end Definition

end MailMerge.Data
