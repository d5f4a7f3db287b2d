/-
Indexes that are kept do not show. A table whose index is that of its rows as they are answers like
one that was built anew from its records, and goes on doing so whatever is looked for in it.
-/
import MailMerge.Proofs.Data.Table

namespace MailMerge.Data

theorem valueOf?_map {α β : Type} (f : String → α → β) (key : String) (pairs : List (String × α)) :
    valueOf? key (pairs.map fun (k, v) => (k, f k v)) = (valueOf? key pairs).map (f key) := by
  induction pairs with
  | nil => rfl
  | cons pair pairs ih =>
    obtain ⟨k, v⟩ := pair
    by_cases hk : k = key
    · subst hk
      simp [valueOf?]
    · simpa [valueOf?, hk] using ih

namespace Table

/-! ## Indexes that are kept -/

/-- What looking for a record can do to a table: nothing, or an index is kept. -/
theorem keepIndex_cases (t : Table) :
    t.keepIndex = t ∨
      ∃ index, t.rows ≠ [] ∧ t.currentIndex = .ok index ∧
        t.keepIndex = { t with index := some index } := by
  by_cases hrows : t.rows = []
  · exact .inl (if_pos hrows)
  · cases hindex : t.currentIndex with
    | error fault => exact .inl (by rw [keepIndex, if_neg hrows, hindex])
    | ok index => exact .inr ⟨index, hrows, rfl, by rw [keepIndex, if_neg hrows, hindex]⟩

theorem name_keepIndex (t : Table) : t.keepIndex.name = t.name := by
  rcases t.keepIndex_cases with h | ⟨index, -, -, h⟩ <;> rw [h]

theorem records_keepIndex (t : Table) : t.keepIndex.records = t.records := by
  rcases t.keepIndex_cases with h | ⟨index, -, -, h⟩ <;> rw [h]
  rfl

theorem withoutIndex_keepIndex (t : Table) : t.keepIndex.withoutIndex = t.withoutIndex := by
  rcases t.keepIndex_cases with h | ⟨index, -, -, h⟩ <;> rw [h]
  rfl

/-- An index that is kept is kept for good. -/
theorem keepIndex_keepIndex (t : Table) : t.keepIndex.keepIndex = t.keepIndex := by
  rcases t.keepIndex_cases with h | ⟨index, hrows, -, h⟩
  · rw [h, h]
  · rw [h]
    exact if_neg hrows

/-- No index is kept, or that of the rows as they are; and the rows can be told apart. -/
structure UpToDate (t : Table) : Prop where
  index : ∀ index, t.index = some index → t.freshIndex = .ok index
  serials : (t.rows.map (·.serial)).Nodup

theorem Fresh.upToDate {t : Table} (h : t.Fresh) : t.UpToDate := by
  refine ⟨?_, h.serials⟩
  intro index hindex
  rw [h.noIndex] at hindex
  cases hindex

theorem UpToDate.fresh_withoutIndex {t : Table} (h : t.UpToDate) : t.withoutIndex.Fresh :=
  ⟨rfl, h.serials⟩

/-- An index that is up to date is the one that would be built. -/
theorem UpToDate.currentIndex_eq {t : Table} (h : t.UpToDate) : t.currentIndex = t.freshIndex := by
  unfold currentIndex
  cases hindex : t.index with
  | none => rfl
  | some index => exact (h.index index hindex).symm

theorem UpToDate.keepIndex {t : Table} (h : t.UpToDate) : t.keepIndex.UpToDate := by
  rcases t.keepIndex_cases with hkeep | ⟨index, -, hindex, hkeep⟩ <;> rw [hkeep]
  · exact h
  · refine ⟨?_, h.serials⟩
    intro kept hkept
    cases hkept
    exact h.currentIndex_eq ▸ hindex

/-! ## Tables that answer alike -/

/-- Two tables that cannot be told apart by looking for records and by going through them. -/
structure Alike (t t' : Table) : Prop where
  name : t.name = t'.name
  records : t.records = t'.records
  find? : ∀ key, t.find? key = t'.find? key

theorem Alike.require {t t' : Table} (h : t.Alike t') (key : String) :
    t.require key = t'.require key := by
  unfold Table.require
  rw [h.find? key, h.name]

theorem require_keepIndex (t : Table) (key : String) : t.keepIndex.require key = t.require key := by
  unfold require
  rw [find?_keepIndex, name_keepIndex]

/-- A table built anew answers as the one whose records it got. -/
theorem UpToDate.alike_rebuilt {t : Table} (h : t.UpToDate) : t.Alike t.rebuilt := by
  refine ⟨rfl, (records_ofRecords t.name t.records).symm, ?_⟩
  intro key
  have hfind : t.find? key = t.withoutIndex.find? key := by
    unfold Table.find?
    rw [h.currentIndex_eq]
    rfl
  have hrebuilt : t.rebuilt = ofRecords t.name t.records := rfl
  rw [hfind, hrebuilt, h.fresh_withoutIndex.find?_eq, (fresh_ofRecords t.name t.records).find?_eq,
    records_ofRecords]
  rfl

end Table

/-! ## Definitions -/

namespace Definition

theorem table?_keepIndexes (d : Definition) (names : List String) (name : String) :
    (d.keepIndexes names).table? name =
      (d.table? name).map fun t => if name ∈ names then t.keepIndex else t :=
  valueOf?_map (fun n (t : Table) => if n ∈ names then t.keepIndex else t) name d.tables

theorem table?_rebuilt (d : Definition) (name : String) :
    d.rebuilt.table? name = (d.table? name).map Table.rebuilt :=
  valueOf?_map (fun _ => Table.rebuilt) name d.tables

@[simp] theorem keepIndexes_nil (d : Definition) : d.keepIndexes [] = d := by
  simp [keepIndexes]

theorem keepIndexes_append (d : Definition) (names more : List String) :
    d.keepIndexes (names ++ more) = (d.keepIndexes names).keepIndexes more := by
  unfold keepIndexes
  rw [List.map_map]
  congr 2
  funext ⟨name, t⟩
  -- A table in both lists has its index from the first time, and the second one changes nothing.
  by_cases hn : name ∈ names <;> by_cases hm : name ∈ more <;>
    simp [hn, hm, Table.keepIndex_keepIndex]

@[simp] theorem withoutIndexes_keepIndexes (d : Definition) (names : List String) :
    (d.keepIndexes names).withoutIndexes = d.withoutIndexes := by
  unfold withoutIndexes keepIndexes
  rw [List.map_map]
  congr 2
  funext ⟨name, t⟩
  by_cases hn : name ∈ names <;> simp [hn, Table.withoutIndex_keepIndex]

/-- What is built anew does not depend on the indexes. -/
theorem rebuilt_withoutIndexes (d : Definition) : d.withoutIndexes.rebuilt = d.rebuilt := by
  unfold rebuilt withoutIndexes
  rw [List.map_map]
  rfl

/-- No table keeps an index that is out of date. -/
def UpToDate (d : Definition) : Prop :=
  ∀ entry ∈ d.tables, entry.2.UpToDate

theorem Fresh.upToDate {d : Definition} (h : d.Fresh) : d.UpToDate :=
  fun entry hentry => (h entry hentry).upToDate

theorem UpToDate.keepIndexes {d : Definition} (h : d.UpToDate) (names : List String) :
    (d.keepIndexes names).UpToDate := by
  intro entry hentry
  obtain ⟨⟨name, t⟩, ht, rfl⟩ := List.mem_map.1 hentry
  by_cases hn : name ∈ names
  · simpa [hn] using (h _ ht).keepIndex
  · simpa [hn] using h _ ht

/-- A name leads to tables that are alike, or to none in both definitions. -/
def AlikeAt (d d' : Definition) (name : String) : Prop :=
  Option.Rel Table.Alike (d.table? name) (d'.table? name)

theorem AlikeAt.refl (d : Definition) (name : String) : d.AlikeAt d name := by
  unfold AlikeAt
  cases d.table? name with
  | none => exact .none
  | some t => exact .some ⟨rfl, rfl, fun _ => rfl⟩

theorem UpToDate.alikeAt_rebuilt {d : Definition} (h : d.UpToDate) (name : String) :
    d.AlikeAt d.rebuilt name := by
  unfold AlikeAt
  rw [table?_rebuilt]
  cases ht : d.table? name with
  | none => exact .none
  | some t => exact .some (h _ (mem_of_valueOf? ht)).alike_rebuilt

end Definition

end MailMerge.Data
