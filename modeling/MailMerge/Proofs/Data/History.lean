/-
What a table answers depends on its history. Until its index is built it answers from the records as
they are; from then on it answers with the records that the index was built from, each as it is now,
whatever became of the table.

The index leads to records by their serial numbers. What carries the proof is that no two rows ever
get the same one, those that were removed included, so that a row can be followed from the moment at
which the index was built.
-/
import Mathlib.Data.List.InsertIdx
import Mathlib.Data.List.Perm.Basic
import MailMerge.Data.Table.History
import MailMerge.Proofs.Data.Alike
import MailMerge.Proofs.List

namespace MailMerge.Data

namespace Table

/-! ## Serial numbers -/

/-- The serial numbers of all rows, those that were removed included. -/
def serials (t : Table) : List Nat :=
  (t.rows ++ t.removed).map (·.serial)

/-- The rows can be told apart, and the next one from all of them. -/
structure Distinct (t : Table) : Prop where
  nodup : t.serials.Nodup
  next : ∀ serial ∈ t.serials, serial < t.nextSerial

theorem serials_append (t : Table) (record : Record) :
    (t.append record).serials.Perm (t.nextSerial :: t.serials) := by
  simp only [serials, append, List.map_append, List.map_cons, List.append_assoc,
    List.singleton_append]
  exact List.perm_middle

theorem serials_removeAt (t : Table) (i : Nat) : (t.removeAt i).serials.Perm t.serials := by
  refine List.Perm.map _ ?_
  show (t.rows.eraseIdx i ++ (t.removed ++ (t.rows[i]?).toList)).Perm (t.rows ++ t.removed)
  by_cases hi : i < t.rows.length
  · rw [List.getElem?_eq_getElem hi, Option.toList_some, ← List.append_assoc]
    refine (List.perm_append_singleton _ _).trans ?_
    rw [← List.cons_append]
    exact (List.getElem_cons_eraseIdx_perm hi).append_right _
  · rw [List.getElem?_eq_none (by omega), List.eraseIdx_of_length_le (by omega)]
    simp

theorem serials_setField (t : Table) (i : Nat) (field value : String) :
    (t.setField i field value).serials = t.serials := by
  have hmap := map_modify (f := fun row : Row => row.serial) (h := id)
    (g := fun row => { row with record := row.record.set field value }) (fun _ => rfl) i t.rows
  have hrows : (t.setField i field value).rows.map (·.serial) = t.rows.map (·.serial) :=
    hmap.trans (List.modify_id ..)
  unfold serials
  rw [List.map_append, List.map_append, hrows]
  rfl

theorem Distinct.perform {t : Table} (h : t.Distinct) (a : Action) : (t.perform a).2.Distinct := by
  have hkeep : t.keepIndex.Distinct := by
    rcases t.keepIndex_cases with hkeep | ⟨index, -, -, hkeep⟩ <;> rw [hkeep]
    · exact h
    · exact ⟨h.nodup, h.next⟩
  cases a with
  | find key => exact hkeep
  | require key => exact hkeep
  | append record =>
    have hperm := t.serials_append record
    refine ⟨?_, ?_⟩
    · refine hperm.nodup_iff.2 (List.nodup_cons.2 ⟨fun hmem => ?_, h.nodup⟩)
      exact Nat.lt_irrefl _ (h.next _ hmem)
    · intro serial hserial
      rcases List.mem_cons.1 (hperm.mem_iff.1 hserial) with rfl | hserial
      · exact Nat.lt_succ_self _
      · exact Nat.lt_succ_of_lt (h.next serial hserial)
  | remove i =>
    have hperm := t.serials_removeAt i
    exact ⟨hperm.nodup_iff.2 h.nodup, fun serial hserial => h.next serial (hperm.mem_iff.1 hserial)⟩
  | set i field value =>
    have hserials := t.serials_setField i field value
    exact ⟨hserials ▸ h.nodup, fun serial hserial => h.next serial (hserials ▸ hserial)⟩

/-! ## Following a record -/

/-- The row with a serial number is where it is said to be, and holds the record. -/
def Holds (t : Table) (serial : Nat) (w : Whereabouts) : Prop :=
  match w.place with
  | some p => t.rows[p]? = some ⟨serial, w.record⟩
  | none => ⟨serial, w.record⟩ ∈ t.removed

theorem holds_congr {t t' : Table} (hrows : t.rows = t'.rows) (hremoved : t.removed = t'.removed)
    {serial : Nat} {w : Whereabouts} (h : t.Holds serial w) : t'.Holds serial w := by
  unfold Holds at h ⊢
  rwa [← hrows, ← hremoved]

theorem Holds.append {t : Table} {serial : Nat} {w : Whereabouts} (h : t.Holds serial w)
    (record : Record) : (t.append record).Holds serial w := by
  obtain ⟨place, _⟩ := w
  cases place with
  | none => exact h
  | some p => exact (List.getElem?_append_left (List.getElem?_eq_some_iff.1 h).1).trans h

theorem Holds.removeAt {t : Table} {serial : Nat} {w : Whereabouts} (h : t.Holds serial w)
    (i : Nat) : (t.removeAt i).Holds serial (w.next (.remove i)) := by
  obtain ⟨place, record⟩ := w
  cases place with
  | none => exact List.mem_append_left _ h
  | some p =>
    have hrow : t.rows[p]? = some ⟨serial, record⟩ := h
    by_cases hp : p = i
    · subst hp
      simp [Holds, Whereabouts.next, Table.removeAt, hrow]
    · -- The rows behind the one that is removed move up.
      simp only [Holds, Whereabouts.next, Option.bind_some, if_neg hp, Table.removeAt,
        List.getElem?_eraseIdx]
      by_cases hi : i < p
      · rw [if_pos hi, if_neg (by omega), Nat.sub_add_cancel (by omega)]
        exact hrow
      · rw [if_neg hi, if_pos (by omega)]
        exact hrow

theorem Holds.setField {t : Table} {serial : Nat} {w : Whereabouts} (h : t.Holds serial w)
    (i : Nat) (field value : String) :
    (t.setField i field value).Holds serial (w.next (.set i field value)) := by
  obtain ⟨place, record⟩ := w
  cases place with
  | none => exact h
  | some p =>
    have hrow : t.rows[p]? = some ⟨serial, record⟩ := h
    by_cases hp : p = i
    · subst hp
      simp [Holds, Whereabouts.next, Table.setField, hrow]
    · have hne : i ≠ p := Ne.symm hp
      simp [Holds, Whereabouts.next, Table.setField, hp, hne, hrow]

theorem Holds.perform {t : Table} {serial : Nat} {w : Whereabouts} (h : t.Holds serial w)
    (a : Action) : (t.perform a).2.Holds serial (w.next a) := by
  have hkeep : t.keepIndex.Holds serial w := by
    rcases t.keepIndex_cases with hkeep | ⟨index, -, -, hkeep⟩ <;> rw [hkeep]
    · exact h
    · exact holds_congr rfl rfl h
  cases a with
  | find key => exact hkeep
  | require key => exact hkeep
  | append record => exact h.append record
  | remove i => exact h.removeAt i
  | set i field value => exact h.setField i field value

/-- The table with the index of its rows as they are. -/
def indexed (t : Table) : Table :=
  { t with index := some (t.rows.filterMap fun row => row.record.id?.map (·, row.serial)) }

theorem Distinct.after {t : Table} (h : t.Distinct) (actions : List Action) :
    (t.after actions).Distinct := by
  induction actions generalizing t with
  | nil => exact h
  | cons a actions ih => exact ih (h.perform a)

theorem Holds.after {t : Table} {serial : Nat} {w : Whereabouts} (h : t.Holds serial w)
    (actions : List Action) : (t.after actions).Holds serial (w.after actions) := by
  induction actions generalizing t w with
  | nil => exact h
  | cons a actions ih => exact ih (h.perform a)

end Table

end MailMerge.Data
