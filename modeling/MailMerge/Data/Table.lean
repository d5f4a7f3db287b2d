/-
Tables: named rows of records that can be found by their identity. The index of identities is built
when it is first needed and then kept: rows that are added, removed or given another identity later
do not change it, though it leads to the records as they are now. To tell the rows apart each one
has a serial number.
-/
import MailMerge.Data.Record
import MailMerge.Text.Quoted

namespace MailMerge.Data

/-- A row of a table. -/
structure Row where
  serial : Nat
  record : Record
  deriving DecidableEq, Repr

/-- A table. The rows that were removed are remembered, as the index may lead to them. -/
structure Table where
  name : String
  rows : List Row
  removed : List Row
  nextSerial : Nat
  index : Option (List (String × Nat))
  deriving DecidableEq, Repr

/-- Why a record cannot be found. -/
inductive TableFault
  | recordWithoutId (table : String) (position : Nat)
  | noSuchRecord (table key : String)
  deriving DecidableEq, Repr

/-- The wording of a failed look for a record. -/
def TableFault.message : TableFault → String
  | recordWithoutId table position =>
    "Invalid table \x60" ++ table ++ s!"\x60: record {position} has no {idField} field"
  | noSuchRecord table key =>
    "Failed lookup: expected to find a \x60" ++ table ++ s!"\x60 with {idField}={key}"

namespace Table

/-- A table of some records, with no index yet. -/
def ofRecords (name : String) (records : List Record) : Table where
  name := name
  rows := records.mapIdx Row.mk
  removed := []
  nextSerial := records.length
  index := none

/-- The records as they are now, in the order of their rows. -/
def records (t : Table) : List Record :=
  t.rows.map (·.record)

/-- The number of records. -/
def size (t : Table) : Nat :=
  t.rows.length

/-- The names of the fields, in the order in which they first appear. -/
def fields (t : Table) : List String :=
  (t.records.flatMap Record.names).eraseDups

/-- A table where it is shown: its name, and how many records it has. -/
def shown (t : Table) : String :=
  s!"Table({Text.quoted t.name}, {t.size} records)"

/-! ## Finding records -/

/-- The index of the rows as they are now. Every row must have an identity; of rows with the same
one the first comes first. -/
def freshIndex (t : Table) : Except TableFault (List (String × Nat)) :=
  match t.records.findIdx? (·.id? = none) with
  | some i => .error (.recordWithoutId t.name (i + 1))
  | none => .ok (t.rows.filterMap fun row => row.record.id?.map (·, row.serial))

/-- The index that is in use: the one that was kept, else a fresh one. -/
def currentIndex (t : Table) : Except TableFault (List (String × Nat)) :=
  match t.index with
  | some index => .ok index
  | none => t.freshIndex

/-- The record of a row, also of one that was removed. -/
def recordOf (t : Table) (serial : Nat) : Option Record :=
  ((t.rows ++ t.removed).find? (·.serial = serial)).map (·.record)

/-- The record with an identity, if there is one. An empty table needs no index. -/
def find? (t : Table) (key : String) : Except TableFault (Option Record) :=
  if t.rows = [] then .ok none
  else t.currentIndex.map fun index => (valueOf? key index).bind t.recordOf

/-- The record with an identity. -/
def require (t : Table) (key : String) : Except TableFault Record := do
  match ← t.find? key with
  | some record => return record
  | none => throw (.noSuchRecord t.name key)

/-- The table after a record was looked for: its index is kept if one could be built. -/
def keepIndex (t : Table) : Table :=
  if t.rows = [] then t
  else
    match t.currentIndex with
    | .ok index => { t with index := some index }
    | .error _ => t

/-- Keeping the index changes no answer. -/
theorem find?_keepIndex (t : Table) (key : String) : t.keepIndex.find? key = t.find? key := by
  unfold keepIndex
  split
  · rfl
  · rename_i h
    split
    · rename_i index hindex
      simp only [find?, h, if_false, currentIndex] at hindex ⊢
      rw [hindex]
      rfl
    · rfl

/-- The table with no index kept. -/
def withoutIndex (t : Table) : Table :=
  { t with index := none }

/-- A table built anew from the records. -/
def rebuilt (t : Table) : Table :=
  ofRecords t.name t.records

/-! ## Changing tables -/

/-- Adds a record at the end. -/
def append (t : Table) (record : Record) : Table :=
  { t with rows := t.rows ++ [⟨t.nextSerial, record⟩], nextSerial := t.nextSerial + 1 }

/-- Removes the row at a position. -/
def removeAt (t : Table) (i : Nat) : Table :=
  { t with rows := t.rows.eraseIdx i, removed := t.removed ++ (t.rows[i]?).toList }

/-- Sets a field of the row at a position. -/
def setField (t : Table) (i : Nat) (field value : String) : Table :=
  { t with rows := t.rows.modify i fun row => { row with record := row.record.set field value } }

/-! ## Sessions -/

/-- What can be done with a table. -/
inductive Action
  | find (key : String)
  | require (key : String)
  | append (record : Record)
  | remove (i : Nat)
  | set (i : Nat) (field value : String)
  deriving DecidableEq, Repr

/-- What an action answers. -/
inductive Answer
  | found (record : Option Record)
  | failed (fault : TableFault)
  | size (n : Nat)
  deriving DecidableEq, Repr

/-- Does one thing with a table. -/
def perform (t : Table) : Action → Answer × Table
  | .find key =>
    (match t.find? key with
      | .ok record => .found record
      | .error fault => .failed fault, t.keepIndex)
  | .require key =>
    (match t.require key with
      | .ok record => .found (some record)
      | .error fault => .failed fault, t.keepIndex)
  | .append record => changed (t.append record)
  | .remove i => changed (t.removeAt i)
  | .set i field value => changed (t.setField i field value)
where
  /-- A change answers the new size. -/
  changed (t : Table) : Answer × Table := (.size t.size, t)

end Table

end MailMerge.Data
