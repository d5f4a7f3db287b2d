/-
Records: named fields, each holding a text, in the order in which they were first set. They are lists
of pairs read as maps, in which the first pair with a key counts.
-/
namespace MailMerge.Data

/-! ## Pairs read as maps -/

/-- The value that stands with a key. -/
def valueOf? (key : String) : List (String × α) → Option α
  | [] => none
  | (k, v) :: rest => if k = key then some v else valueOf? key rest

/-- Sets the value of a key where it stands, or adds it at the end. -/
def setValue (key : String) (value : α) : List (String × α) → List (String × α)
  | [] => [(key, value)]
  | (k, v) :: rest => if k = key then (k, value) :: rest else (k, v) :: setValue key value rest

theorem valueOf?_setValue (key : String) (value : α) (other : String) (pairs : List (String × α)) :
    valueOf? other (setValue key value pairs) =
      if other = key then some value else valueOf? other pairs := by
  induction pairs with
  | nil => simp [setValue, valueOf?, eq_comm]
  | cons p rest ih =>
    obtain ⟨k, v⟩ := p
    by_cases hk : k = key
    · subst hk
      by_cases ho : k = other
      · simp [setValue, valueOf?, ho]
      · simp [setValue, valueOf?, ho, Ne.symm ho]
    · by_cases ho : k = other
      · subst ho
        simp [setValue, valueOf?, hk]
      · simpa [setValue, valueOf?, hk, ho] using ih

/-! ## Records -/

/-- A record. -/
structure Record where
  fields : List (String × String)
  deriving DecidableEq, Repr

/-- The field that holds the identity of a record. -/
def idField : String := "$id"

/-- The field that names the output file of a record. -/
def outfileField : String := "$outfile"

namespace Record

/-- The record without fields. -/
def empty : Record := ⟨[]⟩

/-- The text of a field. -/
def get? (r : Record) (name : String) : Option String :=
  valueOf? name r.fields

/-- The identity of a record. -/
def id? (r : Record) : Option String :=
  r.get? idField

/-- The names of the fields, in their order. -/
def names (r : Record) : List String :=
  r.fields.map (·.1)

/-- Sets a field where it stands, or adds it at the end. -/
def set (r : Record) (name value : String) : Record :=
  ⟨setValue name value r.fields⟩

/-- The record of some fields; of fields of one name the last one counts. -/
def ofFields (fields : List (String × String)) : Record :=
  fields.foldl (fun r p => r.set p.1 p.2) empty

@[simp] theorem get?_empty (name : String) : empty.get? name = none := rfl

theorem get?_set (r : Record) (name value other : String) :
    (r.set name value).get? other = if other = name then some value else r.get? other :=
  valueOf?_setValue name value other r.fields

end Record

end MailMerge.Data
