/-
Scopes: the records that the enclosing loops have bound to names. An inner binding hides an outer
one of the same name, and no binding outlives its loop.
-/
import MailMerge.Data.Record
import MailMerge.Text.Quoted

namespace MailMerge.Merge

open MailMerge.Data

/-- The bindings of the enclosing loops, the innermost one first. -/
structure Scope where
  bindings : List (String × Record)
  deriving DecidableEq, Repr

namespace Scope

/-- The scope outside of all loops. -/
def empty : Scope := ⟨[]⟩

/-- Binds a name to a record, in front of what was bound before. -/
def bind (s : Scope) (name : String) (record : Record) : Scope :=
  ⟨(name, record) :: s.bindings⟩

/-- The record that a name is bound to. -/
def get? (s : Scope) (name : String) : Option Record :=
  valueOf? name s.bindings

/-- Whether a name is bound. -/
def contains (s : Scope) (name : String) : Bool :=
  (s.get? name).isSome

/-- The names that are bound, the innermost one first, without repeats. -/
def names (s : Scope) : List String :=
  (s.bindings.map (·.1)).eraseDups

/-- A scope where it is shown, by its names only. -/
def shown (s : Scope) : String :=
  "InheritedContext([" ++ String.intercalate ", " (s.names.map Text.quoted) ++ "])"

@[simp] theorem get?_empty (name : String) : empty.get? name = none := rfl

theorem get?_bind (s : Scope) (name : String) (record : Record) (other : String) :
    (s.bind name record).get? other = if name = other then some record else s.get? other := rfl

end Scope

end MailMerge.Merge
