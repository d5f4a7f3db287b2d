/-
What became of the records of a table, told from the actions alone. They tell which records the
table holds, which ones it held when its index was built, and what became of each of these since
then, also where it was removed.
-/
import MailMerge.Data.Table

namespace MailMerge.Data

namespace Table

/-- The table after some actions. -/
def after (t : Table) (actions : List Action) : Table :=
  actions.foldl (fun t a => (t.perform a).2) t

namespace Action

end Action

end Table

/-- A record that is or was in a table, as it is now, with its place if it was not removed. -/
structure Whereabouts where
  place : Option Nat
  record : Record
  deriving DecidableEq, Repr

namespace Whereabouts

/-- What becomes of a record in an action. A record that was removed stays as it is. -/
def next (w : Whereabouts) (a : Table.Action) : Whereabouts :=
  match a with
  | .find _ | .require _ | .append _ => w
  | .remove i =>
    { w with place := w.place.bind fun p =>
        if p = i then none else some (if i < p then p - 1 else p) }
  | .set i field value =>
    if w.place = some i then { w with record := w.record.set field value } else w

/-- What became of a record in some actions. -/
def after (w : Whereabouts) (actions : List Table.Action) : Whereabouts :=
  actions.foldl next w

end Whereabouts

end MailMerge.Data
