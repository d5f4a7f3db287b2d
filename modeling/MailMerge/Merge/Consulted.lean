/-
Answers with the names of the tables in which records were looked for on the way to them. What is
looked for leaves its trace in a table, as the table then keeps its index, but not in the answer:
the result of a computation in several steps is that of the results of its steps.
-/
import MailMerge.Merge.Fault

namespace MailMerge.Merge

open MailMerge.Data

/-- An answer or an error, and the tables that were consulted. -/
structure Consulted (α : Type) where
  result : Except ResolutionError α
  tables : List String

namespace Consulted

variable {α β : Type}

/-- An answer that no table was consulted for. -/
def pure (a : α) : Consulted α := ⟨.ok a, []⟩

/-- An error that no table was consulted for. -/
def fail (e : ResolutionError) : Consulted α := ⟨.error e, []⟩

/-- Goes on with the answer; after an error nothing more is consulted. -/
def bind (x : Consulted α) (f : α → Consulted β) : Consulted β :=
  match x.result with
  | .error e => ⟨.error e, x.tables⟩
  | .ok a =>
    let y := f a
    ⟨y.result, x.tables ++ y.tables⟩

instance : Monad Consulted where
  pure := pure
  bind := bind

instance : LawfulMonad Consulted := LawfulMonad.mk' Consulted
  (by
    intro α x
    obtain ⟨result, tables⟩ := x
    cases result <;> simp [Functor.map, bind, pure])
  (by intro α β x f; simp [Bind.bind, Pure.pure, bind, pure])
  (by
    intro α β γ x f g
    obtain ⟨result, tables⟩ := x
    cases result with
    | error e => rfl
    | ok a => cases h : (f a).result <;> simp [Bind.bind, bind, h])

@[simp] theorem result_pure (a : α) : (Pure.pure a : Consulted α).result = .ok a := rfl

@[simp] theorem result_fail (e : ResolutionError) : (fail e : Consulted α).result = .error e := rfl

@[simp] theorem result_bind (x : Consulted α) (f : α → Consulted β) :
    (x >>= f).result = x.result >>= fun a => (f a).result := by
  obtain ⟨result, tables⟩ := x
  cases result <;> rfl

/-- An answer that the table called `name` gave. -/
def from? (name : String) (answer : Except TableFault α) : Consulted α :=
  ⟨answer.mapError .table, [name]⟩

end Consulted

end MailMerge.Merge
