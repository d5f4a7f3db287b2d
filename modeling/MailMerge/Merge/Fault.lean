/-
What can go wrong when a template meets the data.
-/
import MailMerge.Data.Table
import MailMerge.Markup.Node

namespace MailMerge.Merge

open MailMerge.Data MailMerge.Markup

/-- Why a reference of a template cannot be resolved. -/
inductive ResolutionError
  | missingKey (field : String)
  | unknownTable (name : String)
  | table (fault : TableFault)
  | missingField (field : String)
  | failedComparison (c : Comparison) (fault : ValueFault)
  deriving DecidableEq, Repr

/-- The wording of an error. -/
def ResolutionError.message : ResolutionError → String
  | missingKey field => "Failed lookup: field \x60" ++ field ++ "\x60 did not exist in context"
  | unknownTable name => "Failed lookup: no table named \x60" ++ name ++ "\x60"
  | table fault => fault.message
  | missingField field =>
    "Failed expansion: context is missing field \x60" ++ field ++ "\x60"
  | failedComparison c fault => "Failed comparison \x60" ++ c.shown ++ "\x60: " ++ fault.message

/-- Why the records of the vars table cannot all be rendered; rows are counted from one. -/
structure RenderError where
  row : Nat
  cause : ResolutionError
  deriving DecidableEq, Repr

/-- The wording of an error, with the number of its row in front. -/
def RenderError.message (e : RenderError) : String :=
  s!"row {e.row} failed: {e.cause.message}"

end MailMerge.Merge
