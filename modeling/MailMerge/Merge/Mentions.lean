/-
What a template mentions: the lookups that it may follow, and the tables that it may look into.
-/
import MailMerge.Merge.Template

namespace MailMerge.Merge

open MailMerge.Markup

/-- The lookups of a binding: the one that points at the record to leave out, and those on the way
to the field that is compared. -/
def Binding.lookups (b : Binding) : List Lookup :=
  b.lookup?.toList ++ (b.condition?.map (·.subject.path)).getD []

namespace Piece

mutual

/-- The lookups of a piece, at all depths. -/
def lookups : Piece → List Lookup
  | text _ => []
  | expansion e => e.path
  | conditional test body => test.subject.path ++ lookupsIn body
  | loop _ binding body => binding.lookups ++ lookupsIn body

/-- The lookups of some pieces, in their order. -/
def lookupsIn : List Piece → List Lookup
  | [] => []
  | piece :: pieces => piece.lookups ++ lookupsIn pieces

end

mutual

/-- The tables of the loops of a piece, at all depths. -/
def loopTables : Piece → List String
  | text _ | expansion _ => []
  | conditional _ body => loopTablesIn body
  | loop _ binding body => binding.table :: loopTablesIn body

/-- The tables of the loops of some pieces, in their order. -/
def loopTablesIn : List Piece → List String
  | [] => []
  | piece :: pieces => piece.loopTables ++ loopTablesIn pieces

end

end Piece

/-- The tables that a template mentions: those of its loops and those of its lookups. -/
def Template.tables (t : Template) : List String :=
  Piece.loopTablesIn t.pieces ++ (Piece.lookupsIn t.pieces).map (·.table)

end MailMerge.Merge
