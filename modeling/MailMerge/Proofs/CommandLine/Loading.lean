/-
A table from a text and from the file of the text. The text is cut into lines after line feeds only,
the file after every line end. Both ways load the same records, or refuse the same row; they part at
a carriage return that stands alone: outside quotes the text may be refused for it where the file is
loaded, and elsewhere it makes the file one line longer, which the number of a refused row shows.
-/
import MailMerge.CommandLine.Load
import MailMerge.Proofs.Data.LineEnds
import MailMerge.Proofs.Text.Utf8

namespace MailMerge.CommandLine

open MailMerge.Data MailMerge.Text

/-- The file of a text is read as the text, with line feeds for all line ends. -/
theorem templateOfBytes_toUTF8 (text : String) :
    templateOfBytes text.toUTF8.toList = .ok (.ofList (unifyLineEnds text.toList)) := by
  rw [templateOfBytes, Utf8.decode_toUTF8]
  rfl

/-- A fault of a table, as it is reported for a file. -/
def LoadFault.ofTableFault : Csv.TableFault → LoadFault
  | .width e => .width e
  | .csv e => .csv e

/-- The file of a text is read as the text, with every line end ending a line. -/
theorem tableOfBytes_toUTF8 (name text : String) :
    tableOfBytes name text.toUTF8.toList =
      (Csv.tableOfLines name (cutLines .universal text.toList)).mapError .ofTableFault := by
  rw [tableOfBytes, Utf8.decodePieces_toUTF8]
  rfl

/-- What is loaded from the file of a text, beside what is loaded from the text. They are the same,
but for two things that a carriage return standing alone does: where the text is refused for one,
the file is not; and the line that is named for a row of a wrong width is counted by another rule,
though both numbers count the lines of one front of the text, which ends with that row. -/
theorem loaded_as_text (name text : String) :
    match Csv.tableOfText name text with
    | .ok table => tableOfBytes name text.toUTF8.toList = .ok table
    | .error (.csv .cellTooLong) =>
      tableOfBytes name text.toUTF8.toList = .error (.csv .cellTooLong)
    | .error (.csv .strayLineEnd) =>
      tableOfBytes name text.toUTF8.toList ≠ .error (.csv .strayLineEnd)
    | .error (.width e) =>
      ∃ front, front <+: text.toList ∧ e.line = (cutLines .lineFeed front).length ∧
        tableOfBytes name text.toUTF8.toList =
          .error (.width { e with line := (cutLines .universal front).length }) := by
  rw [tableOfBytes_toUTF8, Csv.tableOfText]
  have hne := Csv.tableOfLines_universal_ne name text.toList
  have hsame := Csv.sameLoad_tableOfLines name text.toList
  generalize Csv.tableOfLines name (cutLines .lineFeed text.toList) = first at hsame ⊢
  generalize Csv.tableOfLines name (cutLines .universal text.toList) = second at hsame hne ⊢
  cases hsame with
  | loaded table => rfl
  | cellTooLong => rfl
  | strayLineEnd =>
    rcases second with (e | _ | _) | table
    · nofun
    · nofun
    · exact absurd rfl hne
    · nofun
  | width e h =>
    obtain ⟨front, hfront, -, hline, hline'⟩ := h
    rw [Nat.zero_add] at hline hline'
    exact ⟨front, hfront, hline, hline' ▸ rfl⟩

/-- A text whose lines end with carriage returns is refused, and its file is loaded. -/
theorem loaded_as_text_return :
    Csv.tableOfText "t" "a\rb\n" = .error (.csv .strayLineEnd) ∧
      tableOfBytes "t" "a\rb\n".toUTF8.toList = .ok (.ofRecords "t" [⟨[("a", "b")]⟩]) := by
  refine ⟨rfl, ?_⟩
  rw [tableOfBytes_toUTF8]
  rfl

end MailMerge.CommandLine
