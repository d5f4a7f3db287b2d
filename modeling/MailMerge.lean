import MailMerge.Text.CharacterClass
import MailMerge.Text.WordCharacter
import MailMerge.Text.Quoted
import MailMerge.Text.Lines
import MailMerge.Text.Utf8
import MailMerge.Number.Integer
import MailMerge.Number.Shortest
import MailMerge.Literal
import MailMerge.Markup.Escape
import MailMerge.Markup.Reader
import MailMerge.Markup.WellFormed
import MailMerge.Markup.Print
import MailMerge.Markup.Flatten
import MailMerge.Data.Csv
import MailMerge.Data.Csv.Write
import MailMerge.Merge.Mentions
import MailMerge.Merge.Interpret
import MailMerge.Merge.Session
import MailMerge.Merge.Turn
import MailMerge.Log
import MailMerge.Log.Logger
import MailMerge.Editor.Document
import MailMerge.Files.Tree
import MailMerge.Files.Path
import MailMerge.CommandLine.Run
import MailMerge.Main
import MailMerge.Proofs.List
import MailMerge.Proofs.Except
import MailMerge.Proofs.Text.Lines
import MailMerge.Proofs.Markup.Reading
import MailMerge.Proofs.Markup.Grammar
import MailMerge.Proofs.Markup.Soundness
import MailMerge.Proofs.Markup.Completeness
import MailMerge.Proofs.Markup.Nesting
import MailMerge.Proofs.Number.Decimal
import MailMerge.Proofs.Markup.Unescape
import MailMerge.Proofs.Markup.Scanning
import MailMerge.Proofs.Markup.Names
import MailMerge.Proofs.Markup.RoundTrip
import MailMerge.Proofs.Data.Table
import MailMerge.Proofs.Merge.Meaning
import MailMerge.Proofs.Merge.Locality
import MailMerge.Merge.Keeping
import MailMerge.Proofs.Merge.Keeping
import MailMerge.Markup.Rename
import MailMerge.Proofs.Merge.Filtering
import MailMerge.Proofs.Merge.Others
import MailMerge.Proofs.Merge.Renaming
import MailMerge.Proofs.Merge.Batch
import MailMerge.Proofs.Data.History
import MailMerge.Proofs.Markup.Shape
import MailMerge.Proofs.Markup.Prefix
import MailMerge.Proofs.Markup.Partial
import MailMerge.Proofs.Markup.Viable
import MailMerge.Proofs.Markup.Refusals
import MailMerge.Proofs.Markup.Continuation
import MailMerge.Proofs.Markup.Seam
import MailMerge.Proofs.Merge.Concatenation
import MailMerge.Proofs.Merge.Growth
import MailMerge.Markup.Parser
import MailMerge.Proofs.Markup.Reuse
import MailMerge.Proofs.Markup.Overlong
import MailMerge.Merge.Raising
import MailMerge.Proofs.Merge.Raising
import MailMerge.Proofs.Markup.LastTag
import MailMerge.Proofs.Markup.Respelling
import MailMerge.Proofs.Markup.Spacing
import MailMerge.Proofs.Data.Rows
import MailMerge.Proofs.Data.Written
import MailMerge.Proofs.Data.LineEnds
import MailMerge.Proofs.Text.Utf8
import MailMerge.Proofs.CommandLine.Loading
import MailMerge.Proofs.Files.Tree
import MailMerge.Proofs.CommandLine.Phases
import MailMerge.Proofs.CommandLine.Placing
import MailMerge.Proofs.CommandLine.Crashes
import MailMerge.Proofs.Editor.Marks
import MailMerge.Proofs.Editor.LoopNames
import MailMerge.Proofs.Markup.Braces
import MailMerge.Proofs.Editor.Passing
import MailMerge.Proofs.Editor.LoopTags
import MailMerge.Proofs.Log.Trace
import MailMerge.Proofs.Merge.Candidates
import MailMerge.Proofs.Merge.Pairs
import MailMerge.Proofs.Markup.WellFormed
import MailMerge.Proofs.Number.Numeral
import MailMerge.Proofs.Number.Literals
import MailMerge.Proofs.Markup.Numbers
import MailMerge.Proofs.Markup.Tiling
import MailMerge.Proofs.Markup.Discipline
import MailMerge.Proofs.Merge.Integers
import MailMerge.Proofs.Markup.Escaping
import MailMerge.Proofs.Data.RowLines
import MailMerge.Proofs.Data.Uniform
import MailMerge.Proofs.Editor.Positions
import MailMerge.Proofs.Editor.Words
import MailMerge.Proofs.Merge.Scopes
