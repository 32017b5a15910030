import KeyOrder.Bisect
import KeyOrder.CommandLine
import KeyOrder.Container.Basic
import KeyOrder.Container.EntryName
import KeyOrder.Container.Walk
import KeyOrder.Decimal.Binary64
import KeyOrder.Decimal.Notation
import KeyOrder.Decimal.Shortest
import KeyOrder.Edit
import KeyOrder.Fault
import KeyOrder.Fix
import KeyOrder.Json.Reader
import KeyOrder.Json.Value
import KeyOrder.Lint
import KeyOrder.Log
import KeyOrder.Main
import KeyOrder.Options
import KeyOrder.Order.Basic
import KeyOrder.Order.NaturalKey
import KeyOrder.Proofs.Acceptance
import KeyOrder.Proofs.Answers
import KeyOrder.Proofs.Arrangement
import KeyOrder.Proofs.AtomPlaces
import KeyOrder.Proofs.Bracketing
import KeyOrder.Proofs.Changes
import KeyOrder.Proofs.CodeText
import KeyOrder.Proofs.Columns
import KeyOrder.Proofs.CommentText
import KeyOrder.Proofs.Comparison
import KeyOrder.Proofs.ComparisonSort
import KeyOrder.Proofs.Completion
import KeyOrder.Proofs.Conservation
import KeyOrder.Proofs.Convergence
import KeyOrder.Proofs.Deferral
import KeyOrder.Proofs.Detection
import KeyOrder.Proofs.DigitLimit
import KeyOrder.Proofs.DigitRuns
import KeyOrder.Proofs.EqualKeys
import KeyOrder.Proofs.ExpressionPlaces
import KeyOrder.Proofs.Faults
import KeyOrder.Proofs.Fixes
import KeyOrder.Proofs.Frame
import KeyOrder.Proofs.GapReading
import KeyOrder.Proofs.GapText
import KeyOrder.Proofs.KeyRanges
import KeyOrder.Proofs.Layout
import KeyOrder.Proofs.LayoutDecision
import KeyOrder.Proofs.LetterCase
import KeyOrder.Proofs.Lexing
import KeyOrder.Proofs.LineBreaks
import KeyOrder.Proofs.LineRest
import KeyOrder.Proofs.Lines
import KeyOrder.Proofs.Lookup
import KeyOrder.Proofs.Merge
import KeyOrder.Proofs.NaturalKeys
import KeyOrder.Proofs.Neighbours
import KeyOrder.Proofs.Nesting
import KeyOrder.Proofs.NodePlaces
import KeyOrder.Proofs.Numerals
import KeyOrder.Proofs.Order
import KeyOrder.Proofs.Outcome
import KeyOrder.Proofs.Overlap
import KeyOrder.Proofs.OwnedComments
import KeyOrder.Proofs.Ownership
import KeyOrder.Proofs.PatternPlaces
import KeyOrder.Proofs.Pieces
import KeyOrder.Proofs.Places
import KeyOrder.Proofs.ProgramPlaces
import KeyOrder.Proofs.Quoting
import KeyOrder.Proofs.Reading
import KeyOrder.Proofs.Rearrangement
import KeyOrder.Proofs.Reordering
import KeyOrder.Proofs.Reports
import KeyOrder.Proofs.Requests
import KeyOrder.Proofs.Rule
import KeyOrder.Proofs.Scanning
import KeyOrder.Proofs.Selection
import KeyOrder.Proofs.Separation
import KeyOrder.Proofs.Sequential
import KeyOrder.Proofs.Shifts
import KeyOrder.Proofs.Slots
import KeyOrder.Proofs.Sorting
import KeyOrder.Proofs.Spelling
import KeyOrder.Proofs.Stretch
import KeyOrder.Proofs.TokenCover
import KeyOrder.Proofs.Unfinished
import KeyOrder.Proofs.Walk
import KeyOrder.Proofs.Weaving
import KeyOrder.Proofs.WordPlaces
import KeyOrder.Proofs.Wrapping
import KeyOrder.Proofs.WrittenPlaces
import KeyOrder.Relocation
import KeyOrder.Segment
import KeyOrder.Sorting
import KeyOrder.Source
import KeyOrder.Syntax.Expression
import KeyOrder.Syntax.Lexeme
import KeyOrder.Syntax.Literal
import KeyOrder.Syntax.Node
import KeyOrder.Syntax.Parser
import KeyOrder.Syntax.Pattern
import KeyOrder.Syntax.Program
import KeyOrder.Syntax.Statement
import KeyOrder.Syntax.Template
import KeyOrder.Text.Basic
import KeyOrder.Text.Lines
import KeyOrder.Text.Quoted
import KeyOrder.Token.Basic
import KeyOrder.Token.Scan
import KeyOrder.Token.Shape
import KeyOrder.Unicode.Compatibility
import KeyOrder.Unicode.Decimal
import KeyOrder.Unicode.Identifier
import KeyOrder.Unicode.Lowercase
import KeyOrder.Unicode.Printable
import KeyOrder.Unicode.Table
import KeyOrder.Unicode.Word
