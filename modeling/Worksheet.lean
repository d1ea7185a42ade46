import Worksheet.Address.CellRef
import Worksheet.Address.Column
import Worksheet.Address.Index
import Worksheet.Address.Range
import Worksheet.Address.Reference
import Worksheet.Cell
import Worksheet.Columns
import Worksheet.Digest.Md5
import Worksheet.Error
import Worksheet.Filter.Basic
import Worksheet.Filter.RowView
import Worksheet.Formula.Evaluation
import Worksheet.Formula.Function
import Worksheet.Formula.Operation
import Worksheet.Formula.Postfix
import Worksheet.Formula.Token
import Worksheet.Formula.Value
import Worksheet.History
import Worksheet.Json.Reader
import Worksheet.Json.Record
import Worksheet.Json.Scalar
import Worksheet.Json.Tree
import Worksheet.Json.Writer
import Worksheet.Merges
import Worksheet.Number.Extreme
import Worksheet.Number.Fixed
import Worksheet.Number.Literal
import Worksheet.Number.Notation
import Worksheet.Number.Parts
import Worksheet.Number.Shortest
import Worksheet.Proofs.Address.Codec
import Worksheet.Proofs.Address.Composing
import Worksheet.Proofs.Address.Difference
import Worksheet.Proofs.Address.Following
import Worksheet.Proofs.Address.Lines
import Worksheet.Proofs.Address.Moving
import Worksheet.Proofs.Address.Notation
import Worksheet.Proofs.Address.Occurrences
import Worksheet.Proofs.Address.Rectangle
import Worksheet.Proofs.Address.Replacing
import Worksheet.Proofs.Address.Searching
import Worksheet.Proofs.Filter.Menu
import Worksheet.Proofs.Filter.Presenting
import Worksheet.Proofs.Formula.Absorption
import Worksheet.Proofs.Formula.Acyclic
import Worksheet.Proofs.Formula.Agreement.States
import Worksheet.Proofs.Formula.Agreement.Steps
import Worksheet.Proofs.Formula.Agreement.Texts
import Worksheet.Proofs.Formula.Agreement.Words
import Worksheet.Proofs.Formula.Approximation
import Worksheet.Proofs.Formula.Body
import Worksheet.Proofs.Formula.Conversion
import Worksheet.Proofs.Formula.Converter
import Worksheet.Proofs.Formula.Course
import Worksheet.Proofs.Formula.Expression
import Worksheet.Proofs.Formula.Failure
import Worksheet.Proofs.Formula.Following
import Worksheet.Proofs.Formula.Landmarks
import Worksheet.Proofs.Formula.Leaf
import Worksheet.Proofs.Formula.Negation
import Worksheet.Proofs.Formula.Operand
import Worksheet.Proofs.Formula.Plain
import Worksheet.Proofs.Formula.Postorder
import Worksheet.Proofs.Formula.Propagation
import Worksheet.Proofs.Formula.Reading
import Worksheet.Proofs.Formula.Relabelling
import Worksheet.Proofs.Formula.Shifting
import Worksheet.Proofs.Formula.Step
import Worksheet.Proofs.Formula.Summation
import Worksheet.Proofs.Formula.Wording
import Worksheet.Proofs.Grid
import Worksheet.Proofs.History
import Worksheet.Proofs.Json.Codec
import Worksheet.Proofs.Json.Literal
import Worksheet.Proofs.Json.Record
import Worksheet.Proofs.Json.Tree
import Worksheet.Proofs.Lossless
import Worksheet.Proofs.Merges
import Worksheet.Proofs.Number.Literal
import Worksheet.Proofs.Number.Shortest
import Worksheet.Proofs.Number.Sign
import Worksheet.Proofs.Number.Whole
import Worksheet.Proofs.RoundTrip
import Worksheet.Proofs.Rows.Blanks
import Worksheet.Proofs.Rows.Copying
import Worksheet.Proofs.Rows.Editing
import Worksheet.Proofs.Rows.Landmarks
import Worksheet.Proofs.Rows.LineEdit
import Worksheet.Proofs.Rows.Marks
import Worksheet.Proofs.Rows.Moving
import Worksheet.Proofs.Rows.Series
import Worksheet.Proofs.Rows.Styles
import Worksheet.Proofs.Rows.Tiling
import Worksheet.Proofs.Rows.Transfer
import Worksheet.Proofs.Rows.Undoing
import Worksheet.Proofs.Sheet.ActiveCell
import Worksheet.Proofs.Sheet.Agreement
import Worksheet.Proofs.Sheet.Anchors
import Worksheet.Proofs.Sheet.Borders
import Worksheet.Proofs.Sheet.Change
import Worksheet.Proofs.Sheet.Committing
import Worksheet.Proofs.Sheet.Cutting
import Worksheet.Proofs.Sheet.Dropping
import Worksheet.Proofs.Sheet.Filling
import Worksheet.Proofs.Sheet.Formatting
import Worksheet.Proofs.Sheet.Keeping
import Worksheet.Proofs.Sheet.LineImage
import Worksheet.Proofs.Sheet.LineMirror
import Worksheet.Proofs.Sheet.Lines
import Worksheet.Proofs.Sheet.Locking
import Worksheet.Proofs.Sheet.Memory
import Worksheet.Proofs.Sheet.Mirror
import Worksheet.Proofs.Sheet.Paging
import Worksheet.Proofs.Sheet.Pasting
import Worksheet.Proofs.Sheet.Recollection
import Worksheet.Proofs.Sheet.Reloading
import Worksheet.Proofs.Sheet.Rewinding
import Worksheet.Proofs.Sheet.Selecting
import Worksheet.Proofs.Sheet.Session
import Worksheet.Proofs.Sheet.Sharing
import Worksheet.Proofs.Sheet.Shifting
import Worksheet.Proofs.Sheet.Spans
import Worksheet.Proofs.Sheet.Stepping
import Worksheet.Proofs.Sheet.Styling
import Worksheet.Proofs.Sheet.TextBlocks
import Worksheet.Proofs.Sheet.Texts
import Worksheet.Proofs.Sheet.Throughout
import Worksheet.Proofs.Sheet.Timeline
import Worksheet.Proofs.Sheet.Transaction
import Worksheet.Proofs.Sheet.Typing
import Worksheet.Proofs.Sheet.Undoing
import Worksheet.Proofs.Sheet.Units
import Worksheet.Proofs.Sheet.Verdicts
import Worksheet.Proofs.Sheet.Viewing
import Worksheet.Proofs.Snapshot
import Worksheet.Proofs.SparseMap
import Worksheet.Proofs.SparseMap.Splicing
import Worksheet.Proofs.Style.Index
import Worksheet.Proofs.Text.Letter
import Worksheet.Proofs.Validation.Between
import Worksheet.Proofs.Validation.Coverage
import Worksheet.Rows.Basic
import Worksheet.Rows.Export
import Worksheet.Rows.Structure
import Worksheet.Rows.Transfer
import Worksheet.Settings
import Worksheet.Sheet.Cells
import Worksheet.Sheet.Checking
import Worksheet.Sheet.Command
import Worksheet.Sheet.Formatting
import Worksheet.Sheet.Geometry
import Worksheet.Sheet.Lines
import Worksheet.Sheet.Pasting
import Worksheet.Sheet.Selecting
import Worksheet.Sheet.State
import Worksheet.Snapshot
import Worksheet.SparseMap
import Worksheet.Style.Basic
import Worksheet.Style.Format
import Worksheet.Style.Record
import Worksheet.Style.Table
import Worksheet.Text.Blank
import Worksheet.Text.Split
import Worksheet.Text.Word
import Worksheet.Text.WordTable
import Worksheet.Toml.Reader
import Worksheet.Toml.Scalar
import Worksheet.Toml.Table
import Worksheet.Toml.Text
import Worksheet.Validation.Date
import Worksheet.Validation.Rules
import Worksheet.Validation.Shape
import Worksheet.Validation.Validator
