import FormatCheck.Binary
import FormatCheck.CaseRecord
import FormatCheck.CommandLine
import FormatCheck.Composer
import FormatCheck.Config
import FormatCheck.Config.Reader
import FormatCheck.Decimal
import FormatCheck.Decimal.Layout
import FormatCheck.Decimal.Reader
import FormatCheck.Diff
import FormatCheck.Domain
import FormatCheck.Expectation
import FormatCheck.FormatError
import FormatCheck.Json
import FormatCheck.Json.Printer
import FormatCheck.Json.Reader
import FormatCheck.Json.Source
import FormatCheck.Literal
import FormatCheck.Log
import FormatCheck.Log.Validator
import FormatCheck.Main
import FormatCheck.Numeral
import FormatCheck.Plan
import FormatCheck.Process
import FormatCheck.Render
import FormatCheck.Render.Float
import FormatCheck.Render.Integer
import FormatCheck.Render.Padding
import FormatCheck.Render.Text
import FormatCheck.Report
import FormatCheck.Rounding
import FormatCheck.Run
import FormatCheck.SemanticType
import FormatCheck.Session
import FormatCheck.Sha256
import FormatCheck.Spec
import FormatCheck.Spec.Parser
import FormatCheck.Subject
import FormatCheck.Subject.Reference
import FormatCheck.Summary
import FormatCheck.Template
import FormatCheck.Template.Numbering
import FormatCheck.Text.CharClass
import FormatCheck.Text.Encoding
import FormatCheck.Text.Lines
import FormatCheck.Text.Quoted
import FormatCheck.Timestamp
import FormatCheck.Value
import FormatCheck.Proofs.Binary.Conversion
import FormatCheck.Proofs.Numeral
import FormatCheck.Proofs.Decimal.Shortest
import FormatCheck.Proofs.Counter
import FormatCheck.Proofs.Decimal.Layout
import FormatCheck.Proofs.Literal.RoundTrip
import FormatCheck.Proofs.Process
import FormatCheck.Proofs.Render.Alike
import FormatCheck.Proofs.Subject.Conformance
import FormatCheck.Proofs.Spec.Cut
import FormatCheck.Proofs.Spec.Defect
import FormatCheck.Proofs.Spec.Canonical
import FormatCheck.Proofs.Spec.Grammar
import FormatCheck.Proofs.Outcome
import FormatCheck.Proofs.Template.Scan
import FormatCheck.Proofs.Template.Merge
import FormatCheck.Proofs.Template.Print
import FormatCheck.Proofs.Numeral.Radix
import FormatCheck.Proofs.Render.Grouping
import FormatCheck.Proofs.Render.Lossless
import FormatCheck.Proofs.Run.Steps
import FormatCheck.Proofs.Run.Summary
import FormatCheck.Proofs.Run.Transcript
import FormatCheck.Proofs.Log.Emitter
import FormatCheck.Proofs.Run.Agreement
import FormatCheck.Proofs.Json.Scalars
import FormatCheck.Proofs.Json.Reading
import FormatCheck.Proofs.Json.Members
import FormatCheck.Proofs.Log.File
import FormatCheck.Proofs.Run.Log
import FormatCheck.Proofs.Summary.Books
import FormatCheck.Proofs.Render.Rejection
import FormatCheck.Proofs.Render.MissingArgument
import FormatCheck.Proofs.Template.Append
import FormatCheck.Proofs.Json.Canonical
import FormatCheck.Proofs.Json.Floats
import FormatCheck.Proofs.Render.Append
import FormatCheck.Proofs.Log.Accepted
import FormatCheck.Proofs.Render.Padding
import FormatCheck.Proofs.Run.Dispatch
import FormatCheck.Proofs.Text.Quoted
import FormatCheck.Proofs.Plan.Fingerprint
import FormatCheck.Proofs.Literal.Character
import FormatCheck.Proofs.Render.GroupingLoop
import FormatCheck.Proofs.Render.NumberLayout
import FormatCheck.Proofs.Decimal.Counters
import FormatCheck.Proofs.Decimal.Bounds
import FormatCheck.Proofs.Decimal.Shape
import FormatCheck.Proofs.Render.Counters
import FormatCheck.Proofs.Render.Lengths
import FormatCheck.Proofs.Render.CountedEngine
import FormatCheck.Proofs.Text.Unquote
import FormatCheck.Proofs.Template.Numbering
import FormatCheck.Proofs.Template.Source
import FormatCheck.Proofs.Template.Cursor
import FormatCheck.Proofs.Template.Tiling
import FormatCheck.Proofs.Numeral.MixedRadix
import FormatCheck.Proofs.Composer.Enumeration
import FormatCheck.Proofs.Render.Text
import FormatCheck.Proofs.Render.UpperCase
import FormatCheck.Proofs.Expectation
import FormatCheck.Proofs.Composer.Meaning
import FormatCheck.Proofs.Timestamp.Order
import FormatCheck.Proofs.Json.Steps
import FormatCheck.Proofs.Log.Written
import FormatCheck.Proofs.Text.Lines
import FormatCheck.Proofs.Diff.Hunks
import FormatCheck.Proofs.Diff.Visible
import FormatCheck.Proofs.Literal.Integer
import FormatCheck.Proofs.Log.Append
