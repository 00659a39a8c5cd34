import LiteratureReview.CommandLine.Failure
import LiteratureReview.CommandLine.Format
import LiteratureReview.CommandLine.Grammar
import LiteratureReview.CommandLine.Invocation
import LiteratureReview.CommandLine.Level
import LiteratureReview.CommandLine.Run
import LiteratureReview.Decimal.Double
import LiteratureReview.Decimal.Notation
import LiteratureReview.Decimal.Power
import LiteratureReview.Decimal.Shortest
import LiteratureReview.Extraction.FieldConfig
import LiteratureReview.Extraction.Flatten
import LiteratureReview.Installation.Install
import LiteratureReview.Installation.Plan
import LiteratureReview.Json.Basic
import LiteratureReview.Json.Comparison
import LiteratureReview.Json.Cursor
import LiteratureReview.Json.Decoding
import LiteratureReview.Json.Encoding
import LiteratureReview.Json.Fault
import LiteratureReview.Json.Pointer
import LiteratureReview.Json.Printer
import LiteratureReview.Json.Reader
import LiteratureReview.Json.Shape
import LiteratureReview.Main
import LiteratureReview.Project.Codes
import LiteratureReview.Project.Responses
import LiteratureReview.Project.RowId
import LiteratureReview.Project.Rows
import LiteratureReview.Proofs.CommandLine.DryRun
import LiteratureReview.Proofs.CommandLine.WithDefaults
import LiteratureReview.Proofs.Decimal.Rounding
import LiteratureReview.Proofs.Decimal.Shortest
import LiteratureReview.Proofs.Extraction.Composition
import LiteratureReview.Proofs.Extraction.Config
import LiteratureReview.Proofs.Extraction.Flatten
import LiteratureReview.Proofs.Extraction.Preorder
import LiteratureReview.Proofs.Extraction.Recovery
import LiteratureReview.Proofs.Installation.Answers
import LiteratureReview.Proofs.Installation.Attempts
import LiteratureReview.Proofs.Installation.Closure
import LiteratureReview.Proofs.Installation.Consistency
import LiteratureReview.Proofs.Installation.Counting
import LiteratureReview.Proofs.Installation.Lasting
import LiteratureReview.Proofs.Installation.Mirroring
import LiteratureReview.Proofs.Installation.Numbering
import LiteratureReview.Proofs.Installation.Outcome
import LiteratureReview.Proofs.Installation.Ownership
import LiteratureReview.Proofs.Installation.Planning
import LiteratureReview.Proofs.Installation.Published
import LiteratureReview.Proofs.Installation.Race
import LiteratureReview.Proofs.Installation.Reachable
import LiteratureReview.Proofs.Installation.Rows
import LiteratureReview.Proofs.Installation.Transaction
import LiteratureReview.Proofs.Installation.Validity
import LiteratureReview.Proofs.Json.Inversion
import LiteratureReview.Proofs.Json.Numerals
import LiteratureReview.Proofs.Json.Ordering
import LiteratureReview.Proofs.Json.Pointers
import LiteratureReview.Proofs.Json.Proper
import LiteratureReview.Proofs.Json.ReadBack
import LiteratureReview.Proofs.Json.Records
import LiteratureReview.Proofs.Json.Resolution
import LiteratureReview.Proofs.Json.Scanning
import LiteratureReview.Proofs.Json.Shaped
import LiteratureReview.Proofs.Json.Sound
import LiteratureReview.Proofs.Json.Unordered
import LiteratureReview.Proofs.Json.Writing
import LiteratureReview.Proofs.Protocol.Categories
import LiteratureReview.Proofs.Protocol.Decoded
import LiteratureReview.Proofs.Protocol.Grammar
import LiteratureReview.Proofs.Protocol.Layout
import LiteratureReview.Proofs.Protocol.Lossless
import LiteratureReview.Proofs.Protocol.RoundTrip
import LiteratureReview.Proofs.Protocol.Sections
import LiteratureReview.Proofs.Protocol.Typing
import LiteratureReview.Proofs.Protocol.WrittenBack
import LiteratureReview.Proofs.Schema.Acceptance
import LiteratureReview.Proofs.Schema.Agreement
import LiteratureReview.Proofs.Schema.Below
import LiteratureReview.Proofs.Schema.Conformance
import LiteratureReview.Proofs.Schema.Dispatch
import LiteratureReview.Proofs.Schema.Forms
import LiteratureReview.Proofs.Schema.Meaning
import LiteratureReview.Proofs.Schema.Members
import LiteratureReview.Proofs.Schema.NullableOptions
import LiteratureReview.Proofs.Schema.Outline
import LiteratureReview.Proofs.Schema.Places
import LiteratureReview.Proofs.Schema.ProtocolGrammar
import LiteratureReview.Proofs.Schema.Refinement
import LiteratureReview.Proofs.Schema.Rewriting
import LiteratureReview.Proofs.Schema.RowGrammars
import LiteratureReview.Proofs.Schema.TaggedUnions
import LiteratureReview.Proofs.Schema.Unfolding
import LiteratureReview.Proofs.Settings.Conditions
import LiteratureReview.Proofs.Settings.Extraction
import LiteratureReview.Proofs.Settings.Filling
import LiteratureReview.Proofs.Settings.Gaps
import LiteratureReview.Proofs.Settings.Layers
import LiteratureReview.Proofs.Settings.Loading
import LiteratureReview.Proofs.Store.Columns
import LiteratureReview.Proofs.Store.Conflicts
import LiteratureReview.Proofs.Store.Constraints
import LiteratureReview.Proofs.Store.File
import LiteratureReview.Proofs.Store.Records
import LiteratureReview.Proofs.Store.Texts
import LiteratureReview.Proofs.Text.Lowercase
import LiteratureReview.Proofs.Time.Calendar
import LiteratureReview.Proofs.Time.Parts
import LiteratureReview.Proofs.Time.ReadBack
import LiteratureReview.Proofs.Toml.Keys
import LiteratureReview.Proofs.Validation.Acceptance
import LiteratureReview.Proofs.Validation.Canonical
import LiteratureReview.Proofs.Validation.Edits
import LiteratureReview.Proofs.Validation.Listing
import LiteratureReview.Proofs.Validation.Mentions
import LiteratureReview.Proofs.Validation.Names
import LiteratureReview.Proofs.Validation.Paths
import LiteratureReview.Proofs.Validation.References
import LiteratureReview.Proofs.Validation.Repair
import LiteratureReview.Proofs.Validation.Variants
import LiteratureReview.Proofs.Validation.Verdict
import LiteratureReview.Proofs.Validation.Walks
import LiteratureReview.Proofs.Validation.WritingBack
import LiteratureReview.Protocol.Category
import LiteratureReview.Protocol.Document
import LiteratureReview.Protocol.Scalar
import LiteratureReview.Protocol.Sections
import LiteratureReview.Schema.Basic
import LiteratureReview.Schema.Check
import LiteratureReview.Schema.Forms
import LiteratureReview.Schema.NullableOptions
import LiteratureReview.Schema.Pattern
import LiteratureReview.Schema.ProtocolForms
import LiteratureReview.Schema.Registry
import LiteratureReview.Schema.Rewriting
import LiteratureReview.Schema.RowForms
import LiteratureReview.Schema.TaggedUnions
import LiteratureReview.Schema.Violation
import LiteratureReview.Settings.Basic
import LiteratureReview.Settings.Dotenv
import LiteratureReview.Settings.Environment
import LiteratureReview.Settings.Extraction
import LiteratureReview.Settings.Gaps
import LiteratureReview.Settings.Loading
import LiteratureReview.Settings.Tree
import LiteratureReview.Store.Cell
import LiteratureReview.Store.Column
import LiteratureReview.Store.Database
import LiteratureReview.Store.Detail
import LiteratureReview.Store.Failure
import LiteratureReview.Store.File
import LiteratureReview.Store.Queries
import LiteratureReview.Store.Records
import LiteratureReview.Store.Tables
import LiteratureReview.Text.Alphanumeric
import LiteratureReview.Text.Blank
import LiteratureReview.Text.Counted
import LiteratureReview.Text.Lowercase
import LiteratureReview.Text.Mark
import LiteratureReview.Text.Quoted
import LiteratureReview.Text.Search
import LiteratureReview.Time.Calendar
import LiteratureReview.Time.Text
import LiteratureReview.Toml.Date
import LiteratureReview.Toml.Document
import LiteratureReview.Toml.Number
import LiteratureReview.Toml.Scanner
import LiteratureReview.Toml.Tables
import LiteratureReview.Toml.Text
import LiteratureReview.Toml.Value
import LiteratureReview.Validation.References
import LiteratureReview.Validation.Validator
