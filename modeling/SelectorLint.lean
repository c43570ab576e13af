import SelectorLint.CommandLine
import SelectorLint.CommandLine.Help
import SelectorLint.CommandLine.Options
import SelectorLint.Config
import SelectorLint.Decimal.Binary64
import SelectorLint.Files.Snapshot
import SelectorLint.Files.System
import SelectorLint.Files.Tree
import SelectorLint.Finding
import SelectorLint.Finding.Collection
import SelectorLint.Finding.Occurrences
import SelectorLint.Inspection
import SelectorLint.Log.Event
import SelectorLint.Log.Logged
import SelectorLint.Project
import SelectorLint.Project.Failure
import SelectorLint.Project.Walk
import SelectorLint.Proofs.Finding.Collection
import SelectorLint.Proofs.Finding.Line
import SelectorLint.Proofs.Inspection.Account
import SelectorLint.Proofs.Inspection.Clean
import SelectorLint.Proofs.Inspection.Exactness
import SelectorLint.Proofs.Selector.Parts
import SelectorLint.Proofs.Stylesheet.AtRules
import SelectorLint.Proofs.Stylesheet.Completeness
import SelectorLint.Proofs.Stylesheet.Grammar
import SelectorLint.Proofs.Stylesheet.Quotation
import SelectorLint.Proofs.Stylesheet.Runs
import SelectorLint.Proofs.Stylesheet.Stretch
import SelectorLint.Proofs.Text.Trim
import SelectorLint.Report
import SelectorLint.Report.Json
import SelectorLint.Selector.Kind
import SelectorLint.Selector.Parts
import SelectorLint.Selector.Stripped
import SelectorLint.Stylesheet.Context
import SelectorLint.Stylesheet.Machine
import SelectorLint.Stylesheet.Position
import SelectorLint.Stylesheet.Prelude
import SelectorLint.Text.Blank
import SelectorLint.Text.ControlSequence
import SelectorLint.Text.Offset
import SelectorLint.Text.Quoted
import SelectorLint.Text.Unprintable
import SelectorLint.Text.Utf8
import SelectorLint.Toml.Document
import SelectorLint.Toml.Item
import SelectorLint.Toml.Reader
import SelectorLint.Toml.Scalar
import SelectorLint.Main
import SelectorLint.Proofs.Stylesheet.Coherence
import SelectorLint.Proofs.Stylesheet.Agreement
import SelectorLint.Proofs.Stylesheet.Comments
import SelectorLint.Proofs.Stylesheet.Literals
import SelectorLint.Proofs.Stylesheet.Canonical
import SelectorLint.Proofs.Stylesheet.Positions
import SelectorLint.Proofs.Stylesheet.Clearing
import SelectorLint.Proofs.Stylesheet.Spans
import SelectorLint.Proofs.Stylesheet.SpanOrder
import SelectorLint.Proofs.Inspection.Writes
import SelectorLint.Proofs.Selector.StringEnds
import SelectorLint.Proofs.Report.Lines
import SelectorLint.Proofs.Project.Ends
import SelectorLint.Proofs.CommandLine.Discipline
import SelectorLint.Proofs.Text.Splitting
import SelectorLint.Proofs.Selector.OnePass
import SelectorLint.Proofs.Selector.Bracketing
import SelectorLint.Proofs.Selector.Stripping
import SelectorLint.Proofs.Project.Discovery
import SelectorLint.Proofs.Project.Unmatched
import SelectorLint.Proofs.Finding.Insertions
import SelectorLint.Proofs.Stylesheet.Checked
import SelectorLint.Proofs.Report.Decoding
