import Literate.CommandLine.Arguments
import Literate.CommandLine.Run
import Literate.Compile.Document
import Literate.Compile.Error
import Literate.Compile.Run
import Literate.Compile.Step
import Literate.Config.Basic
import Literate.Config.Expansion
import Literate.Config.Read
import Literate.Config.Write
import Literate.Conversion
import Literate.Diff.Compaction
import Literate.Diff.Edit
import Literate.Diff.Middle
import Literate.Diff.Script
import Literate.Diff.Unified
import Literate.Document.Element
import Literate.Document.FormatError
import Literate.Document.Markup
import Literate.Document.Node
import Literate.Document.Parse
import Literate.Document.Reader
import Literate.Duration
import Literate.Execution
import Literate.FileState
import Literate.FileTree
import Literate.Main
import Literate.Patch.Apply
import Literate.Patch.Hunk
import Literate.Proofs.CommandLine.Files
import Literate.Proofs.Compile.Disclosure
import Literate.Proofs.Compile.Edits
import Literate.Proofs.Compile.Evolution
import Literate.Proofs.Compile.History
import Literate.Proofs.Compile.Independence
import Literate.Proofs.Compile.Meaning
import Literate.Proofs.Compile.Output
import Literate.Proofs.Compile.Plain
import Literate.Proofs.Compile.Returned
import Literate.Proofs.Compile.Runs
import Literate.Proofs.Compile.Showing
import Literate.Proofs.Compile.Steps
import Literate.Proofs.Config.Saved
import Literate.Proofs.Config.Written
import Literate.Proofs.Conversion
import Literate.Proofs.Conversion.Diffed
import Literate.Proofs.Conversion.Replaced
import Literate.Proofs.Conversion.Rewriting
import Literate.Proofs.Diff.Compaction
import Literate.Proofs.Diff.Groups
import Literate.Proofs.Diff.Middle
import Literate.Proofs.Diff.Route
import Literate.Proofs.Diff.Script
import Literate.Proofs.Diff.Sinking
import Literate.Proofs.Document.Canonical
import Literate.Proofs.Document.Carried
import Literate.Proofs.Document.Contents
import Literate.Proofs.Document.Frame
import Literate.Proofs.Document.Grammar
import Literate.Proofs.Document.Joined
import Literate.Proofs.Document.Layout
import Literate.Proofs.Document.Locality
import Literate.Proofs.Document.Relabel
import Literate.Proofs.Document.Reread
import Literate.Proofs.Document.Returned
import Literate.Proofs.Document.Splice
import Literate.Proofs.Document.Tidy
import Literate.Proofs.Document.Tiling
import Literate.Proofs.Document.WellFormed
import Literate.Proofs.Document.Written
import Literate.Proofs.Patch.Added
import Literate.Proofs.Patch.ApplyBack
import Literate.Proofs.Patch.Carried
import Literate.Proofs.Patch.Generated
import Literate.Proofs.Patch.Grammar
import Literate.Proofs.Patch.Header
import Literate.Proofs.Patch.Lossless
import Literate.Proofs.Patch.Placed
import Literate.Proofs.Patch.Placement
import Literate.Proofs.Patch.Reading
import Literate.Proofs.Patch.Sides
import Literate.Proofs.Patch.Slices
import Literate.Proofs.Patch.Trimmed
import Literate.Proofs.Rendered
import Literate.Proofs.Shell.Arithmetic
import Literate.Proofs.Shell.Builtin
import Literate.Proofs.Shell.Evaluation
import Literate.Proofs.Shell.Expansion
import Literate.Proofs.Shell.Fields
import Literate.Proofs.Shell.Isolation
import Literate.Proofs.Shell.Later
import Literate.Proofs.Shell.Line
import Literate.Proofs.Shell.Parser
import Literate.Proofs.Shell.Pattern
import Literate.Proofs.Shell.Quoting
import Literate.Proofs.Shell.Regex
import Literate.Proofs.Shell.System
import Literate.Proofs.Shell.Utility.Lines
import Literate.Proofs.Shell.Utility.Search
import Literate.Proofs.Snippet.Arrivals
import Literate.Proofs.Snippet.Pending
import Literate.Proofs.Text.Cutting
import Literate.Proofs.Text.Decimal
import Literate.Proofs.Text.Lines
import Literate.Proofs.Text.Octets
import Literate.Proofs.Text.Returned
import Literate.Proofs.Text.Returns
import Literate.Proofs.Toml.Statements
import Literate.Proofs.Toml.Strings
import Literate.Proofs.Toml.Tables
import Literate.Proofs.Toml.Values
import Literate.Rendered
import Literate.Shell.Arithmetic
import Literate.Shell.Builtin
import Literate.Shell.Command
import Literate.Shell.Condition
import Literate.Shell.Evaluation
import Literate.Shell.Expansion
import Literate.Shell.Fields
import Literate.Shell.Format
import Literate.Shell.Parser
import Literate.Shell.Pattern
import Literate.Shell.Regex
import Literate.Shell.State
import Literate.Shell.System
import Literate.Shell.Utility.Basic
import Literate.Shell.Utility.Characters
import Literate.Shell.Utility.Lines
import Literate.Shell.Utility.Paths
import Literate.Shell.Utility.Printing
import Literate.Shell.Utility.Search
import Literate.Shell.Utility.StreamEditor
import Literate.Shell.Utility.Table
import Literate.Shell.Word
import Literate.Snippet.Basic
import Literate.Snippet.Registry
import Literate.Source.Convention
import Literate.Source.Line
import Literate.Source.Span
import Literate.Text.Basic
import Literate.Text.Lines
import Literate.Text.Octets
import Literate.Text.Order
import Literate.Text.Quoted
import Literate.Toml.Reader
import Literate.Toml.Scalar
import Literate.Toml.Scan
import Literate.Toml.Value
import Literate.Toml.Writer
import Literate.Unicode.Alphanumeric
import Literate.Unicode.DecimalNumber
import Literate.Unicode.GraphemeExtend
import Literate.Unicode.Ranges
import Literate.Unicode.Unprintable
import Literate.Unicode.WhiteSpace
import Literate.Word
