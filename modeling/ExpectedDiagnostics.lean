import ExpectedDiagnostics.Capture
import ExpectedDiagnostics.Check
import ExpectedDiagnostics.CommandLine
import ExpectedDiagnostics.CommandLine.Argument
import ExpectedDiagnostics.CommentGroup
import ExpectedDiagnostics.Compiler
import ExpectedDiagnostics.Counts
import ExpectedDiagnostics.Data
import ExpectedDiagnostics.Decimal.FloatText
import ExpectedDiagnostics.Decimal.Nearest
import ExpectedDiagnostics.Decimal.Shortest
import ExpectedDiagnostics.Diagnostic
import ExpectedDiagnostics.Dialect
import ExpectedDiagnostics.Discovery
import ExpectedDiagnostics.Disk
import ExpectedDiagnostics.Event
import ExpectedDiagnostics.Expectation
import ExpectedDiagnostics.Failure
import ExpectedDiagnostics.FileTree
import ExpectedDiagnostics.Index.Lines
import ExpectedDiagnostics.Index.Program
import ExpectedDiagnostics.Json.Reader
import ExpectedDiagnostics.Json.Writer
import ExpectedDiagnostics.Lexeme
import ExpectedDiagnostics.Lexeme.Ahead
import ExpectedDiagnostics.Lexeme.Extent
import ExpectedDiagnostics.Lexeme.Goal
import ExpectedDiagnostics.Lexeme.Grammar
import ExpectedDiagnostics.Lexeme.Scan
import ExpectedDiagnostics.LinkedTree
import ExpectedDiagnostics.Listing.Line
import ExpectedDiagnostics.Listing.Printer
import ExpectedDiagnostics.Listing.Reader
import ExpectedDiagnostics.Log
import ExpectedDiagnostics.Main
import ExpectedDiagnostics.Marker
import ExpectedDiagnostics.Message
import ExpectedDiagnostics.Outcome
import ExpectedDiagnostics.Path
import ExpectedDiagnostics.Problem
import ExpectedDiagnostics.Record
import ExpectedDiagnostics.Report.Document
import ExpectedDiagnostics.Report.Reporter
import ExpectedDiagnostics.Report.Terminal
import ExpectedDiagnostics.Report.WorkflowCommand
import ExpectedDiagnostics.Run
import ExpectedDiagnostics.Setting
import ExpectedDiagnostics.Settings
import ExpectedDiagnostics.Settings.Layers
import ExpectedDiagnostics.ShellWords
import ExpectedDiagnostics.Source
import ExpectedDiagnostics.Staging
import ExpectedDiagnostics.SyntaxTree
import ExpectedDiagnostics.Text.Blank
import ExpectedDiagnostics.Text.Column
import ExpectedDiagnostics.Text.Digit
import ExpectedDiagnostics.Text.LetterCase
import ExpectedDiagnostics.Text.Lines
import ExpectedDiagnostics.Text.Numeral
import ExpectedDiagnostics.Text.Printable
import ExpectedDiagnostics.Text.Quoted
import ExpectedDiagnostics.Text.Start
import ExpectedDiagnostics.Text.Width
import ExpectedDiagnostics.Toml.Moment
import ExpectedDiagnostics.Toml.Namespace
import ExpectedDiagnostics.Toml.Number
import ExpectedDiagnostics.Toml.Reader
import ExpectedDiagnostics.Toml.Text
import ExpectedDiagnostics.Utf8
import ExpectedDiagnostics.Workspace
import ExpectedDiagnostics.Proofs.StableSort
import ExpectedDiagnostics.Proofs.Index.Lines
import ExpectedDiagnostics.Proofs.Index.Program
import ExpectedDiagnostics.Proofs.CommentGroup
import ExpectedDiagnostics.Proofs.Counts
import ExpectedDiagnostics.Proofs.Outcome
import ExpectedDiagnostics.Proofs.Run.History
import ExpectedDiagnostics.Proofs.Check.Files
import ExpectedDiagnostics.Proofs.Check.Independence
import ExpectedDiagnostics.Proofs.Check.ExitStatus
import ExpectedDiagnostics.Proofs.SyntaxTree.Leaves
import ExpectedDiagnostics.Proofs.SyntaxTree.Groups
import ExpectedDiagnostics.Proofs.SyntaxTree.Lexemes
import ExpectedDiagnostics.Proofs.Marker
import ExpectedDiagnostics.Proofs.SyntaxTree.Markers
import ExpectedDiagnostics.Proofs.Resolved
import ExpectedDiagnostics.Proofs.Text.Printed
import ExpectedDiagnostics.Proofs.Except
import ExpectedDiagnostics.Proofs.Canonical
import ExpectedDiagnostics.Proofs.Run.Outcomes
import ExpectedDiagnostics.Proofs.Run.Operations
import ExpectedDiagnostics.Proofs.Run.Accounting
import ExpectedDiagnostics.Proofs.Listing.Line
import ExpectedDiagnostics.Proofs.Listing.Loop
import ExpectedDiagnostics.Proofs.Listing.RoundTrip
import ExpectedDiagnostics.Proofs.Json.Atoms
import ExpectedDiagnostics.Proofs.Json.RoundTrip
import ExpectedDiagnostics.Proofs.Record
import ExpectedDiagnostics.Proofs.Capture
import ExpectedDiagnostics.Proofs.FileTree
import ExpectedDiagnostics.Proofs.Staging.Names
import ExpectedDiagnostics.Proofs.Staging.Copies
import ExpectedDiagnostics.Proofs.Staging.MapBack
import ExpectedDiagnostics.Proofs.Compiler.ProjectFile
import ExpectedDiagnostics.Proofs.Compiler.Collect
import ExpectedDiagnostics.Proofs.Agreement
import ExpectedDiagnostics.Proofs.FileTree.Additions
import ExpectedDiagnostics.Proofs.FileTree.Below
import ExpectedDiagnostics.Proofs.Marker.Retag
import ExpectedDiagnostics.Proofs.Staging.Entering
import ExpectedDiagnostics.Proofs.Compiler.Effects
import ExpectedDiagnostics.Proofs.Compiler.Links
import ExpectedDiagnostics.Proofs.Source
import ExpectedDiagnostics.Proofs.Null
import ExpectedDiagnostics.Proofs.Staging.Inputs
import ExpectedDiagnostics.Proofs.Check.InTurn
import ExpectedDiagnostics.Proofs.Check.Repeats
import ExpectedDiagnostics.Proofs.Failure.Capture
import ExpectedDiagnostics.Proofs.Failure.Compiler
import ExpectedDiagnostics.Proofs.Failure.CommandLine
import ExpectedDiagnostics.Proofs.Check.Blocks
import ExpectedDiagnostics.Proofs.Run.Failures
import ExpectedDiagnostics.Proofs.Data
import ExpectedDiagnostics.Proofs.Settings.Checks
import ExpectedDiagnostics.Proofs.Settings.Kinds
import ExpectedDiagnostics.Proofs.Settings.Loading
import ExpectedDiagnostics.Proofs.Marker.Tags
import ExpectedDiagnostics.Proofs.Marker.Scan
import ExpectedDiagnostics.Proofs.Expectation
import ExpectedDiagnostics.Proofs.Discovery
import ExpectedDiagnostics.Proofs.Display
import ExpectedDiagnostics.Proofs.Check.Document
import ExpectedDiagnostics.Proofs.Diagnostic.Order
import ExpectedDiagnostics.Proofs.Index.History
import ExpectedDiagnostics.Proofs.Index.Dictionary
import ExpectedDiagnostics.Proofs.Index.Requests
import ExpectedDiagnostics.Proofs.Index.Routing
import ExpectedDiagnostics.Proofs.Text.Joined
import ExpectedDiagnostics.Proofs.Message
import ExpectedDiagnostics.Proofs.Record.Grammar
import ExpectedDiagnostics.Proofs.Record.Acceptance
import ExpectedDiagnostics.Proofs.Record.Links
import ExpectedDiagnostics.Proofs.Listing.Form
import ExpectedDiagnostics.Proofs.Listing.Tree
import ExpectedDiagnostics.Proofs.Text.Words
import ExpectedDiagnostics.Proofs.Marker.Extract
import ExpectedDiagnostics.Proofs.Expectation.Matching
import ExpectedDiagnostics.Proofs.Expectation.Words
import ExpectedDiagnostics.Proofs.Message.Blanks
import ExpectedDiagnostics.Proofs.Index.Keys
import ExpectedDiagnostics.Proofs.Bisection
import ExpectedDiagnostics.Proofs.SyntaxTree.Leading
import ExpectedDiagnostics.Proofs.Text.Integer
import ExpectedDiagnostics.Proofs.Report.Commands
