import Daybook.Calendar.Date
import Daybook.Calendar.DateText
import Daybook.Calendar.TimeOfDay
import Daybook.Command.Convert
import Daybook.Command.Result
import Daybook.Command.Script
import Daybook.Command.Validate
import Daybook.CommandLine.Arguments
import Daybook.CommandLine.HelpPage
import Daybook.CommandLine.Option
import Daybook.CommandLine.Words
import Daybook.Conversion.Config
import Daybook.Conversion.Converter
import Daybook.Conversion.Sleep
import Daybook.Diagnostic.Code
import Daybook.Diagnostic.DiagnosticJson
import Daybook.Diagnostic.Finding
import Daybook.Diagnostic.Span
import Daybook.Diagnostics
import Daybook.Files.Error
import Daybook.Files.Path
import Daybook.Files.Tree
import Daybook.Json.Decode
import Daybook.Json.Reader
import Daybook.Json.Value
import Daybook.Json.Writer
import Daybook.Line
import Daybook.Main
import Daybook.Mapping
import Daybook.Program
import Daybook.Proofs.Calendar.Date
import Daybook.Proofs.Calendar.DateText
import Daybook.Proofs.Calendar.DayNumber
import Daybook.Proofs.Calendar.MonthDays
import Daybook.Proofs.Calendar.MonthNumber
import Daybook.Proofs.Calendar.TimeText
import Daybook.Proofs.Command.Convert
import Daybook.Proofs.Conversion.Chain
import Daybook.Proofs.Conversion.Converter
import Daybook.Proofs.Conversion.Linking
import Daybook.Proofs.Conversion.MissingSleep
import Daybook.Proofs.Conversion.Readable
import Daybook.Proofs.Conversion.Revalidation
import Daybook.Proofs.Conversion.Run
import Daybook.Proofs.Conversion.Scopes
import Daybook.Proofs.Conversion.Sleep
import Daybook.Proofs.Conversion.Spans
import Daybook.Proofs.Conversion.TotalTime
import Daybook.Proofs.Conversion.Unreadable
import Daybook.Proofs.Conversion.Verdict
import Daybook.Proofs.Conversion.Workers
import Daybook.Proofs.Diagnostic.DiagnosticJson
import Daybook.Proofs.Diagnostic.Finding
import Daybook.Proofs.Diagnostic.Order
import Daybook.Proofs.Diagnostics
import Daybook.Proofs.Diagnostics.Calls
import Daybook.Proofs.Files.Tree
import Daybook.Proofs.Json.Layout
import Daybook.Proofs.Json.RoundTrip
import Daybook.Proofs.Json.Tokens
import Daybook.Proofs.Line
import Daybook.Proofs.Line.Activity
import Daybook.Proofs.Line.Kinds
import Daybook.Proofs.Mapping
import Daybook.Proofs.Record.Chain
import Daybook.Proofs.Record.Grouping
import Daybook.Proofs.Record.MonthGroups
import Daybook.Proofs.Record.MonthPartition
import Daybook.Proofs.Record.Months
import Daybook.Proofs.Record.RecordJson
import Daybook.Proofs.Record.Sorting
import Daybook.Proofs.Record.TotalTime
import Daybook.Proofs.Report
import Daybook.Proofs.Report.Attempts
import Daybook.Proofs.Rules.Durations
import Daybook.Proofs.Rules.Frozen
import Daybook.Proofs.Rules.Resolution
import Daybook.Proofs.Rules.Table
import Daybook.Proofs.Rules.TopParent
import Daybook.Proofs.Scan.Activities
import Daybook.Proofs.Scan.Columns
import Daybook.Proofs.Scan.Concatenation
import Daybook.Proofs.Scan.Dates
import Daybook.Proofs.Scan.DayFindings
import Daybook.Proofs.Scan.DayLines
import Daybook.Proofs.Scan.Findings
import Daybook.Proofs.Scan.HeaderOrder
import Daybook.Proofs.Scan.Headers
import Daybook.Proofs.Scan.InBlocks
import Daybook.Proofs.Scan.LineFindings
import Daybook.Proofs.Scan.Reading
import Daybook.Proofs.Scan.Rejected
import Daybook.Proofs.Scan.Remarks
import Daybook.Proofs.Scan.Run
import Daybook.Proofs.Scan.Spans
import Daybook.Proofs.Scan.Steps
import Daybook.Proofs.Scan.Unfinished
import Daybook.Proofs.Text.Cut
import Daybook.Proofs.Text.Decimal
import Daybook.Proofs.Text.Lines
import Daybook.Proofs.Text.Trim
import Daybook.Proofs.Validation.Batch
import Daybook.Proofs.Validation.DayCount
import Daybook.Proofs.Validation.Finding
import Daybook.Proofs.Validation.Gaps
import Daybook.Proofs.Validation.MissingDates
import Daybook.Proofs.Validation.Plausible
import Daybook.Proofs.Validation.Run
import Daybook.Proofs.Validation.Scopes
import Daybook.Record.Basic
import Daybook.Record.RecordJson
import Daybook.Report
import Daybook.Rules.Config
import Daybook.Rules.HeaderField
import Daybook.Rules.Resolve
import Daybook.Rules.RulesJson
import Daybook.Rules.Table
import Daybook.Scan.Block
import Daybook.Scan.DayLine
import Daybook.Scan.Scanner
import Daybook.Settings.Basic
import Daybook.Settings.Layers
import Daybook.Settings.Literal
import Daybook.Settings.Variable
import Daybook.Text.Decimal
import Daybook.Text.Lines
import Daybook.Text.Parts
import Daybook.Toml.Document
import Daybook.Toml.Reader
import Daybook.Toml.Table
import Daybook.Validation.Batch
import Daybook.Validation.Config
