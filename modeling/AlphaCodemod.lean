import AlphaCodemod.Text.Utf8
import AlphaCodemod.Text.Blank
import AlphaCodemod.Text.Alphanumeric
import AlphaCodemod.Text.Terminal
import AlphaCodemod.Number.Decimal
import AlphaCodemod.Number.Binary64
import AlphaCodemod.Number.Spelling
import AlphaCodemod.Opacity
import AlphaCodemod.Source.Call
import AlphaCodemod.Source.Edits
import AlphaCodemod.Path
import AlphaCodemod.Report.Summary
import AlphaCodemod.Report.Sink
import AlphaCodemod.Report.Console
import AlphaCodemod.Identity
import AlphaCodemod.Activity
import AlphaCodemod.CrashReport
import AlphaCodemod.Log.Event
import AlphaCodemod.Regex.Mode
import AlphaCodemod.Regex.Escape
import AlphaCodemod.Regex.Charset
import AlphaCodemod.Regex.Basic
import AlphaCodemod.Log.ValuePattern
import AlphaCodemod.Log.Directive
import AlphaCodemod.Glob.Basic
import AlphaCodemod.Glob.Reader
import AlphaCodemod.Glob.Search
import AlphaCodemod.Settings.Basic
import AlphaCodemod.Arguments.Basic
import AlphaCodemod.Arguments.Reader
import AlphaCodemod.Arguments.Help
import AlphaCodemod.Text.Shown
import AlphaCodemod.Text.Quoted
import AlphaCodemod.Number.Shortest
import AlphaCodemod.Toml.Span
import AlphaCodemod.Toml.Text
import AlphaCodemod.Toml.Token
import AlphaCodemod.Toml.Moment
import AlphaCodemod.Toml.Number
import AlphaCodemod.Toml.Value
import AlphaCodemod.Toml.Document
import AlphaCodemod.Toml.Table
import AlphaCodemod.Settings.Document
import AlphaCodemod.FileSystem.Fault
import AlphaCodemod.FileSystem.Basic
import AlphaCodemod.FileSystem.Resolve
import AlphaCodemod.FileSystem.Access
import AlphaCodemod.FileSystem.Replace
import AlphaCodemod.Error
import AlphaCodemod.Scan.Options
import AlphaCodemod.Scan.Run
import AlphaCodemod.Scan.Basic
import AlphaCodemod.Settings.Load
import AlphaCodemod.Migration
import AlphaCodemod.Log.Filter
import AlphaCodemod.Program
import AlphaCodemod.Main
import AlphaCodemod.Proofs.Source.Pattern
import AlphaCodemod.Proofs.Source.Draft
import AlphaCodemod.Proofs.Source.Occurrences
import AlphaCodemod.Proofs.Number.Digits
import AlphaCodemod.Proofs.Source.Content
import AlphaCodemod.Proofs.Number.Rounding
import AlphaCodemod.Proofs.Source.Accuracy
import AlphaCodemod.Proofs.FileSystem.Contents
import AlphaCodemod.Proofs.Text.Utf8
import AlphaCodemod.Proofs.FileSystem.Resolve
import AlphaCodemod.Proofs.FileSystem.Temporary
import AlphaCodemod.Proofs.FileSystem.Replace
import AlphaCodemod.Proofs.Scan.Completing
import AlphaCodemod.Proofs.Scan.Run
import AlphaCodemod.Proofs.Scan.Visit
import AlphaCodemod.Proofs.Scan.Exits
import AlphaCodemod.Proofs.Scan.Again
import AlphaCodemod.Proofs.FileSystem.Below
import AlphaCodemod.Proofs.FileSystem.Descent
import AlphaCodemod.Proofs.Scan.Walk
import AlphaCodemod.Proofs.Scan.LeftAlone
import AlphaCodemod.Proofs.Scan.Telling
import AlphaCodemod.Proofs.Scan.DryRun
import AlphaCodemod.Proofs.Migration
import AlphaCodemod.Proofs.Report.ReadBack
import AlphaCodemod.Proofs.Scan.Report
import AlphaCodemod.Proofs.Activity
import AlphaCodemod.Proofs.Arguments.Verbosity
import AlphaCodemod.Proofs.Logging
import AlphaCodemod.Proofs.Number.Order
import AlphaCodemod.Proofs.Source.Locality
import AlphaCodemod.Proofs.Source.Monotone
import AlphaCodemod.Proofs.Arguments.Order
import AlphaCodemod.Proofs.Toml.Written
import AlphaCodemod.Proofs.Toml.Assignments
import AlphaCodemod.Proofs.Settings.Written
import AlphaCodemod.Proofs.Glob.Idiom
import AlphaCodemod.Proofs.Report.Truncation
import AlphaCodemod.Proofs.Scan.Exclusion
import AlphaCodemod.Proofs.Guards
import AlphaCodemod.Proofs.Source.Lines
import AlphaCodemod.Proofs.Source.Room
