import FormLang.Binary64.Basic
import FormLang.Binary64.Elementary
import FormLang.Binary64.ErrorFunction
import FormLang.Binary64.Gamma
import FormLang.Binary64.Series
import FormLang.Binary64.Whole
import FormLang.Builtin.Analysis
import FormLang.Builtin.Apply
import FormLang.Builtin.Arithmetic
import FormLang.Builtin.Fault
import FormLang.Builtin.Integers
import FormLang.Builtin.Word
import FormLang.Code
import FormLang.Command
import FormLang.Decimal.Integer
import FormLang.Decimal.Layout
import FormLang.Decimal.Places
import FormLang.Decimal.Shortest
import FormLang.Diagnostic
import FormLang.Disk.Basic
import FormLang.Disk.Path
import FormLang.Eval.Basic
import FormLang.Eval.Error
import FormLang.Eval.Event
import FormLang.Eval.Form
import FormLang.Eval.Machine
import FormLang.Expr.Basic
import FormLang.Expr.Printer
import FormLang.Expr.Reader
import FormLang.Help
import FormLang.History
import FormLang.Json.Basic
import FormLang.Json.Decode
import FormLang.Json.Reader
import FormLang.Json.Subset
import FormLang.Main
import FormLang.Moment
import FormLang.Numeral
import FormLang.Program
import FormLang.Proofs.Eval.Levels
import FormLang.Proofs.Heap
import FormLang.Prompt.Basic
import FormLang.Prompt.Files
import FormLang.Prompt.Reading
import FormLang.Registry
import FormLang.Scenario
import FormLang.Scope
import FormLang.Session
import FormLang.Settings
import FormLang.Statement
import FormLang.Summary
import FormLang.Text.Blank
import FormLang.Text.Bytes
import FormLang.Text.Case
import FormLang.Text.Chunk
import FormLang.Text.Lines
import FormLang.Text.Pieces
import FormLang.Text.Printable
import FormLang.Text.Replace
import FormLang.Text.Sort
import FormLang.Token.Balance
import FormLang.Token.Basic
import FormLang.Value.Basic
import FormLang.Value.Printer
import FormLang.Proofs.Eval.Frame
import FormLang.Proofs.Builtin.Result
import FormLang.Proofs.Builtin.Faults
import FormLang.Proofs.Binary64.SquareRoot
import FormLang.Proofs.Builtin.Division
import FormLang.Proofs.Eval.Native
import FormLang.Proofs.Eval.Vocabulary
import FormLang.Proofs.Eval.Simulation
import FormLang.Proofs.Eval.Scoping
import FormLang.Proofs.Expr.Parse
import FormLang.Proofs.Session.Limit
import FormLang.Proofs.Eval.Brackets
import FormLang.Proofs.Eval.Silent
import FormLang.Proofs.Eval.Activity
import FormLang.Proofs.Eval.Visibility
import FormLang.Proofs.Session.Basic
import FormLang.Proofs.Session.Failure
import FormLang.Proofs.Session.Errors
import FormLang.Proofs.Session.Trace
import FormLang.Proofs.Session.Silent
import FormLang.Proofs.Text.Pieces
import FormLang.Proofs.Token.Text
import FormLang.Proofs.Decimal.Words
import FormLang.Proofs.Expr.Printed
import FormLang.Proofs.Expr.RoundTrip
import FormLang.Proofs.Summary.Counting
import FormLang.Proofs.Summary.File
import FormLang.Proofs.Session.Summary
import FormLang.Proofs.Statement.Gathering
import FormLang.Proofs.Statement.Account
import FormLang.Proofs.Program.Format
import FormLang.Proofs.Program.Append
import FormLang.Proofs.Program.Check
import FormLang.Proofs.Prompt.Script
import FormLang.Proofs.Expr.Stream
import FormLang.Proofs.Eval.Budget
import FormLang.Proofs.Session.Budget
import FormLang.Proofs.Token.Runs
import FormLang.Proofs.Builtin.Exact
import FormLang.Proofs.Builtin.Rounding
import FormLang.Proofs.Text.Occurrence
import FormLang.Proofs.Expr.Numerals
import FormLang.Proofs.Eval.FormatText
import FormLang.Proofs.Builtin.Divisor
import FormLang.Proofs.Eval.Nesting
import FormLang.Proofs.Session.Nesting
import FormLang.Proofs.Session.Functions
import FormLang.Proofs.Prompt.Interrupt
import FormLang.Proofs.Builtin.IntegerRoot
import FormLang.Proofs.Text.Order
import FormLang.Proofs.Binary64.Magnitude
import FormLang.Proofs.Binary64.Pattern
import FormLang.Proofs.Binary64.Order
import FormLang.Proofs.Value.Order
import FormLang.Proofs.Builtin.Comparison
import FormLang.Proofs.Builtin.Extremes
import FormLang.Proofs.Heap.Chain
import FormLang.Proofs.Expr.Integers
import FormLang.Proofs.Json.Subset
import FormLang.Proofs.Session.Lines
import FormLang.Proofs.Prompt.Changes
