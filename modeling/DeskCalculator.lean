import DeskCalculator.Binary64.Basic
import DeskCalculator.Binary64.Division
import DeskCalculator.CommandLine.Arguments
import DeskCalculator.CommandLine.Files
import DeskCalculator.CommandLine.Program
import DeskCalculator.CommandLine.Usage
import DeskCalculator.Cursor
import DeskCalculator.Decimal.Layout
import DeskCalculator.Decimal.Shortest
import DeskCalculator.Fault
import DeskCalculator.Host.Basic
import DeskCalculator.Host.Hooks
import DeskCalculator.Instruction.Action
import DeskCalculator.Instruction.Basic
import DeskCalculator.Instruction.Perform
import DeskCalculator.Json
import DeskCalculator.Literal
import DeskCalculator.Machine.Basic
import DeskCalculator.Machine.Frame
import DeskCalculator.Machine.Journal
import DeskCalculator.Machine.Run
import DeskCalculator.Machine.Signal
import DeskCalculator.Machine.Step
import DeskCalculator.Main
import DeskCalculator.Numeral.Basic
import DeskCalculator.Numeral.Rendering
import DeskCalculator.Report
import DeskCalculator.Session
import DeskCalculator.Store.Basic
import DeskCalculator.Store.Table
import DeskCalculator.Text.Basic
import DeskCalculator.Text.Digits
import DeskCalculator.Text.Lines
import DeskCalculator.Text.Printable
import DeskCalculator.Text.Quoted
import DeskCalculator.Text.Utf8
import DeskCalculator.Value.Arithmetic
import DeskCalculator.Value.Basic
import DeskCalculator.Proofs.Activity
import DeskCalculator.Proofs.Cursor
import DeskCalculator.Proofs.Instruction.Actions
import DeskCalculator.Proofs.Instruction.Blame
import DeskCalculator.Proofs.Instruction.Congruence
import DeskCalculator.Proofs.Instruction.Levels
import DeskCalculator.Proofs.Instruction.Validity
import DeskCalculator.Proofs.Machine.Views
import DeskCalculator.Proofs.Machine.Execute
import DeskCalculator.Proofs.Machine.Turn
import DeskCalculator.Proofs.Machine.Course
import DeskCalculator.Proofs.Machine.Notices
import DeskCalculator.Proofs.Machine.Quit
import DeskCalculator.Proofs.Machine.Mirror
import DeskCalculator.Proofs.Machine.Simulation
import DeskCalculator.Proofs.Machine.Matching
import DeskCalculator.Proofs.Machine.Failing
import DeskCalculator.Proofs.Machine.Joining
import DeskCalculator.Proofs.Machine.Abreast
import DeskCalculator.Proofs.Blanks
import DeskCalculator.Proofs.Machine.Leading
import DeskCalculator.Proofs.Machine.Continuing
import DeskCalculator.Proofs.CallStack
import DeskCalculator.Proofs.Machine.Waiting
import DeskCalculator.Proofs.Unwinding
import DeskCalculator.Proofs.Flattening
import DeskCalculator.Proofs.QuitLevels
import DeskCalculator.Proofs.Validity
import DeskCalculator.Proofs.StackFrame
import DeskCalculator.Proofs.Sequencing
import DeskCalculator.Proofs.Inlining
import DeskCalculator.Proofs.Positional
import DeskCalculator.Proofs.Lengths
import DeskCalculator.Proofs.Reports
import DeskCalculator.Proofs.Numeral
import DeskCalculator.Proofs.Expression
import DeskCalculator.Proofs.Lifecycle
import DeskCalculator.Proofs.Location
import DeskCalculator.Proofs.Tracebacks
import DeskCalculator.Proofs.Leftover
import DeskCalculator.Proofs.CommandLine
import DeskCalculator.Proofs.Machine.Kindred
import DeskCalculator.Proofs.Journal
import DeskCalculator.Proofs.Tokens
import DeskCalculator.Proofs.Tokenisation
import DeskCalculator.Proofs.Sparing
import DeskCalculator.Proofs.Ranges
import DeskCalculator.Proofs.RoundTrip
import DeskCalculator.Proofs.StringLiterals
import DeskCalculator.Proofs.NumeralLiterals
import DeskCalculator.Proofs.Loops
import DeskCalculator.Proofs.Machine.Advance
import DeskCalculator.Proofs.Termination
import DeskCalculator.Proofs.Quotients
import DeskCalculator.Proofs.HookOrder
import DeskCalculator.Proofs.Instruction.Memory
import DeskCalculator.Proofs.Machine.Performances
import DeskCalculator.Proofs.RegisterSaves
import DeskCalculator.Proofs.ArrayReads
import DeskCalculator.Proofs.MixedComparison
import DeskCalculator.Proofs.Conditionals
