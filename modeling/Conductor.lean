import Conductor.Address.Dispatcher
import Conductor.Address.Handler
import Conductor.CommandLine
import Conductor.Config
import Conductor.Decimal.Binary
import Conductor.Decimal.Digits
import Conductor.Decimal.Layout
import Conductor.Decimal.Reading
import Conductor.Description
import Conductor.Document.Charset
import Conductor.Document.Exchange
import Conductor.Document.Json
import Conductor.Document.Structured
import Conductor.Document.Yaml
import Conductor.Document.Yaml.Scalar
import Conductor.Document.Yaml.Token
import Conductor.Document.Yaml.Writer
import Conductor.Error
import Conductor.Files
import Conductor.Function.Binding
import Conductor.Function.Builtin
import Conductor.Function.Entry
import Conductor.Function.Host
import Conductor.Function.Resolver
import Conductor.Http
import Conductor.Interpolation
import Conductor.Main
import Conductor.Memory
import Conductor.Module.Loader
import Conductor.Module.Location
import Conductor.Moment
import Conductor.Number
import Conductor.Operator
import Conductor.Path
import Conductor.Pattern
import Conductor.Pattern.Node
import Conductor.Report
import Conductor.Run.Builtin
import Conductor.Run.Dispatch
import Conductor.Run.Eval
import Conductor.Run.Exec
import Conductor.Run.Load
import Conductor.Run.Machine
import Conductor.Run.Require
import Conductor.Run.Routine
import Conductor.Run.Schedule
import Conductor.Run.Script
import Conductor.Run.Step
import Conductor.Stem
import Conductor.Store
import Conductor.Syntax.Expr
import Conductor.Syntax.Grammar
import Conductor.Syntax.Line
import Conductor.Syntax.Program
import Conductor.Syntax.Statement
import Conductor.Syntax.Token
import Conductor.Table
import Conductor.Text.Case
import Conductor.Text.Property
import Conductor.Text.Quoted
import Conductor.Text.Slice
import Conductor.Text.Split
import Conductor.Tree.Coerce
import Conductor.Tree.Plain
import Conductor.Tree.Same
import Conductor.Tree.Shown
import Conductor.Url
import Conductor.Value
import Conductor.Proofs.Document.Encoding
import Conductor.Proofs.Module.Orderly
import Conductor.Proofs.Run.Builtins
import Conductor.Proofs.Run.Meets
import Conductor.Proofs.Module.Coherent
import Conductor.Proofs.Module.Turn
import Conductor.Proofs.Run.Control
import Conductor.Proofs.Run.Escape
import Conductor.Proofs.Run.Isolation
import Conductor.Proofs.Run.SelfWait
import Conductor.Proofs.Schedule.Deadlock
import Conductor.Proofs.Schedule.Outcome
import Conductor.Proofs.Run.ByValue
import Conductor.Proofs.Run.Trap
import Conductor.Proofs.Syntax.RoundTrip
import Conductor.Proofs.Syntax.Agreement
import Conductor.Proofs.Syntax.Outline
import Conductor.Proofs.Syntax.LogicalLines
import Conductor.Proofs.Syntax.Faults
import Conductor.Proofs.Syntax.Completion
import Conductor.Proofs.Syntax.Literals
import Conductor.Proofs.Syntax.Alternative
import Conductor.Proofs.Module.Ledger
import Conductor.Proofs.Run.Composed
import Conductor.Proofs.Run.Bookkeeping
import Conductor.Proofs.Schedule.Books
import Conductor.Proofs.Memory.Decoding
import Conductor.Proofs.Run.Cancellation
import Conductor.Proofs.Run.Residue
import Conductor.Proofs.Run.Forwarding
import Conductor.Proofs.Run.StoredEntries
import Conductor.Proofs.Run.Recorded
import Conductor.Proofs.Run.Reported
import Conductor.Proofs.Function.Refusals
import Conductor.Proofs.Run.Tiers
import Conductor.Proofs.Run.Forms
import Conductor.Proofs.Interpolation.Cut
import Conductor.Proofs.Interpolation.Stray
import Conductor.Proofs.Interpolation.Registry
import Conductor.Proofs.Memory.Rows
import Conductor.Proofs.Memory.Independence
import Conductor.Proofs.Syntax.Pointing
import Conductor.Proofs.Syntax.Separators
import Conductor.Proofs.Run.Enclosure
import Conductor.Proofs.Run.Counted
import Conductor.Proofs.Run.Replies
import Conductor.Proofs.Run.Circles
import Conductor.Proofs.Http.Retries
import Conductor.Proofs.Path.Spelling
import Conductor.Proofs.Schedule.Reports
import Conductor.Proofs.Schedule.Edges
import Conductor.Proofs.Module.Nearest
import Conductor.Proofs.Run.Splitting
import Conductor.Proofs.Operator.Equality
import Conductor.Proofs.Syntax.Stripping
