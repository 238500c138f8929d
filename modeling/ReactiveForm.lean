import ReactiveForm.CommandLine.Change
import ReactiveForm.CommandLine.Command
import ReactiveForm.CommandLine.Report
import ReactiveForm.CommandLine.Run
import ReactiveForm.Compare
import ReactiveForm.Definition.Basic
import ReactiveForm.Definition.Description
import ReactiveForm.Definition.Json
import ReactiveForm.Document.Axes
import ReactiveForm.Document.Basic
import ReactiveForm.Document.Markup
import ReactiveForm.Eval
import ReactiveForm.Expr.Attempt
import ReactiveForm.Expr.Axis
import ReactiveForm.Expr.Cache
import ReactiveForm.Expr.Canonical
import ReactiveForm.Expr.Grammar
import ReactiveForm.Expr.Name
import ReactiveForm.Expr.Syntax
import ReactiveForm.Expr.SyntaxError
import ReactiveForm.Form.Action
import ReactiveForm.Form.Basic
import ReactiveForm.Function.Basic
import ReactiveForm.Function.Builtin
import ReactiveForm.Function.Library
import ReactiveForm.Function.Nodes
import ReactiveForm.Function.Numbers
import ReactiveForm.Function.Texts
import ReactiveForm.Json.Basic
import ReactiveForm.Json.Printer
import ReactiveForm.Json.Reader
import ReactiveForm.Links
import ReactiveForm.Main
import ReactiveForm.Moment
import ReactiveForm.Number.Arithmetic
import ReactiveForm.Number.Magnitude
import ReactiveForm.Number.Shortest
import ReactiveForm.Number.Text
import ReactiveForm.Number.Whole
import ReactiveForm.Outcome
import ReactiveForm.Output
import ReactiveForm.Pattern.Basic
import ReactiveForm.Pattern.CharSet
import ReactiveForm.Pattern.Class
import ReactiveForm.Pattern.Cost
import ReactiveForm.Pattern.Ends
import ReactiveForm.Pattern.Folding
import ReactiveForm.Pattern.Machine
import ReactiveForm.Pattern.Match
import ReactiveForm.Pattern.Plan
import ReactiveForm.Pattern.Property
import ReactiveForm.Pattern.Reader
import ReactiveForm.Pattern.Source
import ReactiveForm.Pattern.Table.Age
import ReactiveForm.Pattern.Table.Break
import ReactiveForm.Pattern.Table.Category
import ReactiveForm.Pattern.Table.Property
import ReactiveForm.Pattern.Table.Script
import ReactiveForm.Proofs.Definition.Parts
import ReactiveForm.Proofs.Document.Ancestry
import ReactiveForm.Proofs.Document.Order
import ReactiveForm.Proofs.Eval.Axes
import ReactiveForm.Proofs.Eval.Builtins
import ReactiveForm.Proofs.Eval.Calls
import ReactiveForm.Proofs.Eval.Echo
import ReactiveForm.Proofs.Eval.Steps
import ReactiveForm.Proofs.Eval.Tracking
import ReactiveForm.Proofs.Expr.Name
import ReactiveForm.Proofs.Expr.Operand
import ReactiveForm.Proofs.Expr.Path
import ReactiveForm.Proofs.Expr.Proper
import ReactiveForm.Proofs.Expr.Reread
import ReactiveForm.Proofs.Expr.RoundTrip
import ReactiveForm.Proofs.Expr.Rule
import ReactiveForm.Proofs.Expr.Token
import ReactiveForm.Proofs.Form.Idempotence
import ReactiveForm.Proofs.Form.Identity
import ReactiveForm.Proofs.Form.Passes
import ReactiveForm.Proofs.Form.Ranking
import ReactiveForm.Proofs.Form.Reachable
import ReactiveForm.Proofs.Form.Requests
import ReactiveForm.Proofs.Form.Rules
import ReactiveForm.Proofs.Number.Literal
import ReactiveForm.Proofs.Outcome
import ReactiveForm.Proofs.Rules
import ReactiveForm.Proofs.Schedule.Budget
import ReactiveForm.Proofs.Schedule.Marks
import ReactiveForm.Proofs.Schedule.Ranking
import ReactiveForm.Proofs.Schedule.Repeat
import ReactiveForm.Proofs.Schedule.Rest
import ReactiveForm.Proofs.Schedule.Settled
import ReactiveForm.Proofs.Schedule.Store
import ReactiveForm.Proofs.Schedule.Termination
import ReactiveForm.Proofs.Tree.Arena
import ReactiveForm.Proofs.Tree.Entry
import ReactiveForm.Proofs.Tree.Frame
import ReactiveForm.Proofs.Tree.Growth
import ReactiveForm.Proofs.Tree.Identity
import ReactiveForm.Proofs.Tree.View
import ReactiveForm.Proofs.Tree.WellFormed
import ReactiveForm.Reads
import ReactiveForm.Rules
import ReactiveForm.Schedule.Basic
import ReactiveForm.Schedule.Pass
import ReactiveForm.Snapshot
import ReactiveForm.Table
import ReactiveForm.Text.Blank
import ReactiveForm.Text.Letter
import ReactiveForm.Text.Quoted
import ReactiveForm.Text.Ranges
import ReactiveForm.Text.Scan
import ReactiveForm.Text.Search
import ReactiveForm.Text.Visible
import ReactiveForm.Tree.Arena
import ReactiveForm.Tree.Basic
import ReactiveForm.Tree.Entry
import ReactiveForm.Tree.Growth
import ReactiveForm.Tree.Node
import ReactiveForm.Tree.View
import ReactiveForm.Value
import ReactiveForm.Proofs.Schedule.Relevance
import ReactiveForm.Proofs.Form.Relevance
import ReactiveForm.Proofs.Document.Preorder
import ReactiveForm.Proofs.Eval.Inherited
import ReactiveForm.Proofs.Eval.Steady
import ReactiveForm.Proofs.Eval.Order
import ReactiveForm.Proofs.Definition.Names
import ReactiveForm.Proofs.Number.Whole
import ReactiveForm.Proofs.Expr.Reference
import ReactiveForm.Proofs.Tree.Mirror
import ReactiveForm.Proofs.Tree.Reference
import ReactiveForm.Proofs.Eval.Reference
import ReactiveForm.Proofs.Expr.Cache
import ReactiveForm.Proofs.Form.Reference
import ReactiveForm.Proofs.Document.Forest
import ReactiveForm.Proofs.Tree.Document
import ReactiveForm.Proofs.Form.Document
import ReactiveForm.Proofs.Schedule.Nodes
import ReactiveForm.Proofs.Tree.Selection
import ReactiveForm.Proofs.Form.Selection
import ReactiveForm.Proofs.Schedule.Kept
import ReactiveForm.Proofs.Snapshot
import ReactiveForm.Proofs.Form.Determined
import ReactiveForm.Proofs.Form.Refusals
import ReactiveForm.Proofs.Tree.Edits
import ReactiveForm.Proofs.Form.Edits
import ReactiveForm.Proofs.Expr.Terse
import ReactiveForm.Proofs.Expr.Precedence
import ReactiveForm.Proofs.Schedule.Index
import ReactiveForm.Proofs.Eval.Confined
import ReactiveForm.Proofs.Form.Index
import ReactiveForm.Proofs.Document.Numbering
import ReactiveForm.Proofs.Document.Partition
import ReactiveForm.Proofs.Eval.Composition
import ReactiveForm.Proofs.Expr.Lexeme
import ReactiveForm.Proofs.Expr.Scanner
import ReactiveForm.Proofs.Expr.Abbreviation
import ReactiveForm.Proofs.Expr.ShortStep
import ReactiveForm.Proofs.Expr.ShortPath
import ReactiveForm.Proofs.Expr.ShortForm
import ReactiveForm.Proofs.Expr.Arrangement
import ReactiveForm.Proofs.Expr.Abbreviated
import ReactiveForm.Proofs.Compare
import ReactiveForm.Proofs.Form.Lock
import ReactiveForm.Proofs.Schedule.Effects
import ReactiveForm.Proofs.Form.Effects
import ReactiveForm.Proofs.Eval.Recording
import ReactiveForm.Proofs.Eval.Course
import ReactiveForm.Proofs.Eval.Host
import ReactiveForm.Proofs.Definition.Json
import ReactiveForm.Proofs.Definition.Search
import ReactiveForm.Proofs.Number.Exact
import ReactiveForm.Proofs.Text.Words
import ReactiveForm.Proofs.Eval.SelectedWords
import ReactiveForm.Proofs.Number.Decimal
import ReactiveForm.Proofs.Expr.Decimal
import ReactiveForm.Proofs.Number.Digits
import ReactiveForm.Proofs.CommandLine.Cut
import ReactiveForm.Proofs.CommandLine.Change
import ReactiveForm.Proofs.CommandLine.Order
import ReactiveForm.Proofs.CommandLine.Line
