import Scriptlet.Command
import Scriptlet.CommandLine
import Scriptlet.Context
import Scriptlet.Diagnostic
import Scriptlet.Eval
import Scriptlet.Eval.Assign
import Scriptlet.Eval.Call
import Scriptlet.Eval.Loop
import Scriptlet.Expr
import Scriptlet.Expr.Json
import Scriptlet.Expr.Parse
import Scriptlet.Expr.Source
import Scriptlet.Fault
import Scriptlet.Host
import Scriptlet.Issue
import Scriptlet.Json
import Scriptlet.Json.Read
import Scriptlet.Library.Arguments
import Scriptlet.Library.Arrays
import Scriptlet.Library.Elementary
import Scriptlet.Library.Generic
import Scriptlet.Library.Math
import Scriptlet.Library.Slice
import Scriptlet.Library.Texts
import Scriptlet.Literal
import Scriptlet.Location
import Scriptlet.Machine
import Scriptlet.Main
import Scriptlet.Member
import Scriptlet.Number
import Scriptlet.Number.Decimal
import Scriptlet.Number.Shortest
import Scriptlet.Number.Text
import Scriptlet.Operator
import Scriptlet.Program
import Scriptlet.Record
import Scriptlet.Segment
import Scriptlet.Store
import Scriptlet.Text.Blank
import Scriptlet.Text.Case
import Scriptlet.Text.CaseTable
import Scriptlet.Text.Hidden
import Scriptlet.Text.Quoted
import Scriptlet.Text.Search
import Scriptlet.Token
import Scriptlet.Token.Scan
import Scriptlet.Value
import Scriptlet.Value.Arithmetic
import Scriptlet.Value.Json
import Scriptlet.Value.Text
import Scriptlet.Value.Writing
import Scriptlet.Proofs.Parse.Reads
import Scriptlet.Proofs.Parse.Grammar
import Scriptlet.Proofs.Expr.Shape
import Scriptlet.Proofs.Parse.Precedence
import Scriptlet.Proofs.Token.Spelling
import Scriptlet.Proofs.Eval.Related
import Scriptlet.Proofs.Parse.Height
import Scriptlet.Proofs.Source.Printed
import Scriptlet.Proofs.Source.Scan
import Scriptlet.Proofs.Source.Reread
import Scriptlet.Proofs.Source.RoundTrip
import Scriptlet.Proofs.Number.Rounding
import Scriptlet.Proofs.Number.Packing
import Scriptlet.Proofs.Number.Shortest
import Scriptlet.Proofs.Number.ReadBack
import Scriptlet.Proofs.Token.Lexer
import Scriptlet.Proofs.Token.Extent
import Scriptlet.Proofs.Eval.Course
import Scriptlet.Proofs.Eval.Follows
import Scriptlet.Proofs.Parse.Traversal
import Scriptlet.Proofs.Eval.Kept
import Scriptlet.Proofs.Program.Compose
import Scriptlet.Proofs.Eval.Confined
import Scriptlet.Proofs.Parse.Blame
import Scriptlet.Proofs.Program.Blame
import Scriptlet.Proofs.Program.Quotes
import Scriptlet.Proofs.CommandLine.Phases
import Scriptlet.Proofs.Parse.Arity
import Scriptlet.Proofs.Source.Nesting
import Scriptlet.Proofs.Value.Guarded
import Scriptlet.Proofs.Number.Whole
import Scriptlet.Proofs.Value.Documents
import Scriptlet.Proofs.Parse.Exact
import Scriptlet.Proofs.Value.Reach
import Scriptlet.Proofs.Eval.Shadow
import Scriptlet.Proofs.Eval.Slots
import Scriptlet.Proofs.Eval.Ending
import Scriptlet.Proofs.Eval.Counted
import Scriptlet.Proofs.Token.Cover
import Scriptlet.Proofs.Token.Layout
import Scriptlet.Proofs.Parse.Places
import Scriptlet.Proofs.Eval.Law
import Scriptlet.Proofs.Eval.Levels
import Scriptlet.Proofs.Eval.Quiet
import Scriptlet.Proofs.Eval.Compound
import Scriptlet.Proofs.Eval.Variadic
import Scriptlet.Proofs.Program.Segments
import Scriptlet.Proofs.Token.Brackets
import Scriptlet.Proofs.Value.Members
import Scriptlet.Proofs.Library.Search
import Scriptlet.Proofs.Eval.Rounds
import Scriptlet.Proofs.Library.Split
import Scriptlet.Proofs.Number.Integers
import Scriptlet.Proofs.Library.Slice
import Scriptlet.Proofs.Diagnostic.Lines
import Scriptlet.Proofs.Diagnostic.Rows
import Scriptlet.Proofs.Parse.Demand
import Scriptlet.Proofs.Value.Keys
import Scriptlet.Proofs.Parse.Depth
