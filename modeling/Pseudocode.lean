import Pseudocode.Command.Arguments
import Pseudocode.Command.FileTree
import Pseudocode.Command.Line
import Pseudocode.Eval.Apply
import Pseudocode.Eval.Arithmetic
import Pseudocode.Eval.Datum
import Pseudocode.Eval.Expr
import Pseudocode.Exec.Run
import Pseudocode.Exec.Stmt
import Pseudocode.Exec.Trace
import Pseudocode.Exec.World
import Pseudocode.Failure
import Pseudocode.Fault
import Pseudocode.Interchange.NodeJson
import Pseudocode.Interchange.TreeNode
import Pseudocode.Json.Basic
import Pseudocode.Json.Printer
import Pseudocode.Json.Reader
import Pseudocode.Numeric.Binary
import Pseudocode.Numeric.Decimal
import Pseudocode.Numeric.Numeral
import Pseudocode.Numeric.Rounding
import Pseudocode.Numeric.Shortest
import Pseudocode.Proofs.Exec.Containment
import Pseudocode.Proofs.Exec.Progress
import Pseudocode.Proofs.Exec.Soundness
import Pseudocode.Proofs.Exec.Strict
import Pseudocode.Proofs.Interchange.RoundTrip
import Pseudocode.Proofs.Source.Comments
import Pseudocode.Proofs.Source.Spellable
import Pseudocode.Proofs.Store.View
import Pseudocode.Source.Boundary
import Pseudocode.Source.Lexer
import Pseudocode.Source.Mode
import Pseudocode.Source.Parser
import Pseudocode.Source.Step
import Pseudocode.Source.SyntaxError
import Pseudocode.Source.Token
import Pseudocode.Store
import Pseudocode.Syntax.Label
import Pseudocode.Syntax.Node
import Pseudocode.Syntax.Operator
import Pseudocode.Syntax.Part
import Pseudocode.Syntax.Tree
import Pseudocode.Text.Blank
import Pseudocode.Text.Digit
import Pseudocode.Text.Line
import Pseudocode.Text.Printable
import Pseudocode.Text.Quoted
import Pseudocode.Text.Word
import Pseudocode.Value.Basic
import Pseudocode.Value.Convert
import Pseudocode.Value.Display
import Pseudocode.Main
import Pseudocode.Proofs.Exec.Lockstep
import Pseudocode.Proofs.Exec.Tracing
import Pseudocode.Proofs.Exec.Input
import Pseudocode.Proofs.Exec.Footprint
import Pseudocode.Proofs.Exec.Breaks
import Pseudocode.Proofs.Exec.ElseIf
import Pseudocode.Proofs.Store.History
import Pseudocode.Proofs.Exec.Renaming
import Pseudocode.Proofs.Numeric.Nearest
import Pseudocode.Proofs.Numeric.Decimals
import Pseudocode.Proofs.Json.RoundTrip
import Pseudocode.Proofs.Interchange.Programs
import Pseudocode.Proofs.Json.LineEnds
import Pseudocode.Proofs.Command.Files
import Pseudocode.Proofs.Command.Paths
import Pseudocode.Proofs.Command.Routes
import Pseudocode.Proofs.Exec.Started
import Pseudocode.Proofs.Eval.FloatArithmetic
import Pseudocode.Proofs.Value.Shortest
import Pseudocode.Proofs.Exec.FirstMatch
import Pseudocode.Proofs.Eval.Division
import Pseudocode.Proofs.Eval.TextArithmetic
import Pseudocode.Proofs.Eval.ZeroDivisors
import Pseudocode.Proofs.Eval.Agreement
import Pseudocode.Proofs.Exec.DisplayList
import Pseudocode.Proofs.Eval.ResultKind
import Pseudocode.Proofs.Eval.NumericOrder
import Pseudocode.Proofs.Source.Delimited
import Pseudocode.Proofs.Exec.DeclarationGroups
import Pseudocode.Proofs.Value.Reading
import Pseudocode.Proofs.Exec.Targets
