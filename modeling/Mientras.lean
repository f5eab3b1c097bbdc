import Mientras.Command.Disk
import Mientras.Command.Log
import Mientras.Command.Request
import Mientras.Command.Run
import Mientras.Compile
import Mientras.Fault.Basic
import Mientras.Fault.Report
import Mientras.Main
import Mientras.Python.Expr
import Mientras.Python.Stmt
import Mientras.Python.Style
import Mientras.Source.Line
import Mientras.Source.Position
import Mientras.Text.Blank
import Mientras.Text.Bytes
import Mientras.Text.Infix
import Mientras.Text.Json
import Mientras.Text.Quoted
import Mientras.Text.Ranges
import Mientras.Text.Unprintable
import Mientras.Text.Word
import Mientras.Token.Basic
import Mientras.Token.Dump
import Mientras.Token.Kind
import Mientras.Token.Rule
import Mientras.Token.Scanner
import Mientras.Tree.Basic
import Mientras.Tree.Cursor
import Mientras.Tree.Outline
import Mientras.Tree.Read.Expr
import Mientras.Tree.Read.Stmt
import Mientras.Proofs.Complete
import Mientras.Proofs.Coverage
import Mientras.Proofs.EvaluationOrder
import Mientras.Proofs.Grammar
import Mientras.Proofs.Indentation
import Mientras.Proofs.Layout
import Mientras.Proofs.Lexeme
import Mientras.Proofs.Lexes
import Mientras.Proofs.Lines
import Mientras.Proofs.OneLine
import Mientras.Proofs.PythonGrammar
import Mientras.Proofs.Reader
import Mientras.Proofs.Rules
import Mientras.Proofs.Scan
import Mientras.Proofs.Sound
import Mientras.Proofs.Vocabulary
import Mientras.Proofs.Lookahead
import Mientras.Proofs.Spacing
import Mientras.Proofs.Newline
import Mientras.Proofs.Sequence
import Mientras.Proofs.Viable
import Mientras.Proofs.Refusal
import Mientras.Proofs.Image
import Mientras.Proofs.RoundTrip
import Mientras.Proofs.Shown
import Mientras.Proofs.Faithful
import Mientras.Proofs.Tracking
import Mientras.Proofs.Operations
import Mientras.Proofs.Trivia
import Mientras.Proofs.Balance
import Mientras.Proofs.Progress
import Mientras.Proofs.Nesting
import Mientras.Proofs.TooDeep
import Mientras.Proofs.AllOrNothing
import Mientras.Proofs.Longest
import Mientras.Proofs.Steady
import Mientras.Proofs.Truncation
import Mientras.Proofs.SourceLine
import Mientras.Proofs.Frame
import Mientras.Proofs.Excerpt
import Mientras.Proofs.Unframed
import Mientras.Proofs.Lookup
import Mientras.Proofs.Comment
import Mientras.Proofs.Json
import Mientras.Proofs.ReadBack
import Mientras.Proofs.Pages
