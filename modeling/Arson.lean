import Arson.Number.Binary
import Arson.Number.Shortest
import Arson.Number.Layout
import Arson.Number.Reading
import Arson.Number.Arith
import Arson.Text.CharClass
import Arson.Text.Letter
import Arson.Text.Blank
import Arson.Text.Quoted
import Arson.Text.Distance
import Arson.Format.Json
import Arson.Format.Toml.Failure
import Arson.Format.Toml.Lexical
import Arson.Format.Toml.Scalar
import Arson.Format.Toml.Value
import Arson.Format.Toml.Document
import Arson.Format.TokenDump
import Arson.Syntax.Token
import Arson.Syntax.Keywords
import Arson.Syntax.KeywordFile
import Arson.Syntax.Lexer
import Arson.Syntax.Ast
import Arson.Syntax.Parser
import Arson.Report
import Arson.Value.Basic
import Arson.Value.Display
import Arson.Value.Equality
import Arson.Eval.Fault
import Arson.Eval.Operators
import Arson.Eval.Containers
import Arson.Eval.Conversion
import Arson.Eval.Machine
import Arson.Eval.Interpreter
import Arson.Session
import Arson.Cli.Arguments
import Arson.Cli.LogFilter
import Arson.Cli.Files
import Arson.Cli.Command
import Arson.Main
import Arson.Proofs.Eval.Exec
import Arson.Proofs.Eval.Call
import Arson.Proofs.Eval.CallFrame
import Arson.Proofs.Eval.Storable
import Arson.Proofs.Eval.MethodEscape
import Arson.Proofs.Eval.CallDepth
import Arson.Proofs.Syntax.ParseSteps
import Arson.Proofs.Syntax.Render
import Arson.Proofs.Syntax.Shape
import Arson.Proofs.Syntax.Reads
import Arson.Proofs.Syntax.RoundTrip
import Arson.Proofs.Syntax.LongestMatch
import Arson.Proofs.Syntax.ParseAlike
import Arson.Proofs.Syntax.Respell
import Arson.Proofs.Value.Bisimilarity
import Arson.Proofs.Value.Reordered
import Arson.Proofs.Text.Nearest
import Arson.Proofs.Eval.Reorder
import Arson.Proofs.Session.IterationOrder
import Arson.Proofs.Number.Truncation
import Arson.Proofs.Eval.CountedLoop
import Arson.Proofs.Text.ByteOrder
import Arson.Proofs.Value.Unfolding
import Arson.Proofs.Number.Order
import Arson.Proofs.Number.Exact
import Arson.Proofs.Eval.ContainerLaws
import Arson.Proofs.Eval.HeapShape
import Arson.Proofs.Eval.FaultOrigin
import Arson.Proofs.Syntax.TokenBounds
import Arson.Proofs.Syntax.StringLiteral
import Arson.Proofs.Text.EditDistance
import Arson.Proofs.Number.Rounding
import Arson.Proofs.Eval.IntConversion
import Arson.Proofs.Eval.Fuel
import Arson.Proofs.Eval.AutoInvoke
import Arson.Proofs.Syntax.KeywordCheck
import Arson.Proofs.Syntax.FaultPosition
import Arson.Proofs.Syntax.FirstEndMark
