import PythonOutline.CommandLine.Run
import PythonOutline.Main
import PythonOutline.Proofs.Grammar.LexicalError
import PythonOutline.Proofs.Grammar.Method
import PythonOutline.Proofs.Lexer.Calls
import PythonOutline.Proofs.Lexer.Layout
import PythonOutline.Proofs.Lexer.Brackets
import PythonOutline.Proofs.Lexer.Progress
import PythonOutline.Proofs.Operator.Climbing
import PythonOutline.Proofs.Operator.RoundTrip
import PythonOutline.Proofs.Outline.Declarations
import PythonOutline.Proofs.Outline.Exports
import PythonOutline.Proofs.Tree.LaminarStmt
import PythonOutline.Tree.Node
import PythonOutline.Proofs.Tree.Blocks
import PythonOutline.Proofs.Tree.Coverage
import PythonOutline.Proofs.Tree.HeightStmt
import PythonOutline.Proofs.Parser.Parallel
import PythonOutline.Proofs.Grammar.ParallelExpr
import PythonOutline.Proofs.Grammar.ParallelDisplay
import PythonOutline.Proofs.Grammar.ParallelStmt
import PythonOutline.Proofs.Lexer.Inline
import PythonOutline.Proofs.Lexer.StringStride
import PythonOutline.Proofs.Lexer.BraceFree
import PythonOutline.Proofs.Lexer.StringBreak
import PythonOutline.Proofs.Lexer.LineBreak
import PythonOutline.Proofs.Lexer.Respell
import PythonOutline.Proofs.Literal.LineBreak
import PythonOutline.Proofs.Grammar.LineBreak
import PythonOutline.Proofs.Grammar.FinalBreak
import PythonOutline.Proofs.Grammar.Excerpt
import PythonOutline.Proofs.Lexer.Locality
import PythonOutline.Proofs.Lexer.Shift
import PythonOutline.Proofs.Lexer.CommonStart
import PythonOutline.Proofs.Lexer.BlankLines
import PythonOutline.Proofs.Lexer.Sequence
import PythonOutline.Proofs.Lexer.NormalForm
import PythonOutline.Proofs.Grammar.Termination
import PythonOutline.Proofs.Grammar.TooDeep
import PythonOutline.Proofs.Outline.Visibility
import PythonOutline.Proofs.Literal.Delimiter
import PythonOutline.Proofs.Literal.RoundTrip
import PythonOutline.Proofs.Literal.Number
import PythonOutline.Proofs.Literal.Formatted
import PythonOutline.Proofs.Grammar.ErrorSpan
import PythonOutline.Proofs.Tree.NestingStmt
import PythonOutline.Proofs.Tree.SpanBrackets
import PythonOutline.Proofs.Lexer.TabWidth
import PythonOutline.Proofs.Grammar.ParamOrder
import PythonOutline.Proofs.Tree.WellFormedStmt
import PythonOutline.Proofs.Text.Position
import PythonOutline.Proofs.Report.Render
import PythonOutline.Proofs.Grammar.DictEntry
import PythonOutline.Proofs.Grammar.PatternBrackets
import PythonOutline.Proofs.Import.RelativeImport
