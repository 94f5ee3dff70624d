import PythonOutline.Parser.Loop
import PythonOutline.Tree.Expr

/-! # Nesting levels of expressions

Brackets, unary operators, right operands of `**`, alternates of conditional expressions and lambdas
open a nesting level, and the number of levels is limited. Every cycle of the expression grammar
passes through one of them. The grammar is therefore written without recursion, over the parsers of
the next inner level: a `Level` collects them.
-/

namespace PythonOutline

/-- The parsers of the constructs that open a nesting level, as seen from the level outside. -/
structure Level where
  /-- A lambda expression. -/
  innerLambda : Parser Expr
  /-- The alternate of a conditional expression. -/
  innerExpr : Parser Expr
  /-- The operand of `not`. -/
  innerNotTest : Parser Expr
  /-- The operand of a unary operator, and the right operand of `**`. -/
  innerFactor : Parser Expr
  /-- The arguments of a call with their parentheses. -/
  innerArguments : Parser (List Argument)
  /-- The index of a subscript with its brackets. -/
  innerIndex : Parser Expr
  /-- A display in parentheses. -/
  innerParens : Parser Expr
  /-- A list display. -/
  innerBrackets : Parser Expr
  /-- A dict or set display. -/
  innerBraces : Parser Expr

/-- The innermost level, in which no further one can be opened. -/
def Level.innermost : Level where
  innerLambda := Parser.failNext .nestingTooDeep
  innerExpr := Parser.failNext .nestingTooDeep
  innerNotTest := Parser.failNext .nestingTooDeep
  innerFactor := Parser.failNext .nestingTooDeep
  innerArguments := Parser.failNext .nestingTooDeep
  innerIndex := Parser.failNext .nestingTooDeep
  innerParens := Parser.failNext .nestingTooDeep
  innerBrackets := Parser.failNext .nestingTooDeep
  innerBraces := Parser.failNext .nestingTooDeep

end PythonOutline
