import PythonOutline.Parser.Argument
import PythonOutline.Parser.Param

/-! # Closing the expression grammar

The level from which a number of further levels may be opened is built from the one inside it. A
statement starts at the outermost level.
-/

namespace PythonOutline

namespace Level

open PythonOutline.Parser

/-- The level around another one: what it opens is parsed by the grammar of the inner level. -/
def around (inner : Level) : Level where
  innerLambda := inner.lambdaExpr
  innerExpr := inner.expr
  innerNotTest := inner.notTest
  innerFactor := inner.factor
  innerArguments := do
    let _ ← take
    inner.arguments
  innerIndex := do
    let _ ← take
    let index ← inner.subscript
    let _ ← expect .bracketClose
    return index
  innerParens := inner.parenDisplay
  innerBrackets := inner.listDisplay
  innerBraces := inner.braceDisplay

/-- The level from which `count` further levels may be opened. -/
def withInner : (count : Nat) → Level
  | 0 => innermost
  | count + 1 => (withInner count).around

/-- The number of levels of expressions, the outermost included. -/
def maxCount : Nat := 200

/-- The level that a statement starts at. -/
def outermost : Level :=
  withInner (maxCount - 1)

/-- An expression inside a number of open levels. -/
def exprAt (depth : Nat) : Parser Expr :=
  if depth < maxCount then (withInner (maxCount - 1 - depth)).expr
  else failNext .nestingTooDeep

end Level

end PythonOutline
