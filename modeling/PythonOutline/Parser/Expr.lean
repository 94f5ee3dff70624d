import PythonOutline.Parser.Operand

/-! # Expressions

The layers of the expression grammar above operands, from the binary operators to lists of
expressions: each layer is a chain of items of the layer below it.
-/

namespace PythonOutline.Level

open PythonOutline.Parser

/-- Applies a binary operator of a precedence to what stands before it and to the operand behind it,
if such an operator follows. -/
abbrev applyStep (precedence : Nat) (operand : Parser Expr) (left : Expr) :
    Parser (Step Expr Expr) := do
  match Operator.binary? (← peekKind) with
  | none => return .done left
  | some operator =>
    if operator.precedence = precedence then
      let _ ← take
      let right ← operand
      return .next ⟨left.span.join right.span, .binary operator left right⟩
    else return .done left

/-- A chain of operands with binary operators of one precedence, nested to the left. The span of
each application joins the spans of its two sides. -/
def leftChain (precedence : Nat) (operand : Parser Expr) : Parser Expr := do
  let first ← operand
  iterate first (applyStep precedence operand)

/-- The precedence of the tightest binary operators. -/
def tightestBinary : Nat :=
  Operator.multiplication.precedence

/-- Factors joined by the binary operators of the `tiers` tightest precedences. -/
def binary (level : Level) : (tiers : Nat) → Parser Expr
  | 0 => level.factor
  | tiers + 1 => leftChain (tightestBinary - tiers) (level.binary tiers)

/-- Factors joined by any binary operators. -/
def bitwiseOr (level : Level) : Parser Expr :=
  level.binary (tightestBinary - Operator.bitwiseOr.precedence + 1)

/-- Takes the comparison that stands here, if there is one. -/
def comparisonOperator? : Parser (Option Operator) := do
  let (first, second) ← peekTwo
  match first.kind, second.kind with
  | .keywordNot, .keywordIn =>
    let _ ← take
    let _ ← take
    return some .nonMembership
  | .keywordIs, .keywordNot =>
    let _ ← take
    let _ ← take
    return some .nonIdentity
  | kind, _ =>
    match Operator.comparison? kind with
    | none => return none
    | some operator =>
      let _ ← take
      return some operator

/-- Reads one more comparison, if one follows. -/
abbrev compareStep (level : Level) (compared : List (Operator × Expr)) :
    Parser (Step (List (Operator × Expr)) (List (Operator × Expr))) := do
  match ← comparisonOperator? with
  | none => return .done compared.reverse
  | some operator => return .next ((operator, ← level.bitwiseOr) :: compared)

/-- A chain of comparisons. -/
def comparison (level : Level) : Parser Expr := do
  let start ← mark
  let left ← level.bitwiseOr
  let compared : List (Operator × Expr) ← iterate [] level.compareStep
  if compared.isEmpty then return left
  return ⟨← spanSince start, .compare left (compared.map Prod.fst) (compared.map Prod.snd)⟩

/-- A comparison, possibly negated. -/
def notTest (level : Level) : Parser Expr := do
  if ← nextIs .keywordNot then
    spanned do
      let _ ← take
      let argument ← level.innerNotTest
      return fun span => ⟨span, .unary .logicalNot argument⟩
  else level.comparison

/-- A flat chain of operands joined by a keyword. -/
def booleanChain (operator : Operator) (keyword : TokenKind) (operand : Parser Expr) :
    Parser Expr := do
  let start ← mark
  let first ← operand
  unless ← nextIs keyword do
    return first
  let others ← repeatWhile (accept keyword) operand
  return ⟨← spanSince start, .boolean operator (first :: others)⟩

/-- A conjunction. -/
def andTest (level : Level) : Parser Expr :=
  booleanChain .logicalAnd .keywordAnd level.notTest

/-- A disjunction: every expression but conditional ones and lambdas. -/
def orTest (level : Level) : Parser Expr :=
  booleanChain .logicalOr .keywordOr level.andTest

/-- A single expression, but no tuple without parentheses. -/
def expr (level : Level) : Parser Expr := do
  if ← nextIs .keywordLambda then level.innerLambda
  else
    let start ← mark
    let consequent ← level.orTest
    if ← accept .keywordIf then
      let test ← level.orTest
      let _ ← expect .keywordElse
      let alternate ← level.innerExpr
      return ⟨← spanSince start, .conditional test consequent alternate⟩
    else return consequent

/-- An expression, possibly bound to a name by `:=`. -/
def namedExpr (level : Level) : Parser Expr := do
  let (first, second) ← peekTwo
  if first.kind = .identifier ∧ second.kind = .colonEquals then
    spanned do
      let target : Name ← spanned do
        let text ← identifier
        return fun span => ⟨span, text⟩
      let _ ← expect .colonEquals
      let value ← level.expr
      return fun span => ⟨span, .named target value⟩
  else level.expr

/-- An expression behind an asterisk. -/
def starred (level : Level) : Parser Expr := spanned do
  let _ ← expect .asterisk
  let value ← level.bitwiseOr
  return fun span => ⟨span, .starred value⟩

/-- A starred expression, or what a parser reads. -/
def starredOr (level : Level) (other : Parser Expr) : Parser Expr := do
  if ← nextIs .asterisk then level.starred else other

/-- An expression, possibly starred. -/
def starExpr (level : Level) : Parser Expr :=
  level.starredOr level.expr

/-- An expression, possibly starred or bound by `:=`. -/
def starNamedExpr (level : Level) : Parser Expr :=
  level.starredOr level.namedExpr

/-- Takes a comma and reads the item behind it. A comma that no expression follows is the
last one. -/
abbrev elementStep (item : Parser Expr) (elements : List Expr) :
    Parser (Step (List Expr) (List Expr)) := do
  unless ← accept .comma do
    return .done elements.reverse
  unless (← peekKind).startsExpression do
    return .done elements.reverse
  return .next ((← item) :: elements)

/-- Items separated by commas: a tuple if there is a comma, the item itself otherwise. A comma that
no expression follows is the last one. -/
def tupleOf (item : Parser Expr) : Parser Expr := do
  let start ← mark
  let first ← item
  unless ← nextIs .comma do
    return first
  let elements : List Expr ← iterate [first] (elementStep item)
  return ⟨← spanSince start, .tuple elements⟩

/-- A list of expressions, as in expression statements and on the right of an assignment. -/
def starExprs (level : Level) : Parser Expr :=
  tupleOf level.starExpr

/-- A list of expressions that may be bound by `:=`. -/
def starNamedExprs (level : Level) : Parser Expr :=
  tupleOf level.starNamedExpr

/-- A `yield` or `yield from`. -/
def yieldExpr (level : Level) : Parser Expr := spanned do
  let _ ← expect .keywordYield
  if ← accept .keywordFrom then
    let value ← level.expr
    return fun span => ⟨span, .yield (some value) true⟩
  else if (← peekKind).startsExpression then
    let value ← level.starExprs
    return fun span => ⟨span, .yield (some value) false⟩
  else return fun span => ⟨span, .yield none false⟩

/-- A `yield` or a list of expressions. -/
def yieldOrStarExprs (level : Level) : Parser Expr := do
  if ← nextIs .keywordYield then level.yieldExpr else level.starExprs

/-- Refuses an expression that cannot be assigned to. -/
def checkTarget (target : Expr) : Parser Expr := do
  if target.isTarget then return target
  else throw (target.span.error .invalidAssignmentTarget)

/-- The targets of a `for`, which end before `in`. -/
def targetList (level : Level) : Parser Expr := do
  checkTarget (← tupleOf (level.starredOr level.bitwiseOr))

/-- A single target, as behind `as` and `del`. -/
def target (level : Level) : Parser Expr := do
  checkTarget (← level.bitwiseOr)

end PythonOutline.Level
