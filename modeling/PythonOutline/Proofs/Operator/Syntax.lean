import PythonOutline.Parser.Nesting
import PythonOutline.Proofs.Tree.WithoutSpans

/-! # Operator expressions and how they are written

Trees of operators over identifiers, and the tokens they are written with. A part of a tree stands
in parentheses exactly where the precedence and the associativity of the operators ask for it. The
two constructs that are no operators have precedences of their own: a conditional expression binds
less than every operator, and an `await` tighter than every one. -/

namespace PythonOutline

/-- A word that is read as an identifier: it starts and goes on with the characters that identifiers
have, and it is no keyword. -/
structure Identifier where
  first : Char
  others : List Char
  first_isStart : Text.isIdentifierStart first
  others_continue : ∀ c ∈ others, Text.isIdentifierContinue c
  not_keyword : TokenKind.keyword? (String.ofList (first :: others)) = none

/-- The text of an identifier. -/
def Identifier.text (identifier : Identifier) : String :=
  String.ofList (identifier.first :: identifier.others)

/-- An arithmetic unary operator with the token that denotes it. -/
structure UnaryOperator where
  kind : TokenKind
  operator : Operator
  denotes : Operator.unary? kind = some operator

/-- A binary operator that associates to the left, with the token that denotes it. -/
structure BinaryOperator where
  kind : TokenKind
  operator : Operator
  denotes : Operator.binary? kind = some operator

/-- A comparison: one that a single token denotes, or one of the two that take two tokens. -/
inductive ComparisonOperator where
  | single (kind : TokenKind) (operator : Operator)
      (denotes : Operator.comparison? kind = some operator)
  /-- `not in` -/
  | nonMembership
  /-- `is not` -/
  | nonIdentity

/-- The operator of a comparison. -/
def ComparisonOperator.operator : ComparisonOperator → Operator
  | .single _ operator _ => operator
  | .nonMembership => .nonMembership
  | .nonIdentity => .nonIdentity

/-- The tokens of a comparison. -/
def ComparisonOperator.kinds : ComparisonOperator → List TokenKind
  | .single kind _ _ => [kind]
  | .nonMembership => [.keywordNot, .keywordIn]
  | .nonIdentity => [.keywordIs, .keywordNot]

/-- The operators of flat chains. -/
inductive BooleanOperator where
  | conjunction
  | disjunction
  deriving DecidableEq, Repr

/-- The operator of a chain. -/
def BooleanOperator.operator : BooleanOperator → Operator
  | .conjunction => .logicalAnd
  | .disjunction => .logicalOr

/-- The token of a chain. -/
def BooleanOperator.kind : BooleanOperator → TokenKind
  | .conjunction => .keywordAnd
  | .disjunction => .keywordOr

mutual

/-- A tree of operators over identifiers. -/
inductive OperatorExpr where
  | name (identifier : Identifier)
  | await (operand : OperatorExpr)
  | unary (operator : UnaryOperator) (operand : OperatorExpr)
  | not (operand : OperatorExpr)
  | binary (operator : BinaryOperator) (left right : OperatorExpr)
  | power (left right : OperatorExpr)
  /-- A chain of one or more comparisons. -/
  | compare (left : OperatorExpr) (operator : ComparisonOperator) (right : OperatorExpr)
      (others : ComparisonChain)
  /-- A chain of two or more values. -/
  | boolean (operator : BooleanOperator) (first second : OperatorExpr) (others : OperandList)
  | conditional (test consequent alternate : OperatorExpr)

/-- Further comparisons of a chain. -/
inductive ComparisonChain where
  | nil
  | cons (operator : ComparisonOperator) (right : OperatorExpr) (others : ComparisonChain)

/-- Further values of a chain. -/
inductive OperandList where
  | nil
  | cons (value : OperatorExpr) (others : OperandList)

end

/-! ## Precedence -/

/-- The least precedence that an operand of an operator may have without parentheses, on a side. An
operand of the same precedence may stand on the side where the operator nests. -/
def Operator.operandPrecedence (operator : Operator) (side : Associativity) : Nat :=
  if operator.associativity = side then operator.precedence else operator.precedence + 1

/-- The precedence of conditional expressions. -/
def conditionalPrecedence : Nat :=
  Operator.logicalOr.precedence - 1

/-- The precedence of `await`. -/
def awaitPrecedence : Nat :=
  Operator.exponentiation.precedence + 1

/-- The precedence of identifiers and of whatever stands in parentheses. -/
def atomPrecedence : Nat :=
  awaitPrecedence + 1

/-- The precedence of comparisons. They share one. -/
def comparisonPrecedence : Nat :=
  Operator.equality.precedence

/-- The precedence of unary operators. They share one. -/
def unaryPrecedence : Nat :=
  Operator.unaryPlus.precedence

namespace OperatorExpr

/-- How tightly the outermost operator of a tree binds. -/
def precedence : OperatorExpr → Nat
  | .name _ => atomPrecedence
  | .await _ => awaitPrecedence
  | .unary operator _ => operator.operator.precedence
  | .not _ => Operator.logicalNot.precedence
  | .binary operator _ _ => operator.operator.precedence
  | .power _ _ => Operator.exponentiation.precedence
  | .compare .. => comparisonPrecedence
  | .boolean operator .. => operator.operator.precedence
  | .conditional .. => conditionalPrecedence

end OperatorExpr

/-! ## Tokens -/

/-- A token as it is written: an identifier, or an operator, delimiter or keyword. -/
inductive Lexeme where
  | name (identifier : Identifier)
  | fixed (kind : TokenKind)

/-- The kind of the token. -/
def Lexeme.kind : Lexeme → TokenKind
  | .name _ => .identifier
  | .fixed kind => kind

/-- The text of the token. -/
def Lexeme.text : Lexeme → String
  | .name identifier => identifier.text
  | .fixed kind => (kind.operatorSpelling? <|> kind.keywordSpelling?).getD ""

/-- Tokens in parentheses, if these are needed. -/
def parenthesized (needed : Bool) (lexemes : List Lexeme) : List Lexeme :=
  if needed then .fixed .parenthesisOpen :: lexemes ++ [.fixed .parenthesisClose] else lexemes

/-- A number of nesting levels with that of parentheses, if these are needed. -/
def nestedBy (needed : Bool) (levels : Nat) : Nat :=
  if needed then levels + 1 else levels

mutual

/-- The tokens that a tree is written with. -/
def OperatorExpr.lexemes : OperatorExpr → List Lexeme
  | .name identifier => [.name identifier]
  | .await operand =>
    .fixed .keywordAwait :: parenthesized (operand.precedence < atomPrecedence) operand.lexemes
  | .unary operator operand =>
    .fixed operator.kind ::
      parenthesized (operand.precedence < operator.operator.operandPrecedence .right)
        operand.lexemes
  | .not operand =>
    .fixed .keywordNot ::
      parenthesized (operand.precedence < Operator.logicalNot.operandPrecedence .right)
        operand.lexemes
  | .binary operator left right =>
    parenthesized (left.precedence < operator.operator.operandPrecedence .left) left.lexemes ++
      .fixed operator.kind ::
        parenthesized (right.precedence < operator.operator.operandPrecedence .right) right.lexemes
  | .power left right =>
    -- A unary operator on the right needs no parentheses, though it binds less.
    parenthesized (left.precedence < Operator.exponentiation.operandPrecedence .left)
        left.lexemes ++
      .fixed .asteriskAsterisk ::
        parenthesized (right.precedence < unaryPrecedence) right.lexemes
  | .compare left operator right others =>
    parenthesized (left.precedence < comparisonPrecedence + 1) left.lexemes ++
      operator.kinds.map .fixed ++
      parenthesized (right.precedence < comparisonPrecedence + 1) right.lexemes ++ others.lexemes
  | .boolean operator first second others =>
    parenthesized (first.precedence < operator.operator.precedence + 1) first.lexemes ++
      .fixed operator.kind ::
        (parenthesized (second.precedence < operator.operator.precedence + 1) second.lexemes ++
          others.lexemes operator)
  | .conditional test consequent alternate =>
    parenthesized (consequent.precedence < conditionalPrecedence + 1) consequent.lexemes ++
      .fixed .keywordIf ::
        (parenthesized (test.precedence < conditionalPrecedence + 1) test.lexemes ++
          .fixed .keywordElse ::
            parenthesized (alternate.precedence < conditionalPrecedence) alternate.lexemes)

/-- The tokens of further comparisons. -/
def ComparisonChain.lexemes : ComparisonChain → List Lexeme
  | .nil => []
  | .cons operator right others =>
    operator.kinds.map .fixed ++
      parenthesized (right.precedence < comparisonPrecedence + 1) right.lexemes ++ others.lexemes

/-- The tokens of further values of a chain. -/
def OperandList.lexemes (operator : BooleanOperator) : OperandList → List Lexeme
  | .nil => []
  | .cons value others =>
    .fixed operator.kind ::
      (parenthesized (value.precedence < operator.operator.precedence + 1) value.lexemes ++
        others.lexemes operator)

end

/-- The text of a tree: its tokens with single spaces between them. -/
def OperatorExpr.print (expr : OperatorExpr) : String :=
  " ".intercalate (expr.lexemes.map Lexeme.text)

mutual

/-- How many nesting levels the text of a tree opens inside each other. Parentheses open one, and so
do the operand of a unary operator or a `not`, the right operand of a power, and the alternate of a
conditional expression. -/
def OperatorExpr.nesting : OperatorExpr → Nat
  | .name _ => 0
  | .await operand => nestedBy (operand.precedence < atomPrecedence) operand.nesting
  | .unary operator operand =>
    nestedBy (operand.precedence < operator.operator.operandPrecedence .right) operand.nesting + 1
  | .not operand =>
    nestedBy (operand.precedence < Operator.logicalNot.operandPrecedence .right) operand.nesting + 1
  | .binary operator left right =>
    max (nestedBy (left.precedence < operator.operator.operandPrecedence .left) left.nesting)
      (nestedBy (right.precedence < operator.operator.operandPrecedence .right) right.nesting)
  | .power left right =>
    max (nestedBy (left.precedence < Operator.exponentiation.operandPrecedence .left) left.nesting)
      (nestedBy (right.precedence < unaryPrecedence) right.nesting + 1)
  | .compare left _ right others =>
    max (nestedBy (left.precedence < comparisonPrecedence + 1) left.nesting)
      (max (nestedBy (right.precedence < comparisonPrecedence + 1) right.nesting) others.nesting)
  | .boolean operator first second others =>
    max (nestedBy (first.precedence < operator.operator.precedence + 1) first.nesting)
      (max (nestedBy (second.precedence < operator.operator.precedence + 1) second.nesting)
        (others.nesting operator))
  | .conditional test consequent alternate =>
    max (nestedBy (consequent.precedence < conditionalPrecedence + 1) consequent.nesting)
      (max (nestedBy (test.precedence < conditionalPrecedence + 1) test.nesting)
        (nestedBy (alternate.precedence < conditionalPrecedence) alternate.nesting + 1))

/-- The nesting levels of further comparisons. -/
def ComparisonChain.nesting : ComparisonChain → Nat
  | .nil => 0
  | .cons _ right others =>
    max (nestedBy (right.precedence < comparisonPrecedence + 1) right.nesting) others.nesting

/-- The nesting levels of further values of a chain. -/
def OperandList.nesting (operator : BooleanOperator) : OperandList → Nat
  | .nil => 0
  | .cons value others =>
    max (nestedBy (value.precedence < operator.operator.precedence + 1) value.nesting)
      (others.nesting operator)

end

/-! ## Expressions -/

/-- The operators of further comparisons. -/
def ComparisonChain.operators : ComparisonChain → List Operator
  | .nil => []
  | .cons operator _ others => operator.operator :: others.operators

mutual

/-- A tree as an expression without spans. -/
def OperatorExpr.toExpr : OperatorExpr → Expr
  | .name identifier => ⟨.point 0, .name identifier.text⟩
  | .await operand => ⟨.point 0, .await operand.toExpr⟩
  | .unary operator operand => ⟨.point 0, .unary operator.operator operand.toExpr⟩
  | .not operand => ⟨.point 0, .unary .logicalNot operand.toExpr⟩
  | .binary operator left right => ⟨.point 0, .binary operator.operator left.toExpr right.toExpr⟩
  | .power left right => ⟨.point 0, .binary .exponentiation left.toExpr right.toExpr⟩
  | .compare left operator right others =>
    ⟨.point 0, .compare left.toExpr (operator.operator :: others.operators)
      (right.toExpr :: others.toExprs)⟩
  | .boolean operator first second others =>
    ⟨.point 0, .boolean operator.operator (first.toExpr :: second.toExpr :: others.toExprs)⟩
  | .conditional test consequent alternate =>
    ⟨.point 0, .conditional test.toExpr consequent.toExpr alternate.toExpr⟩

/-- The right sides of further comparisons. -/
def ComparisonChain.toExprs : ComparisonChain → List Expr
  | .nil => []
  | .cons _ right others => right.toExpr :: others.toExprs

/-- Further values of a chain. -/
def OperandList.toExprs : OperandList → List Expr
  | .nil => []
  | .cons value others => value.toExpr :: others.toExprs

end

end PythonOutline
