import PythonOutline.Token.Kind

/-! # Operators

The operators of expressions with their precedence and associativity, and the tokens that denote
them. A higher precedence binds tighter. Comparisons form chains instead of associating, and two of
them, `not in` and `is not`, are spelled with two tokens, so no single token denotes them.
-/

namespace PythonOutline

/-- An operator of an expression. -/
inductive Operator where
  | addition
  | bitwiseAnd
  | bitwiseLeftShift
  | bitwiseNot
  | bitwiseOr
  | bitwiseRightShift
  | bitwiseXor
  | division
  | equality
  | exponentiation
  | floorDivision
  | greaterThan
  | greaterThanOrEqual
  /-- The comparison `in`. -/
  | membership
  | inequality
  /-- The comparison `is`. -/
  | identity
  /-- The comparison `is not`. -/
  | nonIdentity
  | lessThan
  | lessThanOrEqual
  | logicalAnd
  | logicalNot
  | logicalOr
  | matrixMultiplication
  | multiplication
  /-- The comparison `not in`. -/
  | nonMembership
  | remainder
  | subtraction
  | unaryNegation
  | unaryPlus
  deriving DecidableEq, Repr, Inhabited

/-- The side on which a chain of one operator nests. -/
inductive Associativity where
  | left
  | right
  deriving DecidableEq, Repr

/-- The name of an associativity, as reported to callers. -/
def Associativity.name : Associativity → String
  | .left => "Left"
  | .right => "Right"

namespace Operator

/-- The name of an operator, as reported to callers. -/
def name : Operator → String
  | .addition => "Addition"
  | .bitwiseAnd => "BitwiseAnd"
  | .bitwiseLeftShift => "BitwiseLeftShift"
  | .bitwiseNot => "BitwiseNot"
  | .bitwiseOr => "BitwiseOr"
  | .bitwiseRightShift => "BitwiseRightShift"
  | .bitwiseXor => "BitwiseXor"
  | .division => "Division"
  | .equality => "Equality"
  | .exponentiation => "Exponentiation"
  | .floorDivision => "FloorDivision"
  | .greaterThan => "GreaterThan"
  | .greaterThanOrEqual => "GreaterThanOrEqual"
  | .membership => "In"
  | .inequality => "Inequality"
  | .identity => "Is"
  | .nonIdentity => "IsNot"
  | .lessThan => "LessThan"
  | .lessThanOrEqual => "LessThanOrEqual"
  | .logicalAnd => "LogicalAnd"
  | .logicalNot => "LogicalNot"
  | .logicalOr => "LogicalOr"
  | .matrixMultiplication => "MatrixMultiplication"
  | .multiplication => "Multiplication"
  | .nonMembership => "NotIn"
  | .remainder => "Remainder"
  | .subtraction => "Subtraction"
  | .unaryNegation => "UnaryNegation"
  | .unaryPlus => "UnaryPlus"

/-- All operators, in the order of their declaration. -/
def all : List Operator :=
  [.addition, .bitwiseAnd, .bitwiseLeftShift, .bitwiseNot, .bitwiseOr, .bitwiseRightShift,
   .bitwiseXor, .division, .equality, .exponentiation, .floorDivision, .greaterThan,
   .greaterThanOrEqual, .membership, .inequality, .identity, .nonIdentity, .lessThan,
   .lessThanOrEqual, .logicalAnd, .logicalNot, .logicalOr, .matrixMultiplication, .multiplication,
   .nonMembership, .remainder, .subtraction, .unaryNegation, .unaryPlus]

/-- The operator with a given name. -/
def ofName? (name : String) : Option Operator :=
  all.find? fun operator => operator.name == name

/-- How tightly an operator binds. -/
def precedence : Operator → Nat
  | .exponentiation => 14
  | .bitwiseNot | .unaryNegation | .unaryPlus => 13
  | .division | .floorDivision | .matrixMultiplication | .multiplication | .remainder => 12
  | .addition | .subtraction => 11
  | .bitwiseLeftShift | .bitwiseRightShift => 10
  | .bitwiseAnd => 9
  | .bitwiseXor => 8
  | .bitwiseOr => 7
  | .equality | .greaterThan | .greaterThanOrEqual | .membership | .inequality | .identity
  | .nonIdentity | .lessThan | .lessThanOrEqual | .nonMembership => 6
  | .logicalNot => 5
  | .logicalAnd => 4
  | .logicalOr => 3

/-- The side on which a chain of the operator nests. -/
def associativity : Operator → Associativity
  | .exponentiation | .bitwiseNot | .unaryNegation | .unaryPlus | .logicalNot => .right
  | _ => .left

/-- The binary operator that a token denotes, among those that bind tighter than comparisons and
looser than unary operators. Exponentiation is not among them: it binds tighter than a unary
operator on its left. -/
def binary? : TokenKind → Option Operator
  | .ampersand => some .bitwiseAnd
  | .asterisk => some .multiplication
  | .at => some .matrixMultiplication
  | .bar => some .bitwiseOr
  | .caret => some .bitwiseXor
  | .chevronLeftChevronLeft => some .bitwiseLeftShift
  | .chevronRightChevronRight => some .bitwiseRightShift
  | .hyphen => some .subtraction
  | .percent => some .remainder
  | .plus => some .addition
  | .slash => some .division
  | .slashSlash => some .floorDivision
  | _ => none

/-- The arithmetic unary operator that a token denotes. -/
def unary? : TokenKind → Option Operator
  | .hyphen => some .unaryNegation
  | .plus => some .unaryPlus
  | .tilde => some .bitwiseNot
  | _ => none

/-- The comparison that a single token denotes. -/
def comparison? : TokenKind → Option Operator
  | .chevronLeft => some .lessThan
  | .chevronLeftEquals => some .lessThanOrEqual
  | .chevronRight => some .greaterThan
  | .chevronRightEquals => some .greaterThanOrEqual
  | .equalsEquals => some .equality
  | .exclamationEquals => some .inequality
  | .keywordIn => some .membership
  | .keywordIs => some .identity
  | _ => none

/-- The operator that an augmented assignment token applies. -/
def augmented? : TokenKind → Option Operator
  | .ampersandEquals => some .bitwiseAnd
  | .asteriskAsteriskEquals => some .exponentiation
  | .asteriskEquals => some .multiplication
  | .atEquals => some .matrixMultiplication
  | .barEquals => some .bitwiseOr
  | .caretEquals => some .bitwiseXor
  | .chevronLeftChevronLeftEquals => some .bitwiseLeftShift
  | .chevronRightChevronRightEquals => some .bitwiseRightShift
  | .hyphenEquals => some .subtraction
  | .percentEquals => some .remainder
  | .plusEquals => some .addition
  | .slashEquals => some .division
  | .slashSlashEquals => some .floorDivision
  | _ => none

end Operator

end PythonOutline
