import PythonOutline.Operator
import PythonOutline.Text.Span

/-! # Expression trees

An expression is a form together with the span of the source it was read from. Grouping parentheses
leave no trace, neither in the tree nor in the span. The parts that are no expressions themselves,
such as call arguments and parameters, carry spans of their own.
-/

namespace PythonOutline

/-- How an argument hands over its value. -/
inductive Unpack where
  /-- As it is. -/
  | none
  /-- `*value` -/
  | iterable
  /-- `**value` -/
  | mapping
  deriving DecidableEq, Repr

/-- What a comprehension builds. -/
inductive ComprehensionKind where
  | dict
  | generator
  | list
  | set
  deriving DecidableEq, Repr

/-- How a parameter receives its argument. -/
inductive ParamKind where
  /-- Before a `/`. -/
  | positionalOnly
  | regular
  /-- `*name` -/
  | varPositional
  /-- Behind a `*`. -/
  | keywordOnly
  /-- `**name` -/
  | varKeyword
  deriving DecidableEq, Repr

/-- A name with its span. -/
structure Name where
  span : Span
  text : String
  deriving DecidableEq, Repr

mutual

/-- An expression with its span. -/
structure Expr where
  span : Span
  form : ExprForm

/-- The form of an expression. -/
inductive ExprForm where
  | attribute (value : Expr) (name : String)
  | await (value : Expr)
  | binary (operator : Operator) (left right : Expr)
  /-- A flat chain of `and` or of `or`. -/
  | boolean (operator : Operator) (values : List Expr)
  | call (callee : Expr) (arguments : List Argument)
  /-- A chain of comparisons, such as `a < b <= c`. -/
  | compare (left : Expr) (operators : List Operator) (comparators : List Expr)
  /-- A comprehension. That of a dict has a value beside its element, which is the key. -/
  | comprehension (kind : ComprehensionKind) (element : Expr) (value : Option Expr)
      (clauses : List ForClause)
  | conditional (test consequent alternate : Expr)
  | dict (entries : List DictEntry)
  | name (text : String)
  | lambda (params : List Param) (body : Expr)
  | list (elements : List Expr)
  /-- `target := value` -/
  | named (target : Name) (value : Expr)
  | set (elements : List Expr)
  | slice (lower upper step : Option Expr)
  | starred (value : Expr)
  | subscript (value index : Expr)
  | tuple (elements : List Expr)
  | unary (operator : Operator) (argument : Expr)
  /-- A `yield`, which delegates if it is a `yield from`. -/
  | yield (value : Option Expr) (delegate : Bool)
  | boolLiteral (value : Bool)
  | ellipsis
  | noneLiteral
  /-- A number as it is written, without underscores. -/
  | number (text : String)
  /-- One or more adjacent string literals, joined. -/
  | string (text : String) (bytes formatted : Bool)

/-- An argument of a call or a class header. -/
structure Argument where
  span : Span
  keyword : Option String
  unpack : Unpack
  value : Expr

/-- One `for` of a comprehension with the conditions that follow it. -/
structure ForClause where
  span : Span
  isAsync : Bool
  target : Expr
  iterable : Expr
  conditions : List Expr

/-- An entry of a dict display. It has no key if it is `**value`. -/
structure DictEntry where
  span : Span
  key : Option Expr
  value : Expr

/-- A parameter of a function or a lambda. The parameters of a lambda have no type hints. -/
structure Param where
  span : Span
  name : String
  kind : ParamKind
  typeHint : Option Expr
  defaultValue : Option Expr

end

namespace Expr

/-- Whether an expression is a name, an attribute or a subscript: a target on its own, as annotated
and augmented assignments need it. -/
def isSingleTarget (expr : Expr) : Bool :=
  match expr.form with
  | .attribute .. | .name .. | .subscript .. => true
  | _ => false

mutual

/-- Whether an expression may be assigned to: a single target, or a starred target, list or tuple
made of targets. -/
def isTarget : Expr → Bool
  | ⟨_, .attribute ..⟩ | ⟨_, .name ..⟩ | ⟨_, .subscript ..⟩ => true
  | ⟨_, .starred value⟩ => value.isTarget
  | ⟨_, .list elements⟩ | ⟨_, .tuple elements⟩ => areTargets elements
  | _ => false

/-- Whether all expressions of a list may be assigned to. -/
def areTargets : List Expr → Bool
  | [] => true
  | element :: elements => element.isTarget && areTargets elements

end

end Expr

end PythonOutline
