import PythonOutline.Parser.Import
import PythonOutline.Parser.Nesting

/-! # Simple statements

The statements that fit on one line, several of them with semicolons between. The word `type` is a
keyword only where an alias name and an equals sign or type parameters follow it.
-/

namespace PythonOutline.Parser

/-- A single expression. -/
def expr : Parser Expr :=
  Level.outermost.expr

/-- An expression that may be bound by `:=`. -/
def namedExpr : Parser Expr :=
  Level.outermost.namedExpr

/-- A list of expressions. -/
def starExprs : Parser Expr :=
  Level.outermost.starExprs

/-- A `yield` or a list of expressions. -/
def yieldOrStarExprs : Parser Expr :=
  Level.outermost.yieldOrStarExprs

/-- What a type parameter stands for, by the asterisks in front of it. -/
def typeParamKind : Parser TypeParamKind := do
  if ← accept .asterisk then return .typeVarTuple
  if ← accept .asteriskAsterisk then return .paramSpec
  return .typeVar

/-- A type parameter. -/
def typeParam : Parser TypeParam := spanned do
  let kind ← typeParamKind
  let name ← identifier
  let bound ← if kind = .typeVar then ifAccepted .colon expr else pure none
  let defaultValue ← ifAccepted .equals Level.outermost.starExpr
  return fun span => ⟨span, name, kind, bound, defaultValue⟩

/-- An optional list of type parameters in brackets. -/
def typeParams : Parser (List TypeParam) := do
  unless ← accept .bracketOpen do
    return []
  let params ← listUntil .bracketClose typeParam
  if params.isEmpty then failNext (.expected "type parameter")
  return params

/-- An `assert` statement. -/
def assertStmt : Parser Stmt := spanned do
  let _ ← expect .keywordAssert
  let test ← expr
  let message ← ifAccepted .comma expr
  return fun span => ⟨span, .assert test message⟩

/-- A `del` statement. A comma that no expression follows is the last one. -/
def deleteStmt : Parser Stmt := spanned do
  let _ ← expect .keywordDel
  let first ← Level.outermost.target
  let targets : List Expr ← iterate [first] (Level.elementStep Level.outermost.target)
  return fun span => ⟨span, .delete targets⟩

/-- A `raise` statement. -/
def raiseStmt : Parser Stmt := spanned do
  let _ ← expect .keywordRaise
  unless (← peekKind).startsExpression do
    return fun span => ⟨span, .raise none none⟩
  let exception ← expr
  let cause ← ifAccepted .keywordFrom expr
  return fun span => ⟨span, .raise (some exception) cause⟩

/-- A `return` statement. -/
def returnStmt : Parser Stmt := spanned do
  let _ ← expect .keywordReturn
  if (← peekKind).startsExpression then
    let value ← starExprs
    return fun span => ⟨span, .return (some value)⟩
  return fun span => ⟨span, .return none⟩

/-- The declaration of an alias for a type. -/
def typeAliasStmt : Parser Stmt := spanned do
  let _ ← take
  let name ← identifier
  let params ← typeParams
  let _ ← expect .equals
  let value ← expr
  return fun span => ⟨span, .typeAlias name params value⟩

/-- A statement that is a keyword alone. -/
def keywordStmt (form : StmtForm) : Parser Stmt := spanned do
  let _ ← take
  return fun span => ⟨span, form⟩

/-- A statement that is a keyword and a list of names. -/
def namesStmt (form : List String → StmtForm) : Parser Stmt := spanned do
  let _ ← take
  let names ← commaSeparated identifier
  return fun span => ⟨span, form names⟩

/-- Refuses an expression that is not a target on its own. -/
def checkSingleTarget (target : Expr) : Parser Unit := do
  unless target.isSingleTarget do
    throw (target.span.error .invalidAssignmentTarget)

/-- Takes an equals sign and the value behind it, if there is one: then the value before it is a
target. -/
abbrev assignStep : List Expr × Expr → Parser (Step (List Expr × Expr) (List Expr × Expr)) :=
  fun (targets, value) => do
    if ← accept .equals then return .next (value :: targets, ← yieldOrStarExprs)
    return .done (targets.reverse, value)

/-- The values of a chain of equals signs behind a first one, each but the last a target. -/
def assignedValues (first : Expr) : Parser (List Expr × Expr) :=
  iterate (([], first) : List Expr × Expr) assignStep

/-- An expression statement or any form of assignment: all of them start with an expression. The
targets of a plain assignment are looked at once all of it has been read. -/
def expressionStmt : Parser Stmt := spanned do
  let first ← yieldOrStarExprs
  let kind ← peekKind
  if kind = .colon then
    let _ ← take
    checkSingleTarget first
    let hint ← expr
    let value ← ifAccepted .equals yieldOrStarExprs
    return fun span => ⟨span, .annotate first hint value⟩
  if let some operator := Operator.augmented? kind then
    let _ ← take
    checkSingleTarget first
    let value ← yieldOrStarExprs
    return fun span => ⟨span, .augment operator first value⟩
  if kind = .equals then
    let (targets, value) ← assignedValues first
    if let some invalid := targets.find? (fun target => !target.isTarget) then
      throw (invalid.span.error .invalidAssignmentTarget)
    return fun span => ⟨span, .assign targets value⟩
  return fun span => ⟨span, .expression first⟩

/-- Whether three tokens start the declaration of a type alias. -/
def startsTypeAlias (first second third : Token) : Bool :=
  second.kind == .identifier && (third.kind == .equals || third.kind == .bracketOpen) &&
    first.text == "type"

/-- A simple statement. -/
def simpleStmt : Parser Stmt := do
  let (first, second, third) ← peekThree
  match first.kind with
  | .keywordAssert => assertStmt
  | .keywordBreak => keywordStmt .break
  | .keywordContinue => keywordStmt .continue
  | .keywordDel => deleteStmt
  | .keywordFrom => importFrom
  | .keywordGlobal => namesStmt .global
  | .keywordImport => importModules
  | .keywordNonlocal => namesStmt .nonlocal
  | .keywordPass => keywordStmt .pass
  | .keywordRaise => raiseStmt
  | .keywordReturn => returnStmt
  | .identifier =>
    if startsTypeAlias first second third then typeAliasStmt else expressionStmt
  | _ => expressionStmt

/-- Takes a semicolon and reads the statement behind it. A semicolon at the end of the line is the
last one. -/
abbrev simpleStep (stmts : List Stmt) : Parser (Step (List Stmt) (List Stmt)) := do
  unless ← accept .semicolon do
    return .done stmts.reverse
  if ← nextIs .newline then return .done stmts.reverse
  return .next ((← simpleStmt) :: stmts)

/-- A line of simple statements with semicolons between them. -/
def simpleStmts : Parser (List Stmt) := do
  let first ← simpleStmt
  let stmts : List Stmt ← iterate [first] simpleStep
  let _ ← expect .newline
  return stmts

end PythonOutline.Parser
