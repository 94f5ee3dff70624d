import PythonOutline.Parser.Simple

/-! # Compound statements

Statements that hold blocks. Each of them is written over the parser of a block. A block is either
an indented run of statements or simple statements on the line of its header, so blocks nest no
deeper than the indentation of the source, which is limited; `block` follows that limit.

The word `match` is a keyword only where a line is the header of a match statement, which takes
reading the line to find out.
-/

namespace PythonOutline.Parser

/-- The statements behind an `else`, if there is one. -/
def elseBlock (block : Parser (List Stmt)) : Parser (List Stmt) := do
  if ← accept .keywordElse then block else return []

/-- A condition with its block: where its keyword stands, the test, and the statements. -/
structure IfClause where
  start : Nat
  test : Expr
  body : List Stmt

/-- An `if` or `elif` with its block. -/
def ifClause (block : Parser (List Stmt)) : Parser IfClause := do
  let start ← mark
  let token ← take
  unless token.kind = .keywordIf ∨ token.kind = .keywordElif do
    throw (token.error (.expected "`if` or `elif`"))
  let test ← namedExpr
  let body ← block
  return ⟨start, test, body⟩

/-- Reads one more clause, if an `elif` follows. -/
abbrev elifStep (block : Parser (List Stmt)) :
    List IfClause × IfClause → Parser (Step (List IfClause × IfClause) (List IfClause × IfClause)) :=
  fun (outer, last) => do
    if ← nextIs .keywordElif then return .next (last :: outer, ← ifClause block)
    return .done (outer, last)

/-- A conditional statement. Each `elif` is a conditional statement in the alternate of the clause
before it, so all of them end where the last one ends. -/
def ifStmt (block : Parser (List Stmt)) : Parser Stmt := do
  let first ← ifClause block
  let (outer, last) : List IfClause × IfClause ←
    iterate (([], first) : List IfClause × IfClause) (elifStep block)
  let alternate ← elseBlock block
  let tokens ← read
  let stop ← mark
  let close (clause : IfClause) (alternate : List Stmt) : Stmt :=
    ⟨tokens.spanBetween clause.start stop, .conditional clause.test clause.body alternate⟩
  return outer.foldl (fun inner clause => close clause [inner]) (close last alternate)

/-- A `while` loop. -/
def whileStmt (block : Parser (List Stmt)) : Parser Stmt := spanned do
  let _ ← expect .keywordWhile
  let test ← namedExpr
  let body ← block
  let orElse ← elseBlock block
  return fun span => ⟨span, .whileLoop test body orElse⟩

/-- A `for` loop. -/
def forStmt (block : Parser (List Stmt)) : Parser Stmt := spanned do
  let isAsync ← accept .keywordAsync
  let _ ← expect .keywordFor
  let target ← Level.outermost.targetList
  let _ ← expect .keywordIn
  let iterable ← starExprs
  let body ← block
  let orElse ← elseBlock block
  return fun span => ⟨span, .forLoop isAsync target iterable body orElse⟩

/-- An `except` clause, and whether it is an `except*`. Only a clause with an exception may name
it. -/
def handler (block : Parser (List Stmt)) : Parser (Handler × Bool) := do
  let start ← mark
  let _ ← take
  let star ← accept .asterisk
  let exception ← if ← nextIs .colon then pure none else some <$> expr
  let name ← if exception.isSome then ifAccepted .keywordAs identifier else pure none
  let body ← block
  return (⟨← spanSince start, exception, name, body⟩, star)

/-- A `try` statement. Without handlers it needs a `finally` and has no `else`. -/
def tryStmt (block : Parser (List Stmt)) : Parser Stmt := spanned do
  let _ ← expect .keywordTry
  let body ← block
  let handlers ← repeatWhile (nextIs .keywordExcept) (handler block)
  let star := handlers.any Prod.snd
  if handlers.isEmpty then
    expectOr .keywordFinally .tryWithoutHandlers
    let finalBody ← block
    return fun span => ⟨span, .tryBlock body [] [] finalBody star⟩
  let orElse ← elseBlock block
  let finalBody ← if ← accept .keywordFinally then block else pure []
  return fun span => ⟨span, .tryBlock body (handlers.map Prod.fst) orElse finalBody star⟩

/-- A context of a `with` statement. -/
def withItem : Parser WithItem := spanned do
  let context ← expr
  let target ← ifAccepted .keywordAs Level.outermost.target
  return fun span => ⟨span, context, target⟩

/-- The contexts of a `with` statement in parentheses, if the parentheses hold all of them. -/
def groupedWithItems? : Parser (Option (List WithItem)) := attempt do
  let _ ← take
  let items ← listUntil .parenthesisClose withItem
  if items.isEmpty then return none
  if ← nextIs .colon then return some items else return none

/-- The contexts of a `with` statement. Those in `with (a as b, c):` are grouped by the parentheses,
while `with (a, b) as c:` starts with a tuple. -/
def withItems : Parser (List WithItem) := do
  if ← nextIs .parenthesisOpen then
    if let some items ← groupedWithItems? then return items
  commaSeparated withItem

/-- A `with` statement. -/
def withStmt (block : Parser (List Stmt)) : Parser Stmt := spanned do
  let isAsync ← accept .keywordAsync
  let _ ← expect .keywordWith
  let items ← withItems
  let body ← block
  return fun span => ⟨span, .withBlock isAsync items body⟩

/-- Takes one more token of a pattern, unless its guard or the colon outside brackets follows. The
state tells how many brackets are open and what has been taken. -/
abbrev patternStep : Nat × Option Span → Parser (Step (Nat × Option Span) (Option Span)) :=
  fun (depth, span) => do
    let token ← peek
    if depth = 0 ∧ (token.kind = .colon ∨ token.kind = .keywordIf) then return .done span
    if token.kind = .endOfInput ∨ token.kind = .invalid ∨ ¬token.kind.isSignificant then
      throw (token.error (.expected "pattern"))
    let depth :=
      if token.kind.isOpenBracket then depth + 1
      else if token.kind.isCloseBracket then depth - 1
      else depth
    let _ ← take
    return .next (depth, some (token.span.joinOption span))

/-- The span of a pattern: all tokens up to its guard or to the colon outside brackets, if there are
any. -/
def patternSpan? : Parser (Option Span) :=
  iterate ((0, none) : Nat × Option Span) patternStep

/-- A pattern as its source text. -/
def casePattern : Parser String := do
  match ← patternSpan? with
  | some span => return String.ofList (Text.slice (← read).source span.start span.stop)
  | none => failNext (.expected "pattern")

/-- A case of a match statement. -/
def matchCase (block : Parser (List Stmt)) : Parser MatchCase := spanned do
  let _ ← take
  let pattern ← casePattern
  let guard ← ifAccepted .keywordIf namedExpr
  let body ← block
  return fun span => ⟨span, pattern, guard, body⟩

/-- The subject of a match statement, if the line is its header and a case follows. -/
def matchSubject? : Parser (Option Expr) := attempt do
  let _ ← take
  let subject ← Level.outermost.starNamedExprs
  unless ← accept .colon do
    return none
  unless ← accept .newline do
    return none
  unless ← accept .indent do
    return none
  if ← nextIsWord "case" then return some subject else return none

/-- A match statement, if the line is the header of one. Otherwise nothing is taken. -/
def matchStmt? (block : Parser (List Stmt)) : Parser (Option Stmt) := do
  let start ← mark
  match ← matchSubject? with
  | none => return none
  | some subject =>
    let cases ← repeatWhile (nextIsWord "case") (matchCase block)
    let _ ← expect .dedent
    return some ⟨← spanSince start, .matchCases subject cases⟩

end PythonOutline.Parser
