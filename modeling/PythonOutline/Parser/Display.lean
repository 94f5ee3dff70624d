import PythonOutline.Parser.Expr

/-! # Displays and comprehensions

Displays in parentheses, brackets and braces, with or without a comprehension. Parentheses round a
single expression only group it. Empty braces are a dict.
-/

namespace PythonOutline

namespace Parser

/-- Whether a clause of a comprehension starts here. -/
def startsForClause : Parser Bool := do
  let (first, second) ← peekTwo
  return first.kind == .keywordFor || first.kind == .keywordAsync && second.kind == .keywordFor

end Parser

namespace Level

open PythonOutline.Parser

/-- A `for` clause of a comprehension with its conditions. -/
def forClause (level : Level) : Parser ForClause := spanned do
  let isAsync ← accept .keywordAsync
  let _ ← expect .keywordFor
  let target ← level.targetList
  let _ ← expect .keywordIn
  let iterable ← level.orTest
  let conditions ← repeatWhile (nextIs .keywordIf) do
    let _ ← take
    level.orTest
  return fun span => ⟨span, isAsync, target, iterable, conditions⟩

/-- The clauses of a comprehension. -/
def forClauses (level : Level) : Parser (List ForClause) :=
  repeatWhile startsForClause level.forClause

/-- The rest of a comprehension that began at a mark, up to its closing token. -/
def comprehension (level : Level) (start : Nat) (close : TokenKind) (kind : ComprehensionKind)
    (element : Expr) (value : Option Expr) : Parser Expr := do
  let clauses ← level.forClauses
  let _ ← expect close
  return ⟨← spanSince start, .comprehension kind element value clauses⟩

/-- The elements of a display up to its closing token. -/
def displayElements (level : Level) (close : TokenKind) : Parser (List Expr) :=
  listUntil close level.starNamedExpr

/-- A display in parentheses: a grouped expression, a tuple, a `yield` or a generator. -/
def parenDisplay (level : Level) : Parser Expr := do
  let start ← mark
  let _ ← expect .parenthesisOpen
  if ← accept .parenthesisClose then return ⟨← spanSince start, .tuple []⟩
  if ← nextIs .keywordYield then
    let value ← level.yieldExpr
    let _ ← expect .parenthesisClose
    return value
  let first ← level.starNamedExpr
  if ← startsForClause then
    return ← level.comprehension start .parenthesisClose .generator first none
  if ← accept .comma then
    let others ← level.displayElements .parenthesisClose
    return ⟨← spanSince start, .tuple (first :: others)⟩
  let _ ← expect .parenthesisClose
  return first

/-- A list display. -/
def listDisplay (level : Level) : Parser Expr := do
  let start ← mark
  let _ ← expect .bracketOpen
  if ← nextIs .bracketClose then
    let elements ← level.displayElements .bracketClose
    return ⟨← spanSince start, .list elements⟩
  let first ← level.starNamedExpr
  if ← startsForClause then
    return ← level.comprehension start .bracketClose .list first none
  if ← accept .comma then
    let others ← level.displayElements .bracketClose
    return ⟨← spanSince start, .list (first :: others)⟩
  let _ ← expect .bracketClose
  return ⟨← spanSince start, .list [first]⟩

/-- An entry of a dict display behind its first one. -/
def dictEntry (level : Level) : Parser DictEntry := spanned do
  if ← accept .asteriskAsterisk then
    let value ← level.bitwiseOr
    return fun span => ⟨span, none, value⟩
  let key ← level.expr
  let _ ← expect .colon
  let value ← level.expr
  return fun span => ⟨span, some key, value⟩

/-- A set display or comprehension that began at a mark, behind its first element. -/
def setDisplay (level : Level) (start : Nat) (first : Expr) : Parser Expr := do
  if ← startsForClause then
    return ← level.comprehension start .braceClose .set first none
  if ← accept .comma then
    let others ← level.displayElements .braceClose
    return ⟨← spanSince start, .set (first :: others)⟩
  let _ ← expect .braceClose
  return ⟨← spanSince start, .set [first]⟩

/-- A dict display or comprehension that began at a mark, behind the colon of its first entry, which
began at a mark of its own. -/
def dictDisplay (level : Level) (start entryStart : Nat) (key : Expr) : Parser Expr := do
  let value ← level.expr
  if ← startsForClause then
    return ← level.comprehension start .braceClose .dict key (some value)
  let first : DictEntry := ⟨← spanSince entryStart, some key, value⟩
  if ← accept .comma then
    let others ← listUntil .braceClose level.dictEntry
    return ⟨← spanSince start, .dict (first :: others)⟩
  let _ ← expect .braceClose
  return ⟨← spanSince start, .dict [first]⟩

/-- A dict or set display. -/
def braceDisplay (level : Level) : Parser Expr := do
  let start ← mark
  let _ ← expect .braceOpen
  let kind ← peekKind
  if kind = .braceClose ∨ kind = .asteriskAsterisk then
    let entries ← listUntil .braceClose level.dictEntry
    return ⟨← spanSince start, .dict entries⟩
  let entryStart ← mark
  let first ← level.starNamedExpr
  if ← accept .colon then level.dictDisplay start entryStart first
  else level.setDisplay start first

end Level

end PythonOutline
