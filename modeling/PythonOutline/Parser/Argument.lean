import PythonOutline.Parser.Display

/-! # Call arguments and subscripts

Positional arguments end at the first keyword or `**` argument, and `*` arguments at the first `**`
argument. A generator that is the only argument needs no parentheses of its own.
-/

namespace PythonOutline

/-- The first argument that stands behind one it may not follow, as an error. `seenKeyword` and
`seenMapping` tell whether a keyword or `**` argument, or a `**` argument, stands before. -/
def Argument.misplaced? (seenKeyword seenMapping : Bool) : List Argument → Option SyntaxError
  | [] => none
  | argument :: others =>
    match argument.keyword, argument.unpack with
    | some _, _ => misplaced? true seenMapping others
    | none, .mapping => misplaced? true true others
    | none, .iterable =>
      if seenMapping then some (argument.span.error .unpackingAfterKeywordUnpacking)
      else misplaced? seenKeyword seenMapping others
    | none, .none =>
      if seenKeyword then some (argument.span.error .positionalAfterKeyword)
      else misplaced? seenKeyword seenMapping others

namespace Level

open PythonOutline.Parser

/-- A positional argument, which may be a generator without parentheses. -/
def positionalArgument (level : Level) : Parser Expr := do
  let start ← mark
  let value ← level.namedExpr
  if ← startsForClause then
    let clauses ← level.forClauses
    return ⟨← spanSince start, .comprehension .generator value none clauses⟩
  return value

/-- An argument of a call. -/
def argument (level : Level) : Parser Argument := spanned do
  let (first, second) ← peekTwo
  match first.kind with
  | .asterisk =>
    let _ ← take
    let value ← level.expr
    return fun span => ⟨span, none, .iterable, value⟩
  | .asteriskAsterisk =>
    let _ ← take
    let value ← level.expr
    return fun span => ⟨span, none, .mapping, value⟩
  | .identifier =>
    if second.kind = .equals then
      let name ← identifier
      let _ ← expect .equals
      let value ← level.expr
      return fun span => ⟨span, some name, .none, value⟩
    else
      let value ← level.positionalArgument
      return fun span => ⟨span, none, .none, value⟩
  | _ =>
    let value ← level.positionalArgument
    return fun span => ⟨span, none, .none, value⟩

/-- The arguments behind an opening parenthesis, up to the closing one. -/
def arguments (level : Level) : Parser (List Argument) := do
  let arguments ← listUntil .parenthesisClose level.argument
  match Argument.misplaced? false false arguments with
  | some error => throw error
  | none => return arguments

/-- A bound of a slice, which may be absent. -/
def sliceBound (level : Level) : Parser (Option Expr) := do
  match ← peekKind with
  | .colon | .comma | .bracketClose => return none
  | _ => return some (← level.expr)

/-- The part of a slice from its first colon on, behind a lower bound that may be absent. -/
def sliceRest (level : Level) (start : Nat) (lower : Option Expr) : Parser Expr := do
  let _ ← expect .colon
  let upper ← level.sliceBound
  let step ← if ← accept .colon then level.sliceBound else pure none
  return ⟨← spanSince start, .slice lower upper step⟩

/-- An element of a subscript: an expression or a slice. -/
def sliceItem (level : Level) : Parser Expr := do
  let start ← mark
  if ← nextIs .colon then level.sliceRest start none
  else
    let value ← level.starNamedExpr
    if ← nextIs .colon then level.sliceRest start (some value) else return value

/-- Takes a comma and reads the element of a subscript behind it. A comma in front of the closing
bracket is the last one. -/
abbrev sliceStep (level : Level) (elements : List Expr) : Parser (Step (List Expr) (List Expr)) := do
  unless ← accept .comma do
    return .done elements.reverse
  if ← nextIs .bracketClose then return .done elements.reverse
  return .next ((← level.sliceItem) :: elements)

/-- What stands between the brackets of a subscript. -/
def subscript (level : Level) : Parser Expr := do
  let start ← mark
  let first ← level.sliceItem
  unless ← nextIs .comma do
    return first
  let elements : List Expr ← iterate [first] level.sliceStep
  return ⟨← spanSince start, .tuple elements⟩

end Level

end PythonOutline
