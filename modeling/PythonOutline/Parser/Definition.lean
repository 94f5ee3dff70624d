import PythonOutline.Parser.Simple

/-! # Definitions

Functions and classes with their decorators, written over the parser of a block.
-/

namespace PythonOutline.Parser

/-- The name of a definition. -/
def definedName : Parser Name := spanned do
  let text ← identifier
  return fun span => ⟨span, text⟩

/-- A decorator with the end of its line. -/
def decorator : Parser Decorator := spanned do
  let _ ← expect .at
  let expression ← namedExpr
  let _ ← expect .newline
  return fun span => ⟨span, expression⟩

/-- The decorators of a definition. -/
def decorators : Parser (List Decorator) :=
  repeatWhile (nextIs .at) decorator

/-- A class definition behind its decorators. -/
def classDef (block : Parser (List Stmt)) (decorators : List Decorator) : Parser StmtForm := do
  let _ ← expect .keywordClass
  let name ← definedName
  let params ← typeParams
  let arguments ← if ← accept .parenthesisOpen then Level.outermost.arguments else pure []
  let body ← block
  return .classDef decorators name params arguments body

/-- A function definition behind its decorators. -/
def functionDef (block : Parser (List Stmt)) (decorators : List Decorator) : Parser StmtForm := do
  let isAsync ← accept .keywordAsync
  let _ ← expect .keywordDef
  let name ← definedName
  let typeParams ← typeParams
  let _ ← expect .parenthesisOpen
  let params ← Level.outermost.params .parenthesisClose true
  let returns ← ifAccepted .hyphenChevronRight expr
  let body ← block
  return .functionDef decorators isAsync name typeParams params returns body

/-- A definition with its decorators. Its span starts at the first of them. -/
def definition (block : Parser (List Stmt)) : Parser Stmt := spanned do
  let decorators ← decorators
  let token ← peek
  match token.kind with
  | .keywordClass =>
    let form ← classDef block decorators
    return fun span => ⟨span, form⟩
  | .keywordAsync | .keywordDef =>
    let form ← functionDef block decorators
    return fun span => ⟨span, form⟩
  | _ => throw (token.error (.expected "function or class definition"))

end PythonOutline.Parser
