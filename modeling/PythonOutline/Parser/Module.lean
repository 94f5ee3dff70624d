import PythonOutline.Parser.Compound
import PythonOutline.Parser.Definition

/-! # Blocks and modules

Lines of statements, the blocks made of them, and whole modules. A source that cannot be read as
tokens is no module, and its lexical error is reported in place of any error that the parser finds
at or behind it. The parser learns of a lexical error only by looking at its token.
-/

namespace PythonOutline

namespace Parser

/-- One compound statement, or a line of simple statements. -/
def stmtLineOver (block : Parser (List Stmt)) : Parser (List Stmt) := do
  let (first, second) ← peekTwo
  match first.kind with
  | .at | .keywordClass | .keywordDef => return [← definition block]
  | .keywordAsync =>
    match second.kind with
    | .keywordDef => return [← definition block]
    | .keywordFor => return [← forStmt block]
    | .keywordWith => return [← withStmt block]
    | _ => throw (second.error (.expected "`def`, `for` or `with` after `async`"))
  | .keywordFor => return [← forStmt block]
  | .keywordIf => return [← ifStmt block]
  | .keywordTry => return [← tryStmt block]
  | .keywordWhile => return [← whileStmt block]
  | .keywordWith => return [← withStmt block]
  | .identifier =>
    if first.text = "match" then
      match ← matchStmt? block with
      | some stmt => return [stmt]
      | none => simpleStmts
    else simpleStmts
  | _ => simpleStmts

/-- Reads one more line of statements, unless a token that stops them follows. -/
abbrev lineStep (line : Parser (List Stmt)) (stop : TokenKind) (stmts : List Stmt) :
    Parser (Step (List Stmt) (List Stmt)) := do
  let token ← peek
  if token.kind = stop then return .done stmts.reverse
  if token.kind = .indent then throw (token.error .unexpectedIndent)
  return .next ((← line).reverse ++ stmts)

/-- Lines of statements up to a token, which is not taken. -/
def stmtsOver (line : Parser (List Stmt)) (stop : TokenKind) : Parser (List Stmt) :=
  iterate ([] : List Stmt) (lineStep line stop)

/-- The block of a compound statement from its colon on, where `line` parses the lines of an
indented one. -/
def blockOver (line : Parser (List Stmt)) : Parser (List Stmt) := do
  let _ ← expect .colon
  if ← accept .newline then
    expectOr .indent .expectedIndentedBlock
    let body ← stmtsOver line .dedent
    let _ ← expect .dedent
    return body
  else simpleStmts

/-- A block that nests at most `depth` blocks, itself included. -/
def blockWithin : (depth : Nat) → Parser (List Stmt)
  | 0 => failNext .nestingTooDeep
  | depth + 1 => blockOver (stmtLineOver (blockWithin depth))

/-- A block. Every block inside another one is indented further, so the number of levels of
indentation bounds how deep blocks nest. -/
def block : Parser (List Stmt) :=
  blockWithin maxIndentLevels

/-- One compound statement, or a line of simple statements. -/
def stmtLine : Parser (List Stmt) :=
  stmtLineOver block

/-- Lines of statements up to a token, which is not taken. -/
def stmts (stop : TokenKind) : Parser (List Stmt) :=
  stmtsOver stmtLine stop

/-- A whole module. -/
def module : Parser Module := do
  let body ← stmts .endOfInput
  let _ ← expect .endOfInput
  return ⟨⟨0, (← read).size⟩, body⟩

/-- The result of a parser on a whole token sequence, where a lexical error that is known takes the
place of an error at or behind it. -/
def runOn {α : Type} (parser : Parser α) (tokens : Tokens) : Except SyntaxError α :=
  match parser tokens .start with
  | .ok value place =>
    match tokens.failureWithin place.seen with
    | some failure => .error failure
    | none => .ok value
  | .error error place =>
    match tokens.failureWithin place.seen with
    | some failure =>
      .error (if failure.span.start ≤ error.span.start then failure else error)
    | none => .error error

end Parser

/-- Parses a source as a module. -/
def parseModule (source : String) : Except SyntaxError Module :=
  Parser.runOn Parser.module (Tokens.ofSource source)

end PythonOutline
