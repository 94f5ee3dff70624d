import PythonOutline.Lexer.Tokens

/-! # Parsers

A parser reads from a fixed token sequence and moves a place in it. It never changes the sequence,
and a failing parser leaves the place where it stood when it failed. The place also remembers how
many tokens have been looked at, because a lexical error is known only once its token has been
looked at; going back does not make it unknown again.
-/

namespace PythonOutline

/-- A place in a token sequence. -/
structure Place where
  /-- The index of the next token. -/
  next : Nat
  /-- How many tokens have been looked at. -/
  seen : Nat
  deriving DecidableEq, Repr

/-- The place before any token has been looked at. -/
def Place.start : Place :=
  ⟨0, 0⟩

/-- A computation that reads tokens and yields a value or a syntax error. -/
abbrev Parser (α : Type) :=
  ReaderT Tokens (EStateM SyntaxError Place) α

namespace Tokens

/-- The first significant token among `count` tokens from an index on. -/
def firstSignificant? (tokens : Tokens) (start : Nat) : (count : Nat) → Option Token
  | 0 => none
  | count + 1 =>
    let token := tokens.get start
    if token.kind.isSignificant then some token else tokens.firstSignificant? (start + 1) count

/-- The last significant token among `count` tokens from an index on. -/
def lastSignificant? (tokens : Tokens) (start : Nat) : (count : Nat) → Option Token
  | 0 => none
  | count + 1 =>
    let token := tokens.get (start + count)
    if token.kind.isSignificant then some token else tokens.lastSignificant? start count

/-- The span of the significant tokens from one index up to another. Without such tokens it is the
empty span at the end of the token before the second index. -/
def spanBetween (tokens : Tokens) (start stop : Nat) : Span :=
  match tokens.firstSignificant? start (stop - start),
    tokens.lastSignificant? start (stop - start) with
  | some first, some last => ⟨first.span.start, last.span.stop⟩
  | _, _ => Span.point (if stop = 0 then 0 else (tokens.get (stop - 1)).span.stop)

end Tokens

namespace Parser

variable {α β : Type}

/-- The token a number of tokens ahead. -/
def lookAhead (distance : Nat) : Parser Token := do
  let place ← get
  let index := place.next + distance
  set { place with seen := max place.seen (index + 1) }
  return (← read).get index

/-- The next token. -/
def peek : Parser Token :=
  lookAhead 0

/-- The next two tokens. -/
def peekTwo : Parser (Token × Token) := do
  let first ← lookAhead 0
  let second ← lookAhead 1
  return (first, second)

/-- The next three tokens. -/
def peekThree : Parser (Token × Token × Token) := do
  let first ← lookAhead 0
  let second ← lookAhead 1
  let third ← lookAhead 2
  return (first, second, third)

/-- The kind of the next token. -/
def peekKind : Parser TokenKind := do
  return (← peek).kind

/-- Whether the next token is of a kind. -/
def nextIs (kind : TokenKind) : Parser Bool := do
  return (← peekKind) == kind

/-- Whether the next token is an identifier with a text. Some words are keywords only in some
places. -/
def nextIsWord (word : String) : Parser Bool := do
  let token ← peek
  return token.kind == .identifier && token.text == word

/-- Takes the next token. -/
def take : Parser Token := do
  let token ← peek
  modify fun place => { place with next := place.next + 1 }
  return token

/-- Takes the next token if it is of a kind. -/
def accept (kind : TokenKind) : Parser Bool := do
  if ← nextIs kind then
    let _ ← take
    return true
  else return false

/-- Takes the next token, which must be of a kind. -/
def expect (kind : TokenKind) : Parser Token := do
  let token ← take
  if token.kind = kind then return token else throw (token.error (.requiredToken kind))

/-- Takes the next token if it is of a kind. Otherwise fails for a cause, naming the wanted kind at
the place of the token that was found. -/
def expectOr (kind : TokenKind) (cause : SyntaxCause) : Parser Unit := do
  let token ← peek
  unless ← accept kind do
    throw ⟨cause, token.span, some kind⟩

/-- Takes the next token, which must be an identifier, and yields its text. -/
def identifier : Parser String := do
  let token ← take
  if token.kind = .identifier then return token.text
  else throw (token.error (.expected "identifier"))

/-- Fails with a cause at the next token. -/
def failNext (cause : SyntaxCause) : Parser α := do
  throw ((← peek).error cause)

/-- The index of the next token. -/
def mark : Parser Nat := do
  return (← get).next

/-- The span of the significant tokens taken since a mark. -/
def spanSince (start : Nat) : Parser Span := do
  return (← read).spanBetween start (← get).next

/-- Runs a parser for a value that lacks its span, and gives it the span of what was taken. -/
def spanned (parser : Parser (Span → α)) : Parser α := do
  let start ← mark
  let make ← parser
  return make (← spanSince start)

/-- Runs a parser if the next token is of a kind, which is taken. -/
def ifAccepted (kind : TokenKind) (parser : Parser α) : Parser (Option α) := do
  if ← accept kind then return some (← parser) else return none

/-- Runs a parser for its value, but goes back if it fails or yields none. -/
def attempt (parser : Parser (Option α)) : Parser (Option α) := fun tokens place =>
  match parser tokens place with
  | .ok (some value) after => .ok (some value) after
  | .ok none after => .ok none { after with next := place.next }
  | .error _ after => .ok none { after with next := place.next }

end Parser

end PythonOutline
