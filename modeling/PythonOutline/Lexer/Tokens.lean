import PythonOutline.Lexer.Basic

/-! # Token sequences

The tokens of a source in one piece, for a reader that looks ahead and goes back. Behind the last
token there are ends of input without end.

A lexical error becomes known only once the invalid token has been looked at, so the sequence also
tells the error that is known after a number of tokens.
-/

namespace PythonOutline

/-- The tokens of a source. -/
structure Tokens where
  /-- The text the tokens were read from. -/
  source : List Char
  /-- The length of the text in bytes. -/
  size : Nat
  /-- The tokens up to the first end of the input. -/
  tokens : Array Token
  /-- The error that made a token invalid, if one is. -/
  failure : Option SyntaxError

namespace Tokens

/-- The tokens of a source. -/
def ofSource (source : String) : Tokens :=
  let steps := Lexer.run source
  { source := source.toList
    size := source.utf8ByteSize
    tokens := (steps.map Prod.fst).toArray
    failure := steps.getLast?.bind fun step => step.2.failure }

/-- The token with a given index. -/
def get (tokens : Tokens) (index : Nat) : Token :=
  (tokens.tokens[index]?).getD (.endOfInput tokens.size)

/-- The lexical error that is known once the first `seen` tokens have been looked at. -/
def failureWithin (tokens : Tokens) (seen : Nat) : Option SyntaxError :=
  match tokens.failure with
  | none => none
  | some error =>
    if tokens.tokens.any (fun token => token.kind = .invalid) 0 seen then some error else none

end Tokens

end PythonOutline
