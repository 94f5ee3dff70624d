import PythonOutline.Text.Span
import PythonOutline.Token.Kind

/-! # Tokens

A token is a kind, the span it covers, and the text found there. Changes of indentation and the end
of the input cover nothing.
-/

namespace PythonOutline

/-- A token with its place and its text. -/
structure Token where
  kind : TokenKind
  span : Span
  text : String
  deriving DecidableEq, Repr

namespace Token

/-- A token that covers no text. -/
def empty (kind : TokenKind) (offset : Nat) : Token :=
  ⟨kind, Span.point offset, ""⟩

/-- The end of an input of the given size. -/
def endOfInput (size : Nat) : Token :=
  empty .endOfInput size

end Token

end PythonOutline
