import PythonOutline.Lexer.StringLiteral
import PythonOutline.Literal.Escape

/-! # The value of string literals

A string literal as written is a prefix, quotes, and a text between them. The prefix says whether it
denotes bytes, whether it has replacement fields, and whether its backslashes are plain characters.
Replacement fields are not evaluated: the text of a formatted literal is its value as it stands.

Any text has a value here, also one that is no literal; a text too short for its quotes, or whose
closing quotes would cut a character, has the empty one.
-/

namespace PythonOutline.Literal

/-- The value of a string literal. -/
structure StringValue where
  text : String
  bytes : Bool
  formatted : Bool
  deriving DecidableEq, Repr

/-- The number of quotes on each side of a literal without its prefix. -/
def quoteWidth (body : List Char) : Nat :=
  if Text.byteLength body ≥ 6 ∧
      (['\'', '\'', '\''].isPrefixOf body ∨ ['"', '"', '"'].isPrefixOf body) then 3
  else 1

/-- The text between the quotes of a literal without its prefix. -/
def inner (body : List Char) : List Char :=
  let width := quoteWidth body
  Text.slice body width (Text.byteLength body - width)

/-- The value of a string literal as it is written, with its prefix and quotes. -/
def decode (raw : List Char) : StringValue :=
  let (letters, body) := raw.span fun c => !isQuote c
  let lowered := letters.map Char.toLower
  let bytes := lowered.contains 'b'
  let formatted := lowered.contains 'f'
  let text := inner body
  let verbatim := lowered.contains 'r' || formatted
  ⟨String.ofList (if verbatim then text else unescape bytes text), bytes, formatted⟩

/-- The value of a number literal: its text without underscores. -/
def numberValue (raw : String) : String :=
  String.ofList (raw.toList.filter (· != '_'))

end PythonOutline.Literal
