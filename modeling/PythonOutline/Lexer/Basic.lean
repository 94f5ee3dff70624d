import PythonOutline.Lexer.Indentation
import PythonOutline.Lexer.Number
import PythonOutline.Lexer.StringLiteral
import PythonOutline.Lexer.Trivia

/-! # The lexer

The lexer turns a source into tokens, one at a time. Besides its reading position it keeps what the
meaning of a line break depends on: the open brackets, within which line breaks mean nothing, and
the open levels of indentation, from which indent and dedent tokens come.

The first failure is kept. It yields one invalid token at the error's span, and all tokens behind it
are ends of input. So is every token behind the end of the source.
-/

namespace PythonOutline

/-- The state of the lexer between two tokens. -/
structure Lexer where
  /-- What is still to be read. -/
  cursor : Cursor
  /-- The length of the whole source in bytes. -/
  size : Nat
  /-- The open levels of indentation, innermost first, without the module level. -/
  levels : List IndentWidth
  /-- Dedent tokens that are due at the current offset. -/
  pendingDedents : Nat
  /-- The open brackets with their spans, innermost first. -/
  brackets : List (TokenKind × Span)
  /-- Whether the indentation of a line is to be looked at next. -/
  atLineStart : Bool
  /-- Whether the current logical line holds a token already. -/
  lineHasTokens : Bool
  /-- The failure that ended the tokens, if there was one. -/
  failure : Option SyntaxError

namespace Lexer

/-- The byte order mark, which is passed over at the very start of a source. -/
def byteOrderMark : Char := '\uFEFF'

/-- The lexer at the start of a source. -/
def start (source : List Char) (size : Nat) : Lexer where
  cursor :=
    match source with
    | c :: cs => if c = byteOrderMark then ⟨cs, c.utf8Size⟩ else ⟨source, 0⟩
    | [] => ⟨[], 0⟩
  size := size
  levels := []
  pendingDedents := 0
  brackets := []
  atLineStart := true
  lineHasTokens := false
  failure := none

/-- The lexer at the start of a source. -/
def ofSource (source : String) : Lexer :=
  start source.toList source.utf8ByteSize

/-- The kind and the extent of a number literal. -/
def number (cursor : Cursor) : Except LexFailure (TokenKind × Cursor) :=
  match scanNumber cursor with
  | .ok stop => .ok (.literalNumber, stop)
  | .error stop => .error ⟨Span.error ⟨cursor.offset, stop.offset⟩ .malformedNumber, stop⟩

/-- The kind and the extent of a string literal that starts at an offset and whose opening quote
stands at a cursor. -/
def string (start : Nat) (formatted : Bool) (quote : Cursor) :
    Except LexFailure (TokenKind × Cursor) :=
  match (scanLiteral formatted quote).getD (.unterminated quote) with
  | .closed stop => .ok (.literalString, stop)
  | .unterminated stop => .error ⟨Span.error ⟨start, stop.offset⟩ .unterminatedString, stop⟩

/-- The kind and the extent of a word: a keyword, an identifier, or the prefix of a string literal
together with the literal. -/
def word (cursor : Cursor) : Except LexFailure (TokenKind × Cursor) :=
  let stop := cursor.skipWhile Text.isIdentifierContinue
  let letters := cursor.textTo stop
  if stop.peek?.any isQuote && isStringPrefix letters then
    string cursor.offset (announcesFormatted letters) stop
  else .ok ((TokenKind.keyword? (String.ofList letters)).getD .identifier, stop)

/-- The kind and the extent of an operator or delimiter. -/
def operator (cursor : Cursor) : Except LexFailure (TokenKind × Cursor) :=
  match TokenKind.longestOperator? cursor.rest with
  | some (kind, spelling) => .ok (kind, cursor.advanceBy spelling.length)
  | none =>
    .error ⟨Span.error ⟨cursor.offset, cursor.advance.offset⟩ .invalidCharacter, cursor⟩

/-- The kind and the extent of the token that starts with a character at a cursor. -/
def significant (c : Char) (cursor : Cursor) : Except LexFailure (TokenKind × Cursor) :=
  if Text.isIdentifierStart c then word cursor
  else if c.isDigit || c = '.' && cursor.advance.peek?.any Char.isDigit then number cursor
  else if isQuote c then string cursor.offset false cursor
  else operator cursor

/-- The open brackets behind a token. A closing bracket must match the innermost open one. -/
def trackBrackets (brackets : List (TokenKind × Span)) (kind : TokenKind) (span : Span)
    (stop : Cursor) : Except LexFailure (List (TokenKind × Span)) :=
  if kind.isOpenBracket then .ok ((kind, span) :: brackets)
  else if kind.isCloseBracket then
    match brackets with
    | (opened, _) :: outer =>
      if opened.closingBracket? = some kind then .ok outer
      else .error ⟨⟨.unmatchedBracket, span, some kind⟩, stop⟩
    | [] => .error ⟨⟨.unmatchedBracket, span, some kind⟩, stop⟩
  else .ok brackets

/-- Reads the token that starts with a character at the current offset. -/
def readSignificant (lexer : Lexer) (c : Char) : Except LexFailure (Token × Lexer) := do
  let (kind, stop) ← significant c lexer.cursor
  let span : Span := ⟨lexer.cursor.offset, stop.offset⟩
  let brackets ← trackBrackets lexer.brackets kind span stop
  let text := String.ofList (lexer.cursor.textTo stop)
  return (⟨kind, span, text⟩, { lexer with cursor := stop, brackets, lineHasTokens := true })

/-- Reads a token at the end of the source: the end of a line that no line break ended, the end of
an open level of indentation, or the end of the input. -/
def readEnd (lexer : Lexer) : Except LexFailure (Token × Lexer) :=
  let offset := lexer.cursor.offset
  match lexer.brackets with
  | (opened, span) :: _ => .error ⟨⟨.unmatchedBracket, span, some opened⟩, lexer.cursor⟩
  | [] =>
    if lexer.lineHasTokens then .ok (.empty .newline offset, { lexer with lineHasTokens := false })
    else
      match lexer.levels with
      | _ :: levels => .ok (.empty .dedent offset, { lexer with levels })
      | [] => .ok (.endOfInput lexer.size, lexer)

/-- Looks at the indentation of the next line. Answers the token for a change of level, if there is
one. -/
def readIndentation (lexer : Lexer) : Except LexFailure (Option Token × Lexer) :=
  match LineStart.find lexer.cursor with
  | .none stop => .ok (none, { lexer with cursor := stop, atLineStart := false })
  | .line start width stop =>
    let lexer := { lexer with cursor := stop, atLineStart := false }
    match IndentChange.of lexer.levels width with
    | .error cause => .error ⟨Span.error ⟨start, stop.offset⟩ cause, stop⟩
    | .ok .same => .ok (none, lexer)
    | .ok (.deeper levels) => .ok (some (.empty .indent stop.offset), { lexer with levels })
    | .ok (.shallower levels extra) =>
      .ok (some (.empty .dedent stop.offset), { lexer with levels, pendingDedents := extra })

/-- Reads what stands behind the indentation of a line or within it: one token, or a line break
behind which no token is due yet, as the line had none. -/
def readWithin (lexer : Lexer) : Except LexFailure (Option Token × Lexer) := do
  let cursor ← skipTrivia (!lexer.brackets.isEmpty) lexer.cursor
  let lexer := { lexer with cursor }
  match cursor.rest with
  | [] =>
    let (token, lexer) ← lexer.readEnd
    return (some token, lexer)
  | c :: _ =>
    match cursor.skipLineBreak? with
    | some stop =>
      let behind := { lexer with cursor := stop, atLineStart := true, lineHasTokens := false }
      if lexer.lineHasTokens then
        let text := String.ofList (cursor.textTo stop)
        return (some ⟨.newline, ⟨cursor.offset, stop.offset⟩, text⟩, behind)
      else return (none, behind)
    | none =>
      let (token, lexer) ← lexer.readSignificant c
      return (some token, lexer)

/-- Reads lines until there is a token, at most `fuel` of them. -/
def readLines : (fuel : Nat) → Lexer → Except LexFailure (Token × Lexer)
  | 0, lexer => .ok (.endOfInput lexer.size, lexer)
  | fuel + 1, lexer => do
    let (change, lexer) ←
      if lexer.atLineStart && lexer.brackets.isEmpty then lexer.readIndentation
      else .ok (none, lexer)
    match change with
    | some token => return (token, lexer)
    | none =>
      match ← lexer.readWithin with
      | (some token, lexer) => return (token, lexer)
      | (none, lexer) => readLines fuel lexer

/-- Reads the next token, if the text can be read. Every line without a token takes a byte, so the
number of unread bytes bounds the number of lines to be read. -/
def read (lexer : Lexer) : Except LexFailure (Token × Lexer) :=
  match lexer.pendingDedents with
  | pendingDedents + 1 =>
    .ok (.empty .dedent lexer.cursor.offset, { lexer with pendingDedents })
  | 0 => readLines (lexer.size - lexer.cursor.offset + 1) lexer

/-- The next token and the lexer behind it. -/
def next (lexer : Lexer) : Token × Lexer :=
  if lexer.failure.isSome then (.endOfInput lexer.size, lexer)
  else
    match lexer.read with
    | .ok result => result
    | .error failure =>
      (⟨.invalid, failure.error.span, ""⟩,
        { lexer with cursor := failure.stop, failure := some failure.error })

/-- The next tokens up to the end of the input, each with the lexer behind it, at most `fuel` of
them. -/
def runFor : (fuel : Nat) → Lexer → List (Token × Lexer)
  | 0, _ => []
  | fuel + 1, lexer =>
    let (token, behind) := lexer.next
    if token.kind = .endOfInput then [(token, behind)] else (token, behind) :: runFor fuel behind

/-- All tokens of a source up to the end of the input, each with the lexer behind it. A source of
`n` bytes has at most `2 * n + 3` tokens. -/
def run (source : String) : List (Token × Lexer) :=
  runFor (2 * source.utf8ByteSize + 3) (ofSource source)

end Lexer

end PythonOutline
