import PythonOutline.Text.Quoted
import PythonOutline.Token.Basic

/-! # Syntax errors

A syntax error is a cause, the span it concerns, and the kind of token that was involved, if any.
Every cause has a stable code; the code `PY0001` is retired. All wordings are made here.
-/

namespace PythonOutline

/-- Why a source is not a module. -/
inductive SyntaxCause where
  /-- Some construct, described by a text, had to stand here. -/
  | expected (construct : String)
  | invalidAssignmentTarget
  | inconsistentDedent
  | inconsistentTabs
  | unexpectedIndent
  | expectedIndentedBlock
  | unterminatedString
  | malformedNumber
  | unmatchedBracket
  /-- A token of a given kind had to stand here. -/
  | requiredToken (kind : TokenKind)
  | tryWithoutHandlers
  | unexpectedEnd
  | invalidCharacter
  | nonDefaultAfterDefault
  | nestingTooDeep
  | positionalAfterKeyword
  | unpackingAfterKeywordUnpacking
  deriving DecidableEq, Repr

namespace SyntaxCause

/-- The name of a cause, without what it carries. -/
def name : SyntaxCause → String
  | .expected _ => "ExpectedSyntax"
  | .invalidAssignmentTarget => "InvalidAssignmentTarget"
  | .inconsistentDedent => "InconsistentDedent"
  | .inconsistentTabs => "InconsistentTabs"
  | .unexpectedIndent => "UnexpectedIndent"
  | .expectedIndentedBlock => "ExpectedIndentedBlock"
  | .unterminatedString => "UnterminatedString"
  | .malformedNumber => "MalformedLiteralNumber"
  | .unmatchedBracket => "UnmatchedBracket"
  | .requiredToken _ => "RequiredTokenNotFound"
  | .tryWithoutHandlers => "TryStatementHasNoHandlers"
  | .unexpectedEnd => "UnexpectedEnd"
  | .invalidCharacter => "InvalidCharacter"
  | .nonDefaultAfterDefault => "NonDefaultArgumentFollowsDefault"
  | .nestingTooDeep => "NestingTooDeep"
  | .positionalAfterKeyword => "PositionalArgumentFollowsKeyword"
  | .unpackingAfterKeywordUnpacking => "UnpackingFollowsKeywordUnpacking"

/-- The causes that carry nothing. -/
def plain : List SyntaxCause :=
  [.invalidAssignmentTarget, .inconsistentDedent, .inconsistentTabs, .unexpectedIndent,
   .expectedIndentedBlock, .unterminatedString, .malformedNumber, .unmatchedBracket,
   .tryWithoutHandlers, .unexpectedEnd, .invalidCharacter, .nonDefaultAfterDefault,
   .nestingTooDeep, .positionalAfterKeyword, .unpackingAfterKeywordUnpacking]

/-- The cause with a given name, where `detail` is the text or the kind's name that it carries. -/
def ofName? (name detail : String) : Option SyntaxCause :=
  if name = "ExpectedSyntax" then some (.expected detail)
  else if name = "RequiredTokenNotFound" then (TokenKind.ofName? detail).map .requiredToken
  else plain.find? fun cause => cause.name == name

/-- A cause with what it carries. -/
def description : SyntaxCause → String
  | .expected construct => "ExpectedSyntax(" ++ Text.quoted construct ++ ")"
  | .requiredToken kind => "RequiredTokenNotFound(" ++ kind.name ++ ")"
  | cause => cause.name

/-- The stable code of a cause. -/
def code : SyntaxCause → String
  | .expected _ => "PY0002"
  | .invalidAssignmentTarget => "PY0003"
  | .inconsistentDedent => "PY0004"
  | .inconsistentTabs => "PY0005"
  | .unexpectedIndent => "PY0006"
  | .expectedIndentedBlock => "PY0007"
  | .unterminatedString => "PY0008"
  | .malformedNumber => "PY0009"
  | .unmatchedBracket => "PY0010"
  | .requiredToken _ => "PY0011"
  | .tryWithoutHandlers => "PY0012"
  | .unexpectedEnd => "PY0013"
  | .invalidCharacter => "PY0014"
  | .nonDefaultAfterDefault => "PY0015"
  | .nestingTooDeep => "PY0016"
  | .positionalAfterKeyword => "PY0017"
  | .unpackingAfterKeywordUnpacking => "PY0018"

/-- The message for a cause when the given token was involved. -/
def message (token : Option TokenKind) : SyntaxCause → String
  | .expected construct => "expected " ++ construct
  | .invalidAssignmentTarget => "invalid assignment target"
  | .inconsistentDedent => "unindent does not match any outer indentation level"
  | .inconsistentTabs => "inconsistent use of tabs and spaces in indentation"
  | .unexpectedIndent => "unexpected indent"
  | .expectedIndentedBlock => "expected an indented block"
  | .unterminatedString => "unterminated string literal"
  | .malformedNumber => "malformed number literal"
  | .unmatchedBracket => "unmatched bracket"
  | .requiredToken kind => "expected token " ++ kind.name
  | .tryWithoutHandlers => "try statement requires an except or finally block"
  | .unexpectedEnd =>
    match token with
    | some kind => "unexpected end before " ++ kind.name
    | none => "unexpected end of input"
  | .invalidCharacter => "invalid character in source"
  | .nonDefaultAfterDefault => "parameter without a default follows parameter with a default"
  | .nestingTooDeep => "too deeply nested"
  | .positionalAfterKeyword => "positional argument follows keyword argument"
  | .unpackingAfterKeywordUnpacking =>
    "iterable argument unpacking follows keyword argument unpacking"

end SyntaxCause

/-- A syntax error: what is wrong, where, and with which kind of token. -/
structure SyntaxError where
  cause : SyntaxCause
  span : Span
  token : Option TokenKind
  deriving DecidableEq, Repr

namespace SyntaxError

/-- The stable code of an error. -/
def code (error : SyntaxError) : String :=
  error.cause.code

/-- The message of an error. -/
def message (error : SyntaxError) : String :=
  error.cause.message error.token

/-- The cause and the token of an error in one line. -/
def summary (error : SyntaxError) : String :=
  let token :=
    match error.token with
    | some kind => "Some(" ++ kind.name ++ ")"
    | none => "None"
  error.cause.description ++ " [token=" ++ token ++ "]"

/-- The summary of an error with its span. -/
def details (error : SyntaxError) : String :=
  error.summary ++ " around loc [" ++ toString error.span.start ++ ":" ++
    toString error.span.stop ++ "]"

/-- Whether two errors have the same cause, wherever they stand. -/
def sameCause (left right : SyntaxError) : Bool :=
  left.cause == right.cause

end SyntaxError

/-- An error that concerns a token. -/
def Token.error (token : Token) (cause : SyntaxCause) : SyntaxError :=
  ⟨cause, token.span, some token.kind⟩

/-- An error that concerns a span and no token in particular. -/
def Span.error (span : Span) (cause : SyntaxCause) : SyntaxError :=
  ⟨cause, span, none⟩

end PythonOutline
