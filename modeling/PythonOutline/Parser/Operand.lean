import PythonOutline.Literal.Basic
import PythonOutline.Parser.Level

/-! # Operands

Atoms and what may follow them: attributes, calls and subscripts, an `await` in front, and a power
with its exponent. A unary operator takes a whole power as its operand, so `-2 ** 2` negates four,
while an exponent may be a unary expression itself.
-/

namespace PythonOutline

namespace Parser

/-- A number literal. -/
def numberLiteral : Parser Expr := do
  let token ← expect .literalNumber
  return ⟨token.span, .number (Literal.numberValue token.text)⟩

/-- What adjacent string literals have brought so far: their texts, last one first, whether they
denote bytes, and whether one of them is formatted. -/
abbrev LiteralParts := List String × Option Bool × Bool

/-- Takes one more string literal, if there is one. -/
abbrev literalStep : LiteralParts → Parser (Step LiteralParts LiteralParts) :=
  fun (texts, bytes, formatted) => do
    unless ← nextIs .literalString do
      return .done (texts.reverse, bytes, formatted)
    let token ← take
    let value := Literal.decode token.text.toList
    if bytes.any (· != value.bytes) then
      throw (token.error (.expected "string literal of the same kind as the previous one"))
    return .next (value.text :: texts, some value.bytes, formatted || value.formatted)

/-- Adjacent string literals, joined into one. Either all of them denote bytes or none does. -/
def stringLiteral : Parser Expr := spanned do
  let start : List String × Option Bool × Bool := ([], none, false)
  let (texts, bytes, formatted) ← iterate start literalStep
  return fun span => ⟨span, .string (String.join texts) (bytes.getD false) formatted⟩

end Parser

namespace Level

open PythonOutline.Parser

/-- A name, a literal or a display. -/
def atom (level : Level) : Parser Expr := do
  let token ← peek
  match token.kind with
  | .identifier =>
    let _ ← take
    return ⟨token.span, .name token.text⟩
  | .literalTrue =>
    let _ ← take
    return ⟨token.span, .boolLiteral true⟩
  | .literalFalse =>
    let _ ← take
    return ⟨token.span, .boolLiteral false⟩
  | .literalNone =>
    let _ ← take
    return ⟨token.span, .noneLiteral⟩
  | .dotDotDot =>
    let _ ← take
    return ⟨token.span, .ellipsis⟩
  | .literalNumber => numberLiteral
  | .literalString => stringLiteral
  | .parenthesisOpen => level.innerParens
  | .bracketOpen => level.innerBrackets
  | .braceOpen => level.innerBraces
  | _ => throw (token.error (.expected "expression"))

/-- Reads an attribute, a call or a subscript behind a value that began at a mark, if
one follows. -/
abbrev trailerStep (level : Level) (start : Nat) (value : Expr) : Parser (Step Expr Expr) := do
  match ← peekKind with
  | .dot =>
    let _ ← take
    let name ← identifier
    return .next ⟨← spanSince start, .attribute value name⟩
  | .parenthesisOpen =>
    let arguments ← level.innerArguments
    return .next ⟨← spanSince start, .call value arguments⟩
  | .bracketOpen =>
    let index ← level.innerIndex
    return .next ⟨← spanSince start, .subscript value index⟩
  | _ => return .done value

/-- An atom followed by any number of attributes, calls and subscripts. -/
def primary (level : Level) : Parser Expr := do
  let start ← mark
  let first ← level.atom
  iterate first (level.trailerStep start)

/-- A primary, possibly awaited. -/
def awaited (level : Level) : Parser Expr := do
  if ← nextIs .keywordAwait then
    spanned do
      let _ ← take
      let value ← level.primary
      return fun span => ⟨span, .await value⟩
  else level.primary

/-- An awaited primary, possibly raised to a power. -/
def power (level : Level) : Parser Expr := do
  let start ← mark
  let left ← level.awaited
  if ← accept .asteriskAsterisk then
    let right ← level.innerFactor
    return ⟨← spanSince start, .binary .exponentiation left right⟩
  else return left

/-- A power behind any number of unary operators. -/
def factor (level : Level) : Parser Expr := do
  match Operator.unary? (← peekKind) with
  | none => level.power
  | some operator =>
    spanned do
      let _ ← take
      let argument ← level.innerFactor
      return fun span => ⟨span, .unary operator argument⟩

end Level

end PythonOutline
