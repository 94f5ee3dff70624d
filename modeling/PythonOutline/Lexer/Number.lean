import PythonOutline.Text.Class
import PythonOutline.Text.Cursor

/-! # Number literals

A number is written with a radix letter behind a zero, or in decimal with an optional fraction,
exponent and imaginary unit. Single underscores may stand between digits, and one directly behind a
radix letter. A decimal integer has no leading zero unless it is made of zeros only. A scanner
answers the cursor behind the literal, or as its error the cursor where the literal was given up.
-/

namespace PythonOutline

/-- Passes digits of a class with single underscores between them. Answers whether there was a digit
and no underscore out of place, and where the run ends. -/
def scanDigitsFrom (digits : Text.CharSet) (seenDigit lastSeparator : Bool) :
    List Char → (offset : Nat) → Bool × Cursor
  | [], offset => (seenDigit && !lastSeparator, ⟨[], offset⟩)
  | c :: cs, offset =>
    if digits.contains c then scanDigitsFrom digits true false cs (offset + c.utf8Size)
    else if c = '_' ∧ seenDigit ∧ ¬lastSeparator then
      scanDigitsFrom digits true true cs (offset + 1)
    else (seenDigit && !lastSeparator, ⟨c :: cs, offset⟩)

/-- Passes digits of a class that start here. -/
def scanDigits (digits : Text.CharSet) (cursor : Cursor) : Except Cursor Cursor :=
  let (wellFormed, stop) := scanDigitsFrom digits false false cursor.rest cursor.offset
  if wellFormed then .ok stop else .error stop

/-- Passes digits of a class behind a radix letter, where one underscore may come first. -/
def scanRadixDigits (digits : Text.CharSet) (cursor : Cursor) : Except Cursor Cursor :=
  let (wellFormed, stop) :=
    match cursor.rest with
    | '_' :: cs => scanDigitsFrom digits false true cs (cursor.offset + 1)
    | cs => scanDigitsFrom digits false false cs cursor.offset
  if wellFormed then .ok stop else .error stop

/-- Passes decimal digits if there are any. -/
def scanOptionalDigits (cursor : Cursor) : Except Cursor Cursor :=
  if cursor.peek?.any Text.decimalDigits.contains then scanDigits Text.decimalDigits cursor
  else .ok cursor

/-- The digits that a zero and a radix letter announce. -/
def radixDigits? : List Char → Option Text.CharSet
  | '0' :: letter :: _ =>
    if letter = 'x' ∨ letter = 'X' then some Text.hexDigits
    else if letter = 'o' ∨ letter = 'O' then some Text.octalDigits
    else if letter = 'b' ∨ letter = 'B' then some Text.binaryDigits
    else none
  | _ => none

/-- Passes a number that starts with a zero and a radix letter. No letter or digit may follow. -/
def scanRadixNumber (digits : Text.CharSet) (cursor : Cursor) : Except Cursor Cursor := do
  let stop ← scanRadixDigits digits (cursor.advanceBy 2)
  if stop.peek?.any Char.isAlphanum then .error stop.advance else .ok stop

/-- Whether an exponent starts here: its letter, an optional sign, and a digit. -/
def startsExponent : List Char → Bool
  | letter :: c :: cs =>
    (letter = 'e' || letter = 'E') &&
      (c.isDigit || (c = '+' || c = '-') && cs.head?.any Char.isDigit)
  | _ => false

/-- Passes an exponent. -/
def scanExponent (cursor : Cursor) : Except Cursor Cursor :=
  let behindLetter := cursor.advance
  scanDigits Text.decimalDigits
    (if behindLetter.peek? = some '+' ∨ behindLetter.peek? = some '-' then behindLetter.advance
     else behindLetter)

/-- Whether a run of digits and underscores starts with a zero and is not made of zeros only. -/
def hasLeadingZero (digits : List Char) : Bool :=
  digits.head? = some '0' && digits.any fun c => c != '0' && c != '_'

/-- Passes a decimal number: an integer, a float, or either with an imaginary unit. -/
def scanDecimalNumber (cursor : Cursor) : Except Cursor Cursor := do
  let integer ← scanOptionalDigits cursor
  let hasPoint := integer.peek? = some '.'
  let fraction ← if hasPoint then scanOptionalDigits integer.advance else .ok integer
  let hasExponent := startsExponent fraction.rest
  let exponent ← if hasExponent then scanExponent fraction else .ok fraction
  let imaginary := exponent.peek? = some 'j' ∨ exponent.peek? = some 'J'
  let stop := if imaginary then exponent.advance else exponent
  if ¬hasPoint ∧ ¬hasExponent ∧ ¬imaginary ∧ hasLeadingZero (cursor.textTo integer) then .error stop
  else .ok stop

/-- Passes the number literal at a cursor. -/
def scanNumber (cursor : Cursor) : Except Cursor Cursor :=
  match radixDigits? cursor.rest with
  | some digits => scanRadixNumber digits cursor
  | none => scanDecimalNumber cursor

end PythonOutline
