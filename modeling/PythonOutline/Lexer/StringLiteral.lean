import PythonOutline.Text.Class
import PythonOutline.Text.Cursor

/-! # The extent of string literals

A string literal ends at its closing quotes. A backslash keeps the next character from ending it,
in raw literals too. In a formatted literal a brace opens a replacement field, whose expression may
hold brackets and further literals with any quotes, and whose format specification may hold further
fields. The scanner therefore keeps a stack of modes, innermost first, and is done when it is empty.

`StringMode.step` decides about one character; `scanStringFrom` only repeats it. The lexer itself runs
`scanLiteral`, which searches the bytes of a literal that is not formatted for the next one that may
mean something, and takes a step only there.
-/

namespace PythonOutline

/-- The string prefixes in lower case. The prefix `u` combines with nothing. -/
def stringPrefixes : List (List Char) :=
  ["r".toList, "u".toList, "b".toList, "f".toList, "br".toList, "rb".toList, "fr".toList,
    "rf".toList]

/-- Whether a word is a string prefix in any mixture of cases. -/
def isStringPrefix (word : List Char) : Bool :=
  word.all Text.stringPrefixLetters.contains && stringPrefixes.contains (word.map Char.toLower)

/-- Whether a string prefix announces a formatted literal. -/
def announcesFormatted (word : List Char) : Bool :=
  word.contains 'f' || word.contains 'F'

/-- Whether a character is a quote. -/
def isQuote (c : Char) : Bool :=
  c = '"' || c = '\''

/-- The construct that a character inside a string literal belongs to. -/
inductive StringMode where
  /-- Literal text between quotes. -/
  | text (quote : Char) (triple formatted : Bool)
  /-- The expression of a replacement field, with the number of its open brackets and the word being
  read, last letter first. -/
  | field (brackets : Nat) (word : List Char)
  /-- The format specification of a replacement field. -/
  | formatSpec
  deriving DecidableEq, Repr

namespace StringMode

/-- The start of a replacement field. -/
def openField : StringMode :=
  .field 0 []

/-- The mode behind an opening quote, and how many further quotes belong to it, where `following` is
the text behind the quote. -/
def openText (quote : Char) (formatted : Bool) (following : List Char) : StringMode × Nat :=
  if [quote, quote].isPrefixOf following then (.text quote true formatted, 2)
  else (.text quote false formatted, 0)

/-- What one character does: how many of the following characters it takes along, and the modes
behind it. There is no answer where a line ends within single quotes. -/
def step (mode : StringMode) (outer : List StringMode) (c : Char) (following : List Char) :
    Option (Nat × List StringMode) :=
  match mode with
  | .text quote triple formatted =>
    if c = '\\' then some (1, mode :: outer)
    else if c = '\n' ∧ ¬triple then none
    else if formatted ∧ (c = '\x7b' ∨ c = '\x7d') then
      if following.head? = some c then some (1, mode :: outer)
      else if c = '\x7b' then some (0, openField :: mode :: outer)
      else some (0, mode :: outer)
    else if c = quote then
      if ¬triple then some (0, outer)
      else if [quote, quote].isPrefixOf following then some (2, outer)
      else some (0, mode :: outer)
    else some (0, mode :: outer)
  | .field brackets word =>
    if ¬word.isEmpty ∧ Text.isIdentifierContinue c then
      some (0, .field brackets (c :: word) :: outer)
    else if isQuote c then
      let formatted := isStringPrefix word.reverse && announcesFormatted word
      let (inner, further) := openText c formatted following
      some (further, inner :: .field brackets [] :: outer)
    else if Text.isIdentifierStart c then some (0, .field brackets [c] :: outer)
    else if c = '(' ∨ c = '[' ∨ c = '\x7b' then some (0, .field (brackets + 1) [] :: outer)
    else if brackets > 0 ∧ (c = ')' ∨ c = ']' ∨ c = '\x7d') then
      some (0, .field (brackets - 1) [] :: outer)
    else if c = '\x7d' then some (0, outer)
    else if c = ':' ∧ brackets = 0 then some (0, .formatSpec :: outer)
    else if c = '\\' then some (1, .field brackets [] :: outer)
    else some (0, .field brackets [] :: outer)
  | .formatSpec =>
    if c = '\x7b' then some (0, openField :: mode :: outer)
    else if c = '\x7d' then some (0, outer)
    else if c = '\\' then some (1, mode :: outer)
    else some (0, mode :: outer)

end StringMode

/-- How the scan of a string literal ends. -/
inductive StringScan where
  /-- Behind the closing quotes. -/
  | closed (stop : Cursor)
  /-- At the end of the input, or of a line that the literal cannot span. -/
  | unterminated (stop : Cursor)

/-- Passes `skip` characters, and then the text that the modes belong to. -/
def scanStringFrom : (skip : Nat) → List StringMode → List Char → (offset : Nat) → StringScan
  | 0, [], cs, offset => .closed ⟨cs, offset⟩
  | _, _, [], offset => .unterminated ⟨[], offset⟩
  | skip + 1, modes, c :: cs, offset => scanStringFrom skip modes cs (offset + c.utf8Size)
  | 0, mode :: outer, c :: cs, offset =>
    match mode.step outer c cs with
    | none => .unterminated ⟨c :: cs, offset⟩
    | some (skip, modes) => scanStringFrom skip modes cs (offset + c.utf8Size)

/-- Passes a string literal from its opening quote on. -/
def scanString (formatted : Bool) (cursor : Cursor) : StringScan :=
  match cursor.rest with
  | [] => .unterminated cursor
  | quote :: cs =>
    let (mode, further) := StringMode.openText quote formatted cs
    scanStringFrom further [mode] cs (cursor.offset + quote.utf8Size)

namespace StringMode

/-- Whether a byte may end a run of text that means nothing between quotes. -/
def endsRun (quote : Char) (byte : UInt8) : Bool :=
  byte = '\\'.toUInt8 || byte = '\n'.toUInt8 || byte = quote.toUInt8

/-- The quote that ends the run of text which a character starts, in a literal that is not
formatted. Only an ASCII character can be searched for as a byte. -/
def runQuote? : StringMode → Char → Option Char
  | .text quote _ false, c =>
    if Text.isAscii quote ∧ c ≠ '\\' ∧ c ≠ '\n' ∧ c ≠ quote then some quote else none
  | _, _ => none

/-- How many bytes are passed from a character on, and the modes behind them: a run of text as a
whole, and everything else by one step. -/
def stride (mode : StringMode) (outer : List StringMode) (c : Char) (following : List Char) :
    Option (Nat × List StringMode) :=
  match mode.runQuote? c with
  | some quote => some (Text.bytesBefore (endsRun quote) (c :: following), mode :: outer)
  | none =>
    (mode.step outer c following).map fun (further, modes) =>
      (Text.byteLength (c :: following.take further), modes)

end StringMode

/-- Passes `due` bytes, and then the text that the modes belong to, one stride after the other.
There is no answer where the bytes of a stride end within a character or behind the text. -/
def scanLiteralFrom : (due : Nat) → List StringMode → List Char → (offset : Nat) → Option StringScan
  | 0, [], cs, offset => some (.closed ⟨cs, offset⟩)
  | 0, _ :: _, [], offset => some (.unterminated ⟨[], offset⟩)
  | _ + 1, _, [], _ => none
  | due + 1, modes, c :: cs, offset =>
    if c.utf8Size ≤ due + 1 then
      scanLiteralFrom (due + 1 - c.utf8Size) modes cs (offset + c.utf8Size)
    else none
  | 0, mode :: outer, c :: cs, offset =>
    match mode.stride outer c cs with
    | none => some (.unterminated ⟨c :: cs, offset⟩)
    | some (due, modes) =>
      if c.utf8Size ≤ due then
        scanLiteralFrom (due - c.utf8Size) modes cs (offset + c.utf8Size)
      else none

/-- Passes a string literal from its opening quote on, in strides. -/
def scanLiteral (formatted : Bool) (cursor : Cursor) : Option StringScan :=
  match cursor.rest with
  | [] => some (.unterminated cursor)
  | quote :: cs =>
    let (mode, further) := StringMode.openText quote formatted cs
    scanLiteralFrom (Text.byteLength (cs.take further)) [mode] cs
      (cursor.offset + quote.utf8Size)

end PythonOutline
