import PythonOutline.Text.Alphabetic
import PythonOutline.Text.Numeric

/-! # Character classes of source text

The classes that decide where a token starts and ends: digits by radix, blanks, the letters of a
string prefix, and the two identifier classes. Within ASCII an identifier is made of letters, digits
and underscores; beyond it the Unicode property *Alphabetic* and the numeric categories decide.
-/

namespace PythonOutline.Text

/-- The decimal digits. -/
def decimalDigits : CharSet :=
  CharSet.empty.insertRange '0' '9'

/-- The binary digits. -/
def binaryDigits : CharSet :=
  CharSet.empty.insertRange '0' '1'

/-- The octal digits. -/
def octalDigits : CharSet :=
  CharSet.empty.insertRange '0' '7'

/-- The hexadecimal digits, in either case. -/
def hexDigits : CharSet :=
  ((CharSet.empty.insertRange '0' '9').insertRange 'a' 'f').insertRange 'A' 'F'

/-- The ASCII characters that may start an identifier. -/
def asciiIdentifierStart : CharSet :=
  ((CharSet.empty.insertRange 'a' 'z').insertRange 'A' 'Z').insert '_'

/-- The ASCII characters that may continue an identifier. -/
def asciiIdentifierContinue : CharSet :=
  asciiIdentifierStart.insertRange '0' '9'

/-- The blanks that separate tokens within a line: tab, form feed and space. -/
def blanks : CharSet :=
  ((CharSet.empty.insert '\t').insert '\x0c').insert ' '

/-- The letters a string prefix is made of. -/
def stringPrefixLetters : CharSet :=
  CharSet.empty.insertAll "rRbBuUfF".toList

/-- Whether a character is an ASCII character. -/
def isAscii (c : Char) : Bool :=
  c.toNat < 0x80

/-- Whether a character may start an identifier. -/
def isIdentifierStart (c : Char) : Bool :=
  if isAscii c then asciiIdentifierStart.contains c else isAlphabetic c

/-- Whether a character may continue an identifier. -/
def isIdentifierContinue (c : Char) : Bool :=
  if isAscii c then asciiIdentifierContinue.contains c else isAlphabetic c || isNumeric c

end PythonOutline.Text
