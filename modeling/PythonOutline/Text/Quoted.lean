import PythonOutline.Text.Invisible

/-! # Quoted text

How a text is shown inside a description: between double quotes, with the quote, the backslash and
the common controls written as two-character escapes, and every other character that shows nothing
of its own written by its code point.
-/

namespace PythonOutline.Text

/-- A code point as its escape in lower-case hexadecimal digits. -/
def escapeCode (c : Char) : String :=
  "\\u\x7b" ++ String.ofList (Nat.toDigits 16 c.toNat) ++ "\x7d"

/-- One character as it stands between the quotes. -/
def escapeQuoted (c : Char) : String :=
  if c = '"' then "\\\""
  else if c = '\\' then "\\\\"
  else if c = '\t' then "\\t"
  else if c = '\r' then "\\r"
  else if c = '\n' then "\\n"
  else if c = '\x00' then "\\0"
  else if isInvisible c then escapeCode c
  else c.toString

/-- A text between double quotes, with escapes. -/
def quoted (text : String) : String :=
  "\"" ++ text.toList.foldl (fun shown c => shown ++ escapeQuoted c) "" ++ "\""

end PythonOutline.Text
