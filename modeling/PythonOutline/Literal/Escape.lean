import PythonOutline.Text.Class

/-! # Escapes in string literals

A backslash and what follows it stand for another character, or for none in the case of a line
break. Escapes that are not recognised or not complete are kept as they are written. A code point
that is no character is replaced by U+FFFD.
-/

namespace PythonOutline.Literal

/-- The character that stands for a code point that is none. -/
def replacement : Char := '\uFFFD'

/-- The character with a code point, or the replacement if there is none. -/
def charOfCode (code : Nat) : Char :=
  if code.isValidChar then Char.ofNat code else replacement

/-- The value of a hexadecimal digit. -/
def hexValue (c : Char) : Nat :=
  if c.isDigit then c.toNat - '0'.toNat
  else if 'a' ≤ c then c.toNat - 'a'.toNat + 10
  else c.toNat - 'A'.toNat + 10

/-- The value of the first `count` characters of a text, if they are all hexadecimal digits. -/
def leadingHex? (count : Nat) (text : List Char) : Option Nat :=
  let digits := text.take count
  if digits.length = count ∧ digits.all Text.hexDigits.contains then
    some (digits.foldl (fun value c => value * 16 + hexValue c) 0)
  else none

/-- The octal digits at the start of a text, at most `count` of them. -/
def leadingOctal (count : Nat) (text : List Char) : List Char :=
  (text.take count).takeWhile Text.octalDigits.contains

/-- The value of a run of octal digits. -/
def octalValue (digits : List Char) : Nat :=
  digits.foldl (fun value c => value * 8 + (c.toNat - '0'.toNat)) 0

/-- The character that a letter stands for behind a backslash. -/
def letterEscape? : Char → Option Char
  | '\\' => some '\\'
  | '\'' => some '\''
  | '"' => some '"'
  | 'a' => some '\x07'
  | 'b' => some '\x08'
  | 'f' => some '\x0c'
  | 'n' => some '\n'
  | 'r' => some '\r'
  | 't' => some '\t'
  | 'v' => some '\x0b'
  | _ => none

/-- The number of hexadecimal digits behind an escape letter. Byte strings know only the shortest
form. -/
def hexWidth? (bytes : Bool) : Char → Option Nat
  | 'x' => some 2
  | 'u' => if bytes then none else some 4
  | 'U' => if bytes then none else some 8
  | _ => none

/-- What a backslash followed by a character stands for, and how many characters behind that
character belong to the escape. -/
def escape (bytes : Bool) (c : Char) (following : List Char) : List Char × Nat :=
  if c = '\n' then ([], 0)
  else if c = '\r' then ([], if following.head? = some '\n' then 1 else 0)
  else
    match letterEscape? c with
    | some meaning => ([meaning], 0)
    | none =>
      if Text.octalDigits.contains c then
        let digits := leadingOctal 2 following
        ([charOfCode (octalValue (c :: digits))], digits.length)
      else
        match hexWidth? bytes c with
        | none => (['\\', c], 0)
        | some width =>
          match leadingHex? width following with
          | some code => ([charOfCode code], width)
          | none => (['\\', c], 0)

/-- The text that an escaped text stands for, behind `skip` characters that have been dealt with. -/
def unescapeFrom (bytes : Bool) : (skip : Nat) → List Char → List Char
  | _, [] => []
  | skip + 1, _ :: cs => unescapeFrom bytes skip cs
  | 0, c :: cs =>
    if c = '\\' then
      match cs with
      | [] => ['\\']
      | e :: following =>
        let (meaning, taken) := escape bytes e following
        meaning ++ unescapeFrom bytes taken following
    else c :: unescapeFrom bytes 0 cs

/-- The text that an escaped text stands for. -/
def unescape (bytes : Bool) (text : List Char) : List Char :=
  unescapeFrom bytes 0 text

end PythonOutline.Literal
