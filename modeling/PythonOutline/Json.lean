/-! # JSON documents

The reports of the program are JSON documents whose fields have a fixed order, so an object is a
list of named values. Numbers are natural numbers only. A document is written compactly on one line,
or indented by two spaces for each level. Strings escape the quote, the backslash and the controls
below the space, and nothing else.
-/

namespace PythonOutline

/-- A JSON document. -/
inductive Json where
  | null
  | bool (value : Bool)
  | num (value : Nat)
  | str (value : String)
  | arr (items : List Json)
  | obj (fields : List (String × Json))
  deriving Inhabited

namespace Json

/-- A hexadecimal digit in lower case. -/
def hexDigit (value : Nat) : Char :=
  if value < 10 then Char.ofNat ('0'.toNat + value) else Char.ofNat ('a'.toNat + (value - 10))

/-- One character as it stands in a JSON string. -/
def escapeChar (c : Char) : String :=
  if c = '"' then "\\\""
  else if c = '\\' then "\\\\"
  else if c = '\x08' then "\\b"
  else if c = '\t' then "\\t"
  else if c = '\n' then "\\n"
  else if c = '\x0c' then "\\f"
  else if c = '\r' then "\\r"
  else if c.toNat < 0x20 then
    "\\u00" ++ String.ofList [hexDigit (c.toNat / 16), hexDigit (c.toNat % 16)]
  else c.toString

/-- Writes a JSON string behind a text. -/
def writeString (out : String) (value : String) : String :=
  (value.toList.foldl (fun out c => out ++ escapeChar c) (out ++ "\"")) ++ "\""

/-- The text of a value that has no parts. -/
def writeBool (out : String) (value : Bool) : String :=
  out ++ if value then "true" else "false"

mutual

/-- Writes a document on one line behind a text. -/
def writeCompact (out : String) : Json → String
  | .null => out ++ "null"
  | .bool value => writeBool out value
  | .num value => out ++ toString value
  | .str value => writeString out value
  | .arr items => writeCompactItems (out ++ "[") "" items ++ "]"
  | .obj fields => writeCompactFields (out ++ "\x7b") "" fields ++ "\x7d"

/-- Writes the items of a list, each behind the text that separates it from the one before. -/
def writeCompactItems (out separator : String) : List Json → String
  | [] => out
  | item :: items => writeCompactItems (writeCompact (out ++ separator) item) "," items

/-- Writes the fields of an object, each behind the text that separates it from the one before. -/
def writeCompactFields (out separator : String) : List (String × Json) → String
  | [] => out
  | (name, value) :: fields =>
    writeCompactFields (writeCompact (writeString (out ++ separator) name ++ ":") value) "," fields

end

/-- The start of a new line at a level of depth. -/
def lineAt (depth : Nat) : String :=
  "\n" ++ String.ofList (List.replicate (2 * depth) ' ')

mutual

/-- Writes an indented document behind a text, at a level of depth. -/
def writeIndented (out : String) (depth : Nat) : Json → String
  | .null => out ++ "null"
  | .bool value => writeBool out value
  | .num value => out ++ toString value
  | .str value => writeString out value
  | .arr [] => out ++ "[]"
  | .arr (item :: items) =>
    writeIndentedItems (writeIndented (out ++ "[" ++ lineAt (depth + 1)) (depth + 1) item) depth
      items ++ lineAt depth ++ "]"
  | .obj [] => out ++ "\x7b\x7d"
  | .obj ((name, value) :: fields) =>
    writeIndentedFields
      (writeIndented (writeString (out ++ "\x7b" ++ lineAt (depth + 1)) name ++ ": ") (depth + 1)
        value) depth fields ++ lineAt depth ++ "\x7d"

/-- Writes the items behind the first one of a list at a level of depth. -/
def writeIndentedItems (out : String) (depth : Nat) : List Json → String
  | [] => out
  | item :: items =>
    writeIndentedItems (writeIndented (out ++ "," ++ lineAt (depth + 1)) (depth + 1) item) depth
      items

/-- Writes the fields behind the first one of an object at a level of depth. -/
def writeIndentedFields (out : String) (depth : Nat) : List (String × Json) → String
  | [] => out
  | (name, value) :: fields =>
    writeIndentedFields
      (writeIndented (writeString (out ++ "," ++ lineAt (depth + 1)) name ++ ": ") (depth + 1)
        value) depth fields

end

/-- A document on one line. -/
def compact (document : Json) : String :=
  writeCompact "" document

/-- A document indented by two spaces for each level. -/
def pretty (document : Json) : String :=
  writeIndented "" 0 document

/-- A text, or null in place of an absent one. -/
def ofText? : Option String → Json
  | none => .null
  | some text => .str text

/-- A list of texts. -/
def ofTexts (texts : List String) : Json :=
  .arr (texts.map .str)

end Json

end PythonOutline
