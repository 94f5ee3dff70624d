/-! # Reading bytes as text

Bytes are read as UTF-8 one at a time. After the first byte of a character the machine knows how
many more are owed and which range the next one must lie in; the narrower ranges behind some first
bytes rule out overlong forms, surrogates and code points beyond the last one. The first byte that
fits nowhere is a fault, and so is an end within a character.
-/

namespace PythonOutline.Text

/-- Why a sequence of bytes is not UTF-8. -/
inductive Utf8Fault where
  /-- The `length` bytes from `index` on are the start of no character. -/
  | invalid (length index : Nat)
  /-- The input ends within the character that starts at `index`. -/
  | incomplete (index : Nat)
  deriving DecidableEq, Repr

/-- The wording of a fault. -/
def Utf8Fault.message : Utf8Fault → String
  | .invalid length index =>
    "invalid utf-8 sequence of " ++ toString length ++ " bytes from index " ++ toString index
  | .incomplete index => "incomplete utf-8 byte sequence from index " ++ toString index

/-- A character of which some bytes have been read. -/
structure PartialChar where
  /-- The offset of its first byte. -/
  start : Nat
  /-- The value of the bits read so far. -/
  code : Nat
  /-- How many bytes have been read. -/
  read : Nat
  /-- How many bytes are owed behind the next one. -/
  owed : Nat
  /-- The least value the next byte may have. -/
  low : Nat
  /-- The greatest value the next byte may have. -/
  high : Nat

/-- The character that starts with a byte above the ASCII range, if there is one. -/
def PartialChar.ofLead? (start byte : Nat) : Option PartialChar :=
  if byte < 0xC2 then none
  else if byte ≤ 0xDF then some ⟨start, byte - 0xC0, 1, 0, 0x80, 0xBF⟩
  else if byte = 0xE0 then some ⟨start, byte - 0xE0, 1, 1, 0xA0, 0xBF⟩
  else if byte = 0xED then some ⟨start, byte - 0xE0, 1, 1, 0x80, 0x9F⟩
  else if byte ≤ 0xEF then some ⟨start, byte - 0xE0, 1, 1, 0x80, 0xBF⟩
  else if byte = 0xF0 then some ⟨start, byte - 0xF0, 1, 2, 0x90, 0xBF⟩
  else if byte ≤ 0xF3 then some ⟨start, byte - 0xF0, 1, 2, 0x80, 0xBF⟩
  else if byte = 0xF4 then some ⟨start, byte - 0xF0, 1, 2, 0x80, 0x8F⟩
  else none

/-- Reads the bytes from `index` on, behind the characters of `done` (last one first) and within
`started` if a character has been started. -/
def decodeFrom (index : Nat) (done : List Char) (started : Option PartialChar) :
    List UInt8 → Except Utf8Fault (List Char)
  | [] =>
    match started with
    | none => .ok done.reverse
    | some current => .error (.incomplete current.start)
  | byte :: bytes =>
    let value := byte.toNat
    match started with
    | none =>
      if value < 0x80 then decodeFrom (index + 1) (Char.ofNat value :: done) none bytes
      else
        match PartialChar.ofLead? index value with
        | none => .error (.invalid 1 index)
        | some current => decodeFrom (index + 1) done (some current) bytes
    | some current =>
      if current.low ≤ value && value ≤ current.high then
        let code := current.code * 64 + (value - 0x80)
        match current.owed with
        | 0 => decodeFrom (index + 1) (Char.ofNat code :: done) none bytes
        | owed + 1 =>
          decodeFrom (index + 1) done
            (some ⟨current.start, code, current.read + 1, owed, 0x80, 0xBF⟩) bytes
      else .error (.invalid current.read current.start)

/-- Reads bytes as UTF-8. -/
def decodeUtf8 (bytes : List UInt8) : Except Utf8Fault (List Char) :=
  decodeFrom 0 [] none bytes

end PythonOutline.Text
