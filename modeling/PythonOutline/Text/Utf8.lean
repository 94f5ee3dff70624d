/-! # Byte offsets into text

A text is a list of characters, but every position that is reported or stored is a byte offset into
its UTF-8 form. This module measures texts in bytes and cuts them at byte offsets. A cut succeeds
exactly at a character boundary, so an offset into the middle of a character is never rounded
silently; `cut` is the one place that rounds, and it rounds down.
-/

namespace PythonOutline.Text

/-- The length of a text in UTF-8 bytes. -/
def byteLength : List Char → Nat
  | [] => 0
  | c :: cs => c.utf8Size + byteLength cs

/-- The first `n` bytes of a text, if they end at a character boundary. -/
def takeBytes? : Nat → List Char → Option (List Char)
  | 0, _ => some []
  | _ + 1, [] => none
  | n + 1, c :: cs =>
    if c.utf8Size ≤ n + 1 then (takeBytes? (n + 1 - c.utf8Size) cs).map (c :: ·) else none

/-- The text behind the first `n` bytes, if they end at a character boundary. -/
def dropBytes? : Nat → List Char → Option (List Char)
  | 0, cs => some cs
  | _ + 1, [] => none
  | n + 1, c :: cs =>
    if c.utf8Size ≤ n + 1 then dropBytes? (n + 1 - c.utf8Size) cs else none

/-- The text between two byte offsets, if both are character boundaries in the right order. -/
def slice? (text : List Char) (start stop : Nat) : Option (List Char) :=
  if start ≤ stop then (dropBytes? start text).bind (takeBytes? (stop - start)) else none

/-- The text between two byte offsets, and nothing where `slice?` has no answer. -/
def slice (text : List Char) (start stop : Nat) : List Char :=
  (slice? text start stop).getD []

/-- The number of bytes of a text in front of the first byte of a class, or of the whole text where
it has none. -/
def bytesBefore (inClass : UInt8 → Bool) : List Char → Nat
  | [] => 0
  | c :: cs =>
    match (String.utf8EncodeChar c).findIdx? inClass with
    | some index => index
    | none => c.utf8Size + bytesBefore inClass cs

/-- Cuts a text at the last character boundary that lies at most `n` bytes behind the characters of
`passed`, which come last one first. -/
def cutFrom (passed : List Char) : List Char → (n : Nat) → List Char × List Char
  | [], _ => (passed.reverse, [])
  | c :: cs, n =>
    if c.utf8Size ≤ n then cutFrom (c :: passed) cs (n - c.utf8Size) else (passed.reverse, c :: cs)

/-- Cuts a text at the last character boundary at or before an offset. -/
def cut (text : List Char) (offset : Nat) : List Char × List Char :=
  cutFrom [] text offset

end PythonOutline.Text
