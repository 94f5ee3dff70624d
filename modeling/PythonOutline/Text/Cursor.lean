import PythonOutline.Text.Utf8

/-! # Reading positions

A cursor is the text that is still to be read together with the byte offset it starts at. Every
scanner takes a cursor to a later one, so that the text it passed over is the difference of the two.
-/

namespace PythonOutline

/-- The unread part of a text and the byte offset where it starts. -/
structure Cursor where
  rest : List Char
  offset : Nat
  deriving Repr, Inhabited

namespace Cursor

/-- The first unread character. -/
def peek? (cursor : Cursor) : Option Char :=
  cursor.rest.head?

/-- Moves behind the longest run of characters of a class. -/
def skipRun (inClass : Char → Bool) : List Char → Nat → Cursor
  | [], offset => ⟨[], offset⟩
  | c :: cs, offset =>
    if inClass c then skipRun inClass cs (offset + c.utf8Size) else ⟨c :: cs, offset⟩

/-- Moves behind the longest run of characters of a class. -/
def skipWhile (cursor : Cursor) (inClass : Char → Bool) : Cursor :=
  skipRun inClass cursor.rest cursor.offset

/-- Moves behind the next character, if there is one. -/
def advance : Cursor → Cursor
  | ⟨[], offset⟩ => ⟨[], offset⟩
  | ⟨c :: cs, offset⟩ => ⟨cs, offset + c.utf8Size⟩

/-- Moves behind the next `count` characters, or to the end. -/
def advanceBy (cursor : Cursor) : (count : Nat) → Cursor
  | 0 => cursor
  | count + 1 => cursor.advance.advanceBy count

/-- Moves behind one line break, if there is one here: a line feed, a carriage return, or the two
together. -/
def skipLineBreak? : Cursor → Option Cursor
  | ⟨'\r' :: '\n' :: cs, offset⟩ => some ⟨cs, offset + 2⟩
  | ⟨'\n' :: cs, offset⟩ => some ⟨cs, offset + 1⟩
  | ⟨'\r' :: cs, offset⟩ => some ⟨cs, offset + 1⟩
  | _ => none

/-- The text between this cursor and a later one. -/
def textTo (cursor later : Cursor) : List Char :=
  (Text.takeBytes? (later.offset - cursor.offset) cursor.rest).getD []

end Cursor

end PythonOutline
