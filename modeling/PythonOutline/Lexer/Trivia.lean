import PythonOutline.SyntaxError
import PythonOutline.Text.Class
import PythonOutline.Text.Cursor

/-! # Text between tokens

Blanks, comments and backslash line joins separate tokens and mean nothing. Within brackets line
breaks mean nothing either. A backslash must be directly followed by a line break.
-/

namespace PythonOutline

/-- A place where the text could not be read, with how far reading got. -/
structure LexFailure where
  error : SyntaxError
  stop : Cursor

/-- Moves behind everything that separates tokens. `inBrackets` says whether a bracket is open,
`inComment` whether the text continues a comment. -/
def skipTriviaFrom (inBrackets inComment : Bool) :
    List Char → (offset : Nat) → Except LexFailure Cursor
  | [], offset => .ok ⟨[], offset⟩
  | c :: cs, offset =>
    if c = '\n' ∨ c = '\r' then
      if inBrackets then skipTriviaFrom inBrackets false cs (offset + 1) else .ok ⟨c :: cs, offset⟩
    else if inComment then skipTriviaFrom inBrackets true cs (offset + c.utf8Size)
    else if Text.blanks.contains c then skipTriviaFrom inBrackets false cs (offset + c.utf8Size)
    else if c = '#' then skipTriviaFrom inBrackets true cs (offset + 1)
    else if c = '\\' then
      match cs with
      | '\r' :: '\n' :: after => skipTriviaFrom inBrackets false after (offset + 3)
      | '\r' :: after => skipTriviaFrom inBrackets false after (offset + 2)
      | '\n' :: after => skipTriviaFrom inBrackets false after (offset + 2)
      | [] => .error ⟨Span.error ⟨offset, offset + 1⟩ .unexpectedEnd, ⟨[], offset + 1⟩⟩
      | _ => .error ⟨Span.error ⟨offset, offset + 1⟩ .invalidCharacter, ⟨cs, offset + 1⟩⟩
    else .ok ⟨c :: cs, offset⟩

/-- Moves behind the blanks, comments and line joins at a cursor, and within brackets behind line
breaks too. -/
def skipTrivia (inBrackets : Bool) (cursor : Cursor) : Except LexFailure Cursor :=
  skipTriviaFrom inBrackets false cursor.rest cursor.offset

end PythonOutline
