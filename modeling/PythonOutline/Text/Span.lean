/-! # Spans and positions

A span is a pair of byte offsets into a source; a position is the line and column of an offset as
people count them. Lines end at line feeds only. Columns count characters, except that an offset
inside a character is given its distance in bytes from the start of the line.
-/

namespace PythonOutline

/-- A half-open range of byte offsets. Nothing forces `start` to lie before `stop`. -/
structure Span where
  start : Nat
  stop : Nat
  deriving DecidableEq, Repr, Inhabited

namespace Span

/-- The empty span at an offset. -/
def point (offset : Nat) : Span :=
  ⟨offset, offset⟩

/-- Whether the span holds no byte. -/
def isEmpty (span : Span) : Bool :=
  span.stop ≤ span.start

/-- The number of bytes in the span, unless it is reversed. -/
def length? (span : Span) : Option Nat :=
  if span.start ≤ span.stop then some (span.stop - span.start) else none

/-- The least span that covers both. -/
def join (left right : Span) : Span :=
  ⟨min left.start right.start, max left.stop right.stop⟩

/-- The span joined with another one that may be absent. -/
def joinOption (span : Span) (other : Option Span) : Span :=
  match other with
  | none => span
  | some other => span.join other

end Span

/-- A line and a column, both counted from one. -/
structure Position where
  line : Nat
  column : Nat
  deriving DecidableEq, Repr

namespace Position

/-- The position `remaining` bytes into `text`, where `text` continues a line at the given line
number, column and distance in bytes from the line's start (counted from one). -/
def locateFrom (line column byteColumn : Nat) : List Char → (remaining : Nat) → Position
  | [], _ => ⟨line, column⟩
  | c :: cs, remaining =>
    if remaining = 0 then ⟨line, column⟩
    else if remaining < c.utf8Size then ⟨line, byteColumn + remaining⟩
    else if c = '\n' then locateFrom (line + 1) 1 1 cs (remaining - c.utf8Size)
    else
      locateFrom line (column + 1) (byteColumn + c.utf8Size) cs (remaining - c.utf8Size)

/-- The position of a byte offset in a text. Offsets beyond the end are taken for the end. -/
def locate (text : List Char) (offset : Nat) : Position :=
  locateFrom 1 1 1 text offset

end Position

namespace Span

/-- The position of the first byte of a span. -/
def position (span : Span) (source : List Char) : Position :=
  Position.locate source span.start

/-- The line of the first byte of a span. -/
def line (span : Span) (source : List Char) : Nat :=
  (span.position source).line

end Span

end PythonOutline
