import PythonOutline.SyntaxError
import PythonOutline.Text.Utf8

/-! # Reports of syntax errors

An error is shown with its code and message, its place, the line it starts on, and carets under the
part of its span that lies on that line. Tabs are shown as two spaces. A span that starts within a
character is taken to start where the character does, and there is always at least one caret.
-/

namespace PythonOutline.Report

/-- A text with each tab shown as two spaces. -/
def expandTabs (text : List Char) : List Char :=
  text.flatMap fun c => if c = '\t' then [' ', ' '] else [c]

/-- A line without the carriage return it may end with. -/
def withoutReturn (line : List Char) : List Char :=
  if line.getLast? = some '\r' then line.dropLast else line

/-- The part of a line that a report shows, cut where an error starts. -/
structure ShownLine where
  /-- The whole line as it stands in the source, without its end. -/
  text : List Char
  /-- The part of it before the error. -/
  before : List Char
  /-- The part of it from the start of the error on. -/
  after : List Char

/-- The line of a source that holds an offset. -/
def ShownLine.find (source : List Char) (offset : Nat) : ShownLine :=
  let (before, after) := Text.cut source offset
  let lineBefore := (before.reverse.takeWhile (· != '\n')).reverse
  let text := withoutReturn (lineBefore ++ after.takeWhile (· != '\n'))
  ⟨text, text.take lineBefore.length, text.drop lineBefore.length⟩

/-- A number of equal characters. -/
def run (count : Nat) (c : Char) : String :=
  String.ofList (List.replicate count c)

/-- The number of bytes from the start of an error, moved back to the start of its character, to its
end. -/
def extent (source : List Char) (span : Span) : Nat :=
  span.stop - Text.byteLength (Text.cut source span.start).1

/-- Shows an error in a source with a name. -/
def render (name : String) (source : List Char) (error : SyntaxError) : String :=
  let position := error.span.position source
  let line := ShownLine.find source error.span.start
  let number := toString position.line
  let gutter := run number.length ' '
  let covered := (Text.cut line.after (extent source error.span)).1
  let carets := max covered.length 1
  "error[" ++ error.code ++ "]: " ++ error.message ++ "\n" ++
  " --> " ++ name ++ ":" ++ number ++ ":" ++ toString position.column ++ "\n" ++
  gutter ++ " |\n" ++
  number ++ " | " ++ String.ofList (expandTabs line.text) ++ "\n" ++
  gutter ++ " | " ++ run (expandTabs line.before).length ' ' ++ run carets '^' ++ "\n"

end PythonOutline.Report
