import PythonOutline.SyntaxError
import PythonOutline.Text.Cursor

/-! # Indentation

The leading blanks of a line are measured twice: with tabs advancing to the next multiple of eight,
and with tabs counting as one column. Both measures must order a line against every enclosing level
in the same way, so that the block structure does not hang on the width of a tab. A form feed starts
the measure again.

The enclosing levels are kept innermost first, without the level zero of the module itself, which is
always there.
-/

namespace PythonOutline

/-- The width of the blanks at the start of a line. -/
structure IndentWidth where
  /-- The width with tabs advancing to the next multiple of eight. -/
  tab8 : Nat
  /-- The width with tabs counting as one column. -/
  tab1 : Nat
  deriving DecidableEq, Repr

namespace IndentWidth

/-- The width of no blanks, and of the module level. -/
def zero : IndentWidth :=
  ⟨0, 0⟩

/-- The width with one more space. -/
def addSpace (width : IndentWidth) : IndentWidth :=
  ⟨width.tab8 + 1, width.tab1 + 1⟩

/-- The width with one more tab. -/
def addTab (width : IndentWidth) : IndentWidth :=
  ⟨(width.tab8 / 8 + 1) * 8, width.tab1 + 1⟩

end IndentWidth

/-- How far the indentation of a line lies from the innermost enclosing level. -/
inductive IndentChange where
  /-- The line continues the innermost level. -/
  | same
  /-- The line opens a level inside the given ones. -/
  | deeper (levels : List IndentWidth)
  /-- The line closes `extra + 1` levels and continues the innermost of the remaining ones. -/
  | shallower (levels : List IndentWidth) (extra : Nat)

/-- The number of levels that may be open at once, the module level included. -/
def maxIndentLevels : Nat := 100

/-- Compares the indentation of a line with the enclosing levels. -/
def IndentChange.of (levels : List IndentWidth) (width : IndentWidth) :
    Except SyntaxCause IndentChange :=
  let current := levels.headD .zero
  if width.tab8 = current.tab8 then
    if width.tab1 = current.tab1 then .ok .same else .error .inconsistentTabs
  else if current.tab8 < width.tab8 then
    if width.tab1 ≤ current.tab1 then .error .inconsistentTabs
    else if maxIndentLevels ≤ levels.length + 1 then .error .nestingTooDeep
    else .ok (.deeper (width :: levels))
  else
    let remaining := levels.dropWhile fun level => width.tab8 < level.tab8
    let target := remaining.headD .zero
    if width.tab8 ≠ target.tab8 then .error .inconsistentDedent
    else if width.tab1 ≠ target.tab1 then .error .inconsistentTabs
    else .ok (.shallower remaining (levels.length - remaining.length - 1))

/-- What follows a line break once blank lines and comment lines are left out. -/
inductive LineStart where
  /-- Nothing does: the input ends at the cursor. -/
  | none (stop : Cursor)
  /-- A line that starts at an offset, whose blanks have a width and end at the cursor. -/
  | line (start : Nat) (width : IndentWidth) (stop : Cursor)

/-- Looks for the first line that holds more than blanks and a comment. The current line starts at
`start` and its blanks measure `width` so far; `inComment` holds behind a comment sign. -/
def LineStart.findFrom (inComment : Bool) (start : Nat) (width : IndentWidth) :
    List Char → (offset : Nat) → LineStart
  | [], offset => .none ⟨[], offset⟩
  | c :: cs, offset =>
    if c = '\n' ∨ c = '\r' then findFrom false (offset + 1) .zero cs (offset + 1)
    else if inComment then findFrom true start width cs (offset + c.utf8Size)
    else if c = ' ' then findFrom false start width.addSpace cs (offset + 1)
    else if c = '\t' then findFrom false start width.addTab cs (offset + 1)
    else if c = '\x0c' then findFrom false start .zero cs (offset + 1)
    else if c = '#' then findFrom true start width cs (offset + 1)
    else .line start width ⟨c :: cs, offset⟩

/-- Looks for the first line at or behind a cursor that holds more than blanks and a comment. -/
def LineStart.find (cursor : Cursor) : LineStart :=
  findFrom false cursor.offset .zero cursor.rest cursor.offset

end PythonOutline
