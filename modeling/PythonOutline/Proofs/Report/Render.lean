import PythonOutline.Parser.Module
import PythonOutline.Proofs.Report.Slices

/-! # What a report shows

A report shows the line that its error starts on, and its first caret stands below the start of the
error. There are as many carets as characters of the line belong to the error, which are fewer than
the columns that these take if there are tabs among them. -/

namespace PythonOutline.Report

open PythonOutline.Text

/-! ## Rows -/

/-- The rows of a report. Behind the line feed of the last row stands an empty one. -/
def rows (report : String) : List (List Char) :=
  report.toList.splitOn '\n'

private theorem toList_run (count : Nat) (c : Char) :
    (run count c).toList = List.replicate count c := by
  rw [run, String.toList_ofList]

private theorem lineFeed_not_mem_digits (number : Nat) : '\n' ∉ Nat.toDigits 10 number := by
  intro hmem
  have hdigit := Nat.isDigit_of_mem_toDigits (by decide) (by decide) hmem
  exact absurd hdigit (by decide)

private theorem lineFeed_not_mem_code (cause : SyntaxCause) : '\n' ∉ cause.code.toList := by
  cases cause <;> (rw [SyntaxCause.code]; decide)

private theorem length_expandTabs (text : List Char) :
    (expandTabs text).length = text.length + text.count '\t' := by
  induction text with
  | nil => rfl
  | cons c cs ih =>
    rw [expandTabs] at *
    rw [List.flatMap_cons, List.length_append, ih]
    by_cases hc : c = '\t'
    · simp [hc]
      omega
    · simp [hc]
      omega

private theorem lineFeed_not_mem_expandTabs {text : List Char} (htext : '\n' ∉ text) :
    '\n' ∉ expandTabs text := by
  intro hmem
  obtain ⟨c, hc, hexpanded⟩ := List.mem_flatMap.mp hmem
  split at hexpanded
  · simp at hexpanded
  · obtain rfl := List.mem_singleton.mp hexpanded
    exact htext hc

/-- The row that shows a line. -/
def lineRow (number : Nat) (shown : List Char) : List Char :=
  (toString number).toList ++ ([' ', '|', ' '] ++ expandTabs shown)

/-- What stands in front of the carets: a margin as wide as that of the line, and spaces. -/
def caretMargin (number spaces : Nat) : List Char :=
  List.replicate (toString number).length ' ' ++ ([' ', '|', ' '] ++ List.replicate spaces ' ')

/-- The characters of a report, row by row. -/
private theorem toList_layout (name : String) (error : SyntaxError) (position : Position)
    (shown : List Char) (spaces carets : Nat) :
    (layout name error position shown spaces carets).toList =
      ("error[" ++ error.code ++ "]: " ++ error.message).toList ++ '\n' ::
      ((" --> " ++ name ++ ":" ++ toString position.line ++ ":" ++
          toString position.column).toList ++ '\n' ::
      ((run (toString position.line).length ' ' ++ " |").toList ++ '\n' ::
      (lineRow position.line shown ++ '\n' ::
      ((caretMargin position.line spaces ++ List.replicate carets '^') ++ '\n' :: [])))) := by
  have hfeed : "\n".toList = ['\n'] := rfl
  have hbar : " | ".toList = [' ', '|', ' '] := rfl
  have hgutter : " |\n".toList = " |".toList ++ ['\n'] := by simp
  unfold layout lineRow caretMargin
  simp only [String.toList_append, toList_run, String.toList_ofList]
  simp only [hfeed, hbar, hgutter]
  simp only [List.append_assoc, List.cons_append, List.nil_append]

/-- A report has five rows. -/
theorem rows_layout {name : String} {error : SyntaxError} {position : Position} {shown : List Char}
    {spaces carets : Nat} (hname : '\n' ∉ name.toList) (hmessage : '\n' ∉ error.message.toList)
    (hshown : '\n' ∉ shown) :
    rows (layout name error position shown spaces carets) =
      [("error[" ++ error.code ++ "]: " ++ error.message).toList,
        (" --> " ++ name ++ ":" ++ toString position.line ++ ":" ++
          toString position.column).toList,
        (run (toString position.line).length ' ' ++ " |").toList, lineRow position.line shown,
        caretMargin position.line spaces ++ List.replicate carets '^', []] := by
  have hcode : '\n' ∉ error.code.toList := lineFeed_not_mem_code error.cause
  have hline := lineFeed_not_mem_digits position.line
  have hcolumn := lineFeed_not_mem_digits position.column
  have hexpanded := lineFeed_not_mem_expandTabs hshown
  rw [rows, toList_layout, List.splitOn_append_cons_self_of_not_mem,
    List.splitOn_append_cons_self_of_not_mem, List.splitOn_append_cons_self_of_not_mem,
    List.splitOn_append_cons_self_of_not_mem, List.splitOn_append_cons_self_of_not_mem,
    List.splitOn_nil]
  · simp [caretMargin]
  · simp [lineRow, hline, hexpanded]
  · simp [toList_run]
  · simp [hname, hline, hcolumn]
  · simp [hcode, hmessage]

private theorem caret_not_mem_caretMargin (number spaces : Nat) :
    '^' ∉ caretMargin number spaces := by
  simp [caretMargin]

private theorem length_caretMargin (number spaces : Nat) :
    (caretMargin number spaces).length = (toString number).length + 3 + spaces := by
  simp only [caretMargin, List.length_append, List.length_replicate, List.length_cons,
    List.length_nil]
  omega

/-- **A report shows the line of its error.** Whatever the span of the error is, all that the report
needs can be cut out of the source. Its rows are the message, the place, and the line with its
number; below the line the first caret stands in the display column of the start of the error. -/
theorem render_line {name : String} {source : List Char} {error : SyntaxError}
    (hname : '\n' ∉ name.toList) (hmessage : '\n' ∉ error.message.toList) :
    renderSlices? name source error = some (render name source error) ∧
      ∃ line margin carets,
        (source.splitOn '\n')[(error.span.position source).line - 1]? = some line ∧
        rows (render name source error) =
          [("error[" ++ error.code ++ "]: " ++ error.message).toList,
            (" --> " ++ name ++ ":" ++ toString (error.span.position source).line ++ ":" ++
              toString (error.span.position source).column).toList,
            (run (toString (error.span.position source).line).length ' ' ++ " |").toList,
            (toString (error.span.position source).line).toList ++
              ([' ', '|', ' '] ++ expandTabs (withoutReturn line)),
            margin ++ '^' :: carets,
            []] ∧
        '^' ∉ margin ∧
        margin.length = (toString (error.span.position source).line).length + 3 +
          displayColumn source (withoutReturn line) error.span.start := by
  have hat := ShownLine.find_at source error.span.start
  obtain ⟨line, hline, hshown⟩ := hat.exists_line
  obtain ⟨count, hcount⟩ : ∃ count, max (cut (ShownLine.find source error.span.start).after
      (extent source error.span)).1.length 1 = count + 1 := ⟨_, (Nat.succ_pred (by omega)).symm⟩
  refine ⟨renderSlices?_eq name source error, line, _, List.replicate count '^', hline, ?_,
    caret_not_mem_caretMargin (error.span.position source).line
      (displayColumn source (withoutReturn line) error.span.start), length_caretMargin _ _⟩
  rw [render_eq_layout, rows_layout hname hmessage hat.lineFeed_not_mem, hcount, hshown,
    hat.displayColumn_eq, List.replicate_succ]
  rfl

/-- A source of two lines with a tab, a wide character and a carriage return. -/
def wideLine : List Char :=
  ['x', '\n', '\t', 'é', '\r', '\n']

/-- An error that starts inside a wide character and ends in front of it. -/
theorem render_line_wide :
    ('\n' ∉ "m".toList ∧
        '\n' ∉ (⟨.unexpectedIndent, ⟨4, 1⟩, none⟩ : SyntaxError).message.toList) ∧
      ∃ line margin carets, (wideLine.splitOn '\n')[1]? = some line ∧
        (rows (render "m" wideLine ⟨.unexpectedIndent, ⟨4, 1⟩, none⟩))[3]? =
          some (['2', ' ', '|', ' '] ++ expandTabs (withoutReturn line)) ∧
        (rows (render "m" wideLine ⟨.unexpectedIndent, ⟨4, 1⟩, none⟩))[4]? =
          some (margin ++ '^' :: carets) ∧ '^' ∉ margin ∧ margin.length = 6 := by
  have hname : '\n' ∉ "m".toList := by decide
  have hmessage : '\n' ∉ (⟨.unexpectedIndent, ⟨4, 1⟩, none⟩ : SyntaxError).message.toList := by decide
  obtain ⟨-, line, margin, carets, hline, hrows, hmargin, hlength⟩ :=
    @render_line "m" wideLine ⟨.unexpectedIndent, ⟨4, 1⟩, none⟩ hname hmessage
  have hsecond : some line = some ['\t', 'é', '\r'] := hline.symm.trans (by decide)
  cases hsecond
  refine ⟨⟨hname, hmessage⟩, _, margin, carets, hline, by rw [hrows]; rfl, by rw [hrows]; rfl,
    hmargin, hlength.trans (by decide)⟩

/-! ## Carets -/

/-- The last row of a report is that of the carets. -/
theorem getLast?_rows_layout (name : String) (error : SyntaxError) (position : Position)
    (shown : List Char) (spaces carets : Nat) :
    (rows (layout name error position shown spaces carets)).dropLast.getLast? =
      some (caretMargin position.line spaces ++ List.replicate carets '^') := by
  have hlast : '\n' ∉ caretMargin position.line spaces ++ List.replicate carets '^' := by
    simp [caretMargin]
  rw [rows, toList_layout, List.splitOn_append_cons_self, List.splitOn_append_cons_self,
    List.splitOn_append_cons_self, List.splitOn_append_cons_self,
    List.splitOn_append_cons_self_of_not_mem hlast, List.splitOn_nil]
  generalize caretMargin position.line spaces ++ List.replicate carets '^' = row
  simp only [← List.append_assoc]
  rw [List.dropLast_append_of_ne_nil (by simp), List.getLast?_append]
  rfl

private theorem count_caretRow (number spaces carets : Nat) :
    (caretMargin number spaces ++ List.replicate carets '^').count '^' = carets := by
  rw [List.count_append, List.count_eq_zero_of_not_mem (caret_not_mem_caretMargin _ _),
    List.count_replicate_self, Nat.zero_add]

private theorem exists_caretRow (name : String) (source : List Char) (error : SyntaxError) :
    ∃ row, (rows (render name source error)).dropLast.getLast? = some row ∧
      row.count '^' = max (marked source error.span).length 1 := by
  refine ⟨_, by rw [render_eq_layout]; exact getLast?_rows_layout .., ?_⟩
  rw [count_caretRow, marked_eq]

/-- **There is a caret for each marked character.** The last row of a report has as many carets as
there are characters in the part of the error's span that is shown, or one. These are as many as the
columns that the part takes if there is no tab in it, and only then. -/
theorem render_carets (name : String) (source : List Char) (error : SyntaxError) :
    ∃ row, (rows (render name source error)).dropLast.getLast? = some row ∧
      row.count '^' = max (marked source error.span).length 1 ∧
      (row.count '^' = max (expandTabs (marked source error.span)).length 1 ↔
        '\t' ∉ marked source error.span) := by
  obtain ⟨row, hrow, hcount⟩ := exists_caretRow name source error
  refine ⟨row, hrow, hcount, ?_⟩
  rw [hcount, length_expandTabs, ← List.count_eq_zero]
  have hle := @List.count_le_length _ _ '\t' (marked source error.span)
  omega

/-- A literal with a tab, which is no target of an assignment. -/
def tabLiteral : String :=
  "'\t'=1"

/-- The literal takes four columns, but has three carets below it. -/
theorem render_carets_tab :
    ∃ error row, parseModule tabLiteral = .error error ∧
      (rows (render "m" tabLiteral.toList error)).dropLast.getLast? = some row ∧
      row.count '^' = 3 ∧ (expandTabs (marked tabLiteral.toList error.span)).length = 4 := by
  have hparse : (match parseModule tabLiteral with
      | .ok _ => false
      | .error error => error == ⟨.invalidAssignmentTarget, ⟨0, 3⟩, none⟩) = true := by
    decide +kernel
  cases hresult : parseModule tabLiteral with
  | ok =>
    rw [hresult] at hparse
    cases hparse
  | error error =>
    rw [hresult] at hparse
    obtain rfl := beq_iff_eq.mp hparse
    obtain ⟨row, hrow, hcount⟩ := exists_caretRow "m" tabLiteral.toList
      ⟨.invalidAssignmentTarget, ⟨0, 3⟩, none⟩
    exact ⟨_, row, rfl, hrow, hcount.trans (by decide +kernel), by decide +kernel⟩

end PythonOutline.Report
