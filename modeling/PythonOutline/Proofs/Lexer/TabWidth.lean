import PythonOutline.Proofs.Lexer.Layout

/-! # One measure of indentation is enough

A line is compared with the innermost level only, and levels are closed by the first measure alone.
But the open levels lie one inside the other in both measures, so a line that is accepted lies
inside or outside of every open level, or is as wide as it, in the one measure as in the other. A
lexer that looks at one of the measures only therefore answers the same tokens. -/

namespace PythonOutline

/-! ## A line and the open levels -/

namespace IndentWidth

variable {levels closed remaining : List IndentWidth} {width level outer : IndentWidth}

/-- Both measures order two widths in the same way. -/
def SameOrder (width level : IndentWidth) : Prop :=
  compare width.tab8 level.tab8 = compare width.tab1 level.tab1

private theorem sameOrder_refl (width : IndentWidth) : width.SameOrder width := by
  simp [SameOrder]

private theorem Inside.sameOrder (hinside : width.Inside level) : width.SameOrder level := by
  rw [SameOrder, Nat.compare_eq_gt.mpr hinside.1, Nat.compare_eq_gt.mpr hinside.2]

private theorem Inside.sameOrder_swap (hinside : level.Inside width) : width.SameOrder level := by
  rw [SameOrder, Nat.compare_eq_lt.mpr hinside.1, Nat.compare_eq_lt.mpr hinside.2]

/-- The innermost level stands in front of all others. -/
theorem stack_eq_cons (levels : List IndentWidth) :
    ∃ outer, stack levels = levels.headD .zero :: outer := by
  cases levels with
  | nil => exact ⟨[], rfl⟩
  | cons level levels => exact ⟨stack levels, rfl⟩

private theorem headD_mem_stack (levels : List IndentWidth) :
    levels.headD .zero ∈ stack levels := by
  obtain ⟨outer, hstack⟩ := stack_eq_cons levels
  rw [hstack]
  exact List.mem_cons_self

/-- The innermost level lies inside all others, so it is ordered against all of them. -/
theorem Nested.headD_sameOrder (hnested : Nested levels) (hlevel : level ∈ stack levels) :
    (levels.headD .zero).SameOrder level := by
  obtain ⟨outer, hstack⟩ := stack_eq_cons levels
  rw [Nested, hstack] at hnested
  rw [hstack] at hlevel
  rcases List.mem_cons.mp hlevel with rfl | houter
  · exact sameOrder_refl _
  · exact ((List.pairwise_cons.mp hnested).1 level houter).sameOrder

/-- Levels that may be closed lie inside those that remain. -/
theorem Nested.inside_of_append (hnested : Nested (closed ++ remaining)) (hlevel : level ∈ closed)
    (houter : outer ∈ stack remaining) : level.Inside outer := by
  rw [Nested, stack, List.append_assoc] at hnested
  exact (List.pairwise_append.mp hnested).2.2 level hlevel outer houter

end IndentWidth

namespace IndentChange

open IndentWidth

variable {levels : List IndentWidth} {width level : IndentWidth} {change : IndentChange}
  {measure : IndentWidth → Nat}

/-- What an accepted line does to the levels: it is as wide as the innermost level, or it lies
inside of it, or it is as wide as a level further out and closes those in front of that one. -/
inductive Accepts : List IndentWidth → IndentWidth → IndentChange → Prop where
  | same {levels : List IndentWidth} : Accepts levels (levels.headD .zero) .same
  | deeper {levels : List IndentWidth} {width : IndentWidth}
      (hinside : width.Inside (levels.headD .zero)) (hroom : levels.length + 1 < maxIndentLevels) :
      Accepts levels width (.deeper (width :: levels))
  | shallower {closed remaining : List IndentWidth} (hclosed : closed ≠ []) :
      Accepts (closed ++ remaining) (remaining.headD .zero)
        (.shallower remaining (closed.length - 1))

/-- A change of indentation is found only for a width that both measures accept. -/
private theorem accepts_of_ok (hchange : IndentChange.of levels width = .ok change) :
    Accepts levels width change := by
  have heq : ∀ {other : IndentWidth}, width.tab8 = other.tab8 → width.tab1 = other.tab1 →
      width = other := by
    obtain ⟨tab8, tab1⟩ := width
    rintro ⟨_, _⟩ rfl rfl
    rfl
  unfold IndentChange.of at hchange
  dsimp only at hchange
  split at hchange
  · rename_i htab8
    split at hchange
    · rename_i htab1
      cases hchange
      exact heq htab8 htab1 ▸ .same
    · cases hchange
  · rename_i hdifferent
    split at hchange
    · rename_i htab8
      split at hchange
      · cases hchange
      · rename_i htab1
        split at hchange
        · cases hchange
        · rename_i hroom
          cases hchange
          exact .deeper ⟨htab8, Nat.lt_of_not_le htab1⟩ (Nat.lt_of_not_le hroom)
    · rename_i hdeeper
      have hinner : width.tab8 < (levels.headD .zero).tab8 := by omega
      have hsplit := List.takeWhile_append_dropWhile
        (p := fun level => decide (width.tab8 < level.tab8)) (l := levels)
      have hclosed : levels.takeWhile (fun level => decide (width.tab8 < level.tab8)) ≠ [] := by
        cases levels with
        | nil => exact absurd hinner (Nat.not_lt_zero _)
        | cons level levels =>
          rw [List.headD_cons] at hinner
          simp [hinner]
      generalize levels.takeWhile _ = closed at hsplit hclosed
      generalize levels.dropWhile _ = remaining at hsplit hchange
      subst hsplit
      split at hchange
      · cases hchange
      · rename_i htab8
        split at hchange
        · cases hchange
        · rename_i htab1
          cases hchange
          rw [heq (Decidable.not_not.mp htab8) (Decidable.not_not.mp htab1), List.length_append,
            Nat.add_sub_cancel_right]
          exact .shallower hclosed

/-- Both measures order an accepted line against every open level in the same way. -/
theorem Accepts.sameOrder (haccepts : Accepts levels width change) (hnested : Nested levels)
    (hlevel : level ∈ stack levels) : width.SameOrder level := by
  cases haccepts with
  | same => exact hnested.headD_sameOrder hlevel
  | deeper hinside =>
    have hdeeper : Nested ([width] ++ levels) := hnested.cons hinside
    exact (hdeeper.inside_of_append List.mem_cons_self hlevel).sameOrder
  | @shallower closed remaining =>
    -- The line is as wide as the level it returns to, which the closed levels lie inside of.
    rw [stack, List.append_assoc] at hlevel
    rcases List.mem_append.mp hlevel with hclosed | hremaining
    · exact (hnested.inside_of_append hclosed (headD_mem_stack remaining)).sameOrder_swap
    · exact (hnested.of_suffix (List.suffix_append closed remaining)).headD_sameOrder hremaining

/-- Compares the indentation of a line with the enclosing levels by one measure alone. -/
def ofMeasure (measure : IndentWidth → Nat) (levels : List IndentWidth) (width : IndentWidth) :
    Except SyntaxCause IndentChange :=
  let current := levels.headD .zero
  if measure width = measure current then .ok .same
  else if measure current < measure width then
    if maxIndentLevels ≤ levels.length + 1 then .error .nestingTooDeep
    else .ok (.deeper (width :: levels))
  else
    let remaining := levels.dropWhile fun level => measure width < measure level
    if measure width ≠ measure (remaining.headD .zero) then .error .inconsistentDedent
    else .ok (.shallower remaining (levels.length - remaining.length - 1))

/-- A measure that is greater for what lies inside tells the same of an accepted line. -/
theorem Accepts.ofMeasure_eq
    (hmeasure : ∀ {inner outer : IndentWidth}, inner.Inside outer → measure outer < measure inner)
    (haccepts : Accepts levels width change) (hnested : Nested levels) :
    ofMeasure measure levels width = .ok change := by
  cases haccepts with
  | same => simp [ofMeasure]
  | deeper hinside hroom =>
    have hlt := hmeasure hinside
    rw [ofMeasure]
    dsimp only
    rw [if_neg (Nat.ne_of_gt hlt), if_pos hlt, if_neg (Nat.not_le.mpr hroom)]
  | @shallower closed remaining hclosed =>
    have hlt : ∀ level ∈ closed, measure (remaining.headD .zero) < measure level :=
      fun level hlevel => hmeasure (hnested.inside_of_append hlevel (headD_mem_stack remaining))
    have hdrop : (closed ++ remaining).dropWhile
        (fun level => decide (measure (remaining.headD .zero) < measure level)) = remaining := by
      rw [List.dropWhile_append_of_pos (by simpa using hlt)]
      cases remaining with
      | nil => rfl
      | cons level remaining => exact List.dropWhile_cons_of_neg (by simp)
    have hhead : measure (remaining.headD .zero) < measure ((closed ++ remaining).headD .zero) := by
      obtain ⟨level, others, rfl⟩ := List.exists_cons_of_ne_nil hclosed
      exact hlt level List.mem_cons_self
    rw [ofMeasure]
    dsimp only
    rw [if_neg (Nat.ne_of_lt hhead), if_neg (Nat.lt_asymm hhead), hdrop, if_neg (fun hne => hne rfl),
      List.length_append, Nat.add_sub_cancel_right]

end IndentChange

namespace Lexer

open IndentWidth

/-! ## Lexers with another rule of indentation -/

section

variable (rule : List IndentWidth → IndentWidth → Except SyntaxCause IndentChange)

/-- Looks at the indentation of the next line as a rule says. -/
def readIndentationBy (lexer : Lexer) : Except LexFailure (Option Token × Lexer) :=
  match LineStart.find lexer.cursor with
  | .none stop => .ok (none, { lexer with cursor := stop, atLineStart := false })
  | .line start width stop =>
    let lexer := { lexer with cursor := stop, atLineStart := false }
    match rule lexer.levels width with
    | .error cause => .error ⟨Span.error ⟨start, stop.offset⟩ cause, stop⟩
    | .ok .same => .ok (none, lexer)
    | .ok (.deeper levels) => .ok (some (.empty .indent stop.offset), { lexer with levels })
    | .ok (.shallower levels extra) =>
      .ok (some (.empty .dedent stop.offset), { lexer with levels, pendingDedents := extra })

/-- Reads the indentation of a line as a rule says, where the lexer stands at the start of one. -/
def readLineStartBy (lexer : Lexer) : Except LexFailure (Option Token × Lexer) :=
  if lexer.atLineStart && lexer.brackets.isEmpty then lexer.readIndentationBy rule
  else .ok (none, lexer)

/-- Reads lines until there is a token, at most `fuel` of them, with their indentation as a rule
says. -/
def readLinesBy : (fuel : Nat) → Lexer → Except LexFailure (Token × Lexer)
  | 0, lexer => .ok (.endOfInput lexer.size, lexer)
  | fuel + 1, lexer => do
    let (change, entered) ← lexer.readLineStartBy rule
    match change with
    | some token => return (token, entered)
    | none =>
      match ← entered.readWithin with
      | (some token, behind) => return (token, behind)
      | (none, behind) => readLinesBy fuel behind

/-- Reads the next token, if the text can be read, with the indentation of lines as a rule says. -/
def readBy (lexer : Lexer) : Except LexFailure (Token × Lexer) :=
  match lexer.pendingDedents with
  | pendingDedents + 1 =>
    .ok (.empty .dedent lexer.cursor.offset, { lexer with pendingDedents })
  | 0 => readLinesBy rule (lexer.size - lexer.cursor.offset + 1) lexer

/-- The next token and the lexer behind it, with the indentation of lines as a rule says. -/
def nextBy (lexer : Lexer) : Token × Lexer :=
  if lexer.failure.isSome then (.endOfInput lexer.size, lexer)
  else
    match lexer.readBy rule with
    | .ok result => result
    | .error failure =>
      (⟨.invalid, failure.error.span, ""⟩,
        { lexer with cursor := failure.stop, failure := some failure.error })

/-- The next tokens up to the end of the input, at most `fuel` of them, with the indentation of
lines as a rule says. -/
def runForBy : (fuel : Nat) → Lexer → List (Token × Lexer)
  | 0, _ => []
  | fuel + 1, lexer =>
    let (token, behind) := lexer.nextBy rule
    if token.kind = .endOfInput then [(token, behind)] else (token, behind) :: runForBy fuel behind

/-- All tokens of a source, each with the lexer behind it, with the indentation of lines as a rule
says. -/
def runBy (source : String) : List (Token × Lexer) :=
  runForBy rule (2 * source.utf8ByteSize + 3) (ofSource source)

end

/-- In the course of one call the lexer compares the width of a line with some levels. Lines without
tokens may come before that line. -/
inductive Examines : Lexer → List IndentWidth → IndentWidth → Prop where
  | here {lexer : Lexer} {start : Nat} {width : IndentWidth} {stop : Cursor}
      (hpending : lexer.pendingDedents = 0)
      (hline : (lexer.atLineStart && lexer.brackets.isEmpty) = true)
      (hfind : LineStart.find lexer.cursor = .line start width stop) :
      Examines lexer lexer.levels width
  | later {lexer entered behind : Lexer} {levels : List IndentWidth} {width : IndentWidth}
      (hstart : lexer.readLineStart = .ok (none, entered))
      (hwithin : entered.readWithin = .ok (none, behind)) (hrest : Examines behind levels width) :
      Examines lexer levels width

variable {rule : List IndentWidth → IndentWidth → Except SyntaxCause IndentChange}
  {lexer : Lexer} {token : Token}

private theorem readLineStartBy_eq (hpending : lexer.pendingDedents = 0)
    (hrule : ∀ levels width, lexer.Examines levels width →
      rule levels width = IndentChange.of levels width) :
    lexer.readLineStartBy rule = lexer.readLineStart := by
  unfold readLineStartBy readLineStart
  split
  · rename_i hline
    unfold readIndentationBy readIndentation
    cases hfind : LineStart.find lexer.cursor with
    | none stop => rfl
    | line start width stop =>
      have hsame := hrule _ _ (.here hpending hline hfind)
      dsimp only
      exact hsame ▸ rfl
  · rfl

/-- A rule that agrees with that of the lexer on what is examined changes nothing. -/
theorem readLinesBy_eq (hpending : lexer.pendingDedents = 0)
    (hrule : ∀ levels width, lexer.Examines levels width →
      rule levels width = IndentChange.of levels width) (fuel : Nat) :
    readLinesBy rule fuel lexer = readLines fuel lexer := by
  induction fuel generalizing lexer with
  | zero => rfl
  | succ fuel ih =>
    rw [readLines_succ, readLinesBy, readLineStartBy_eq hpending hrule]
    cases hstart : lexer.readLineStart with
    | error failure => rfl
    | ok result =>
      obtain ⟨change, entered⟩ := result
      cases change with
      | some token => rfl
      | none =>
        simp only [bind, Except.bind]
        cases hwithin : entered.readWithin with
        | error failure => rfl
        | ok result =>
          obtain ⟨token?, behind⟩ := result
          cases token? with
          | some token => rfl
          | none =>
            have hentered := (readLineStart_weight hstart).2
            have hbehind := (readWithin_weight hwithin (by simp)).2
            exact ih (by omega) fun levels width hexamines =>
              hrule levels width (.later hstart hwithin hexamines)

private theorem nextBy_eq (hrule : ∀ levels width, lexer.Examines levels width →
    rule levels width = IndentChange.of levels width) : lexer.nextBy rule = lexer.next := by
  have hread : lexer.readBy rule = lexer.read := by
    unfold readBy read
    cases hpending : lexer.pendingDedents with
    | succ pendingDedents => rfl
    | zero => exact readLinesBy_eq hpending hrule _
  unfold nextBy next
  exact hread ▸ rfl

private theorem runForBy_eq
    (hrule : ∀ count levels width, (lexer.after count).Examines levels width →
    rule levels width = IndentChange.of levels width) (fuel : Nat) :
    runForBy rule fuel lexer = runFor fuel lexer := by
  induction fuel generalizing lexer with
  | zero => rfl
  | succ fuel ih =>
    have hnext : lexer.nextBy rule = lexer.next := nextBy_eq (hrule 0)
    have hrest : runForBy rule fuel lexer.next.2 = runFor fuel lexer.next.2 :=
      ih fun count => hrule (count + 1)
    rw [runForBy, runFor, hnext]
    dsimp only
    rw [hrest]

/-- With its own rule the lexer is the one that it is. -/
theorem runBy_of (source : String) : runBy IndentChange.of source = run source :=
  runForBy_eq (fun _ _ _ _ => rfl) _

/-! ## What is examined -/

/-- No dedents are due where the width of a line is compared. -/
theorem Examines.pendingDedents_eq {levels : List IndentWidth} {width : IndentWidth}
    (hexamines : lexer.Examines levels width) : lexer.pendingDedents = 0 := by
  induction hexamines with
  | here hpending => exact hpending
  | later hstart hwithin _ ih =>
    have hentered := (readLineStart_weight hstart).2
    have hbehind := (readWithin_weight hwithin (by simp)).2
    omega

private theorem Finds.readLineStart_ok {result : Token × Lexer}
    (hfinds : lexer.Finds (.ok result)) :
    ∃ change entered, lexer.readLineStart = .ok (change, entered) := by
  cases hfinds with
  | level hstart | token hstart | line hstart => exact ⟨_, _, hstart⟩

/-- Where the indentation of a line has been read, its width was accepted. -/
theorem readLineStart_accepts {change : Option Token} {entered : Lexer} {start : Nat}
    {width : IndentWidth} {stop : Cursor}
    (hline : (lexer.atLineStart && lexer.brackets.isEmpty) = true)
    (hfind : LineStart.find lexer.cursor = .line start width stop)
    (hstart : lexer.readLineStart = .ok (change, entered)) :
    ∃ change, IndentChange.of lexer.levels width = .ok change := by
  rw [readLineStart, if_pos hline, readIndentation, hfind] at hstart
  dsimp only at hstart
  cases hchange : IndentChange.of lexer.levels width with
  | ok change => exact ⟨change, rfl⟩
  | error cause =>
    rw [hchange] at hstart
    cases hstart

/-- What is examined in the course of a call that yields a token are nested levels, and a line that
is accepted. -/
theorem Examines.of_eq_ok {result : Token × Lexer} {levels : List IndentWidth} {width : IndentWidth}
    (hexamines : lexer.Examines levels width) (hfinds : lexer.Finds (.ok result))
    (hlayered : lexer.Layered) :
    Nested levels ∧ ∃ change, IndentChange.of levels width = .ok change := by
  induction hexamines with
  | here _ hline hfind =>
    obtain ⟨change, entered, hstart⟩ := hfinds.readLineStart_ok
    exact ⟨hlayered.nested, readLineStart_accepts hline hfind hstart⟩
  | @later lexer entered behind _ _ hstart hwithin hrest ih =>
    obtain ⟨hentered, hline, -, -⟩ := hlayered.readLineStart_none hstart
    have hpending : entered.pendingDedents = 0 := by
      rw [← (readWithin_weight hwithin (by simp)).2, hrest.pendingDedents_eq]
    have hbehind := ((hentered.readWithin_advances hpending hline hwithin).2 rfl).1
    refine ih ?_ hbehind
    cases hfinds with
    | level hlevel =>
      rw [hstart] at hlevel
      cases hlevel
    | token hnone htoken =>
      rw [hstart] at hnone
      cases hnone
      rw [hwithin] at htoken
      cases htoken
    | line hnone hskipped hfinds =>
      rw [hstart] at hnone
      cases hnone
      rw [hwithin] at hskipped
      cases hskipped
      exact hfinds

variable {source : String}

private theorem layered_after (hclean : (Tokens.ofSource source).failure = none) (count : Nat) :
    ((ofSource source).after count).Layered := by
  induction count with
  | zero => exact ofSource_layered source
  | succ count ih =>
    rw [after_succ]
    exact (ih.next_advances (Tokens.reading_after hclean count)
      (Tokens.next_ne_invalid hclean count)).2

/-- In a source without lexical errors all lines that are examined are accepted. -/
theorem Examines.accepts (hclean : (Tokens.ofSource source).failure = none) {count : Nat}
    {levels : List IndentWidth} {width : IndentWidth}
    (hexamines : ((ofSource source).after count).Examines levels width) :
    Nested levels ∧ ∃ change, IndentChange.of levels width = .ok change := by
  have hvalid := Tokens.next_ne_invalid hclean count
  rcases (Tokens.reading_after hclean count).next_finds hvalid with
    ⟨pendingDedents, hpending, -⟩ | ⟨-, hfinds⟩
  · rw [hexamines.pendingDedents_eq] at hpending
    cases hpending
  · exact hexamines.of_eq_ok hfinds (layered_after hclean count)

/-- **The width of a tab does not count.** In a source without lexical errors every line whose
indentation is examined compares with every level that is then open in the same way whether tabs
advance to the next multiple of eight or count as one column. The lexer is the one with the rule that
asks for both. So one that compares the widths of tabs as one column alone answers the same tokens,
and keeps the same levels. -/
theorem run_tabWidth (hclean : (Tokens.ofSource source).failure = none) :
    (∀ {count : Nat} {levels : List IndentWidth} {width : IndentWidth},
      ((ofSource source).after count).Examines levels width →
        ∀ level ∈ stack levels, compare width.tab8 level.tab8 = compare width.tab1 level.tab1) ∧
      runBy IndentChange.of source = run source ∧
      runBy (IndentChange.ofMeasure IndentWidth.tab1) source = run source := by
  refine ⟨?_, runBy_of source, ?_⟩
  · intro count levels width hexamines level hlevel
    obtain ⟨hnested, change, hchange⟩ := hexamines.accepts hclean
    exact (IndentChange.accepts_of_ok hchange).sameOrder hnested hlevel
  · refine runForBy_eq (fun count levels width hexamines => ?_) _
    obtain ⟨hnested, change, hchange⟩ := hexamines.accepts hclean
    rw [hchange]
    exact (IndentChange.accepts_of_ok hchange).ofMeasure_eq And.right hnested

/-- Tabs and blanks, and a form feed, which starts the measure again. -/
theorem run_tabWidth_mixed :
    (Tokens.ofSource "if a:\n\tif b:\n\t  c\n  \x0c\td\ne\n").failure = none ∧
      (runBy (IndentChange.ofMeasure IndentWidth.tab1)
          "if a:\n\tif b:\n\t  c\n  \x0c\td\ne\n").map (·.1.kind) =
        [.keywordIf, .identifier, .colon, .newline, .indent, .keywordIf, .identifier, .colon,
          .newline, .indent, .identifier, .newline, .dedent, .identifier, .newline, .dedent,
          .identifier, .newline, .endOfInput] := by
  have hclean : (Tokens.ofSource "if a:\n\tif b:\n\t  c\n  \x0c\td\ne\n").failure = none := by
    decide +kernel
  refine ⟨hclean, ?_⟩
  rw [(run_tabWidth hclean).2.2]
  decide +kernel

end Lexer

end PythonOutline
