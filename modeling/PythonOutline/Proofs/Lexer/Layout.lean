import PythonOutline.Proofs.Lexer.Calls

/-! # The layout of a token sequence

Indent, dedent and newline tokens come from several places of the lexer: the start of a line, the
dedents that are still due, and the end of the source. `LayoutStep` says which of them may follow in
a line and at a level, whatever place they come from. Every call of the lexer takes such a step as
long as its state is `Layered`, so the tokens of a source without lexical errors are a sequence of
logical lines in which every level that is opened is closed.
-/

namespace PythonOutline

/-! ## Levels of indentation -/

namespace IndentWidth

/-- Whether a width is the greater one in both measures. -/
def Inside (inner outer : IndentWidth) : Prop :=
  outer.tab8 < inner.tab8 ∧ outer.tab1 < inner.tab1

/-- What lies inside a level lies inside those around it. -/
theorem Inside.trans {inner middle outer : IndentWidth} (hinner : inner.Inside middle)
    (hmiddle : middle.Inside outer) : inner.Inside outer :=
  ⟨Nat.lt_trans hmiddle.1 hinner.1, Nat.lt_trans hmiddle.2 hinner.2⟩

/-- The open levels together with the level of the module, innermost first. -/
def stack (levels : List IndentWidth) : List IndentWidth :=
  levels ++ [.zero]

/-- Whether every level lies inside those around it. -/
def Nested (levels : List IndentWidth) : Prop :=
  (stack levels).Pairwise Inside

variable {levels levels' : List IndentWidth}

/-- A level inside the innermost one keeps the levels nested. -/
theorem Nested.cons {width : IndentWidth} (hnested : Nested levels)
    (hinside : width.Inside (levels.headD .zero)) : Nested (width :: levels) := by
  refine List.pairwise_cons.mpr ⟨?_, hnested⟩
  cases levels with
  | nil => simpa [stack] using hinside
  | cons current levels =>
    have houter := (List.pairwise_cons.mp hnested).1
    intro outer hmem
    rcases List.mem_cons.mp hmem with rfl | hmem
    · exact hinside
    · exact hinside.trans (houter outer hmem)

/-- Closing levels leaves the others nested. -/
theorem Nested.of_suffix (hnested : Nested levels) (hsuffix : levels' <:+ levels) :
    Nested levels' :=
  List.Pairwise.sublist (hsuffix.sublist.append_right _) hnested

end IndentWidth

namespace IndentChange

open IndentWidth

variable {levels levels' : List IndentWidth} {width : IndentWidth}

/-- A level is opened only inside the innermost one, and only as long as there may be one more. -/
theorem nested_of_deeper (hchange : IndentChange.of levels width = .ok (.deeper levels'))
    (hnested : Nested levels) :
    Nested levels' ∧ levels'.length = levels.length + 1 ∧ levels'.length < maxIndentLevels := by
  unfold IndentChange.of at hchange
  dsimp only at hchange
  split at hchange
  · split at hchange <;> cases hchange
  · split at hchange
    · rename_i htab8
      split at hchange
      · cases hchange
      · rename_i htab1
        split at hchange
        · cases hchange
        · rename_i hroom
          cases hchange
          exact ⟨hnested.cons ⟨htab8, Nat.lt_of_not_le htab1⟩, rfl, Nat.lt_of_not_le hroom⟩
    · split at hchange
      · cases hchange
      · split at hchange <;> cases hchange

/-- Levels are closed from the innermost one on. -/
theorem suffix_of_shallower {extra : Nat}
    (hchange : IndentChange.of levels width = .ok (.shallower levels' extra)) :
    levels' <:+ levels := by
  unfold IndentChange.of at hchange
  dsimp only at hchange
  split at hchange
  · split at hchange <;> cases hchange
  · split at hchange
    · split at hchange
      · cases hchange
      · split at hchange <;> cases hchange
    · split at hchange
      · cases hchange
      · split at hchange
        · cases hchange
        · cases hchange
          exact List.dropWhile_suffix _

end IndentChange

/-! ## Steps of a layout -/

/-- Where a token sequence stands: whether the current logical line holds text, and how many levels
are open. -/
structure Layout where
  inLine : Bool
  depth : Nat

/-- What a token does to the line it stands in and to the levels. -/
inductive LayoutStep : Layout → TokenKind → Layout → Prop where
  | indent {depth : Nat} (hroom : depth + 1 < maxIndentLevels) :
      LayoutStep ⟨false, depth⟩ .indent ⟨false, depth + 1⟩
  | dedent {depth : Nat} : LayoutStep ⟨false, depth + 1⟩ .dedent ⟨false, depth⟩
  | text {inLine : Bool} {depth : Nat} {kind : TokenKind} (hkind : kind.IsSolid) :
      LayoutStep ⟨inLine, depth⟩ kind ⟨true, depth⟩
  | newline {depth : Nat} : LayoutStep ⟨true, depth⟩ .newline ⟨false, depth⟩

/-- The kinds of tokens that may follow up to the end of the input. -/
inductive LaidOut : Layout → List TokenKind → Prop where
  | last : LaidOut ⟨false, 0⟩ [.endOfInput]
  | cons {before after : Layout} {kind : TokenKind} {kinds : List TokenKind}
      (hstep : LayoutStep before kind after) (hrest : LaidOut after kinds) :
      LaidOut before (kind :: kinds)

/-- A kind of token that opens or closes a level of indentation. -/
def TokenKind.ChangesLevel (kind : TokenKind) : Prop :=
  kind = .indent ∨ kind = .dedent

/-- Tokens that change the level are not significant. -/
theorem TokenKind.ChangesLevel.not_isSignificant {kind : TokenKind} (hkind : kind.ChangesLevel) :
    ¬kind.isSignificant := by
  rcases hkind with rfl | rfl <;> decide

/-- Logical lines, each with changes of level in front of its text and a newline behind it, and
changes of level in front of the end of the input. -/
inductive LogicalLines : List TokenKind → Prop where
  | last {changes : List TokenKind} (hchanges : ∀ kind ∈ changes, kind.ChangesLevel) :
      LogicalLines (changes ++ [.endOfInput])
  | line {changes text kinds : List TokenKind} (hchanges : ∀ kind ∈ changes, kind.ChangesLevel)
      (htext : text ≠ []) (hsolid : ∀ kind ∈ text, kind.IsSolid) (hrest : LogicalLines kinds) :
      LogicalLines (changes ++ text ++ .newline :: kinds)

variable {place : Layout} {kinds : List TokenKind}

/-- Between lines the level may change. -/
theorem LogicalLines.change {kind : TokenKind} (hlines : LogicalLines kinds)
    (hkind : kind.ChangesLevel) : LogicalLines (kind :: kinds) := by
  cases hlines with
  | last hchanges => exact .last (List.forall_mem_cons.mpr ⟨hkind, hchanges⟩)
  | line hchanges htext hsolid hrest =>
    exact .line (List.forall_mem_cons.mpr ⟨hkind, hchanges⟩) htext hsolid hrest

/-- Logical lines, or in the middle of a line what is left of it and logical lines behind it. -/
def LogicalLinesFrom (inLine : Bool) (kinds : List TokenKind) : Prop :=
  if inLine then
    ∃ text others, kinds = text ++ .newline :: others ∧ (∀ kind ∈ text, kind.IsSolid) ∧
      LogicalLines others
  else LogicalLines kinds

/-- Tokens that are laid out are logical lines. -/
theorem LaidOut.logicalLines (hlaid : LaidOut place kinds) :
    LogicalLinesFrom place.inLine kinds := by
  induction hlaid with
  | last => exact LogicalLines.last (List.forall_mem_nil _)
  | cons hstep _ ih =>
    cases hstep with
    | indent => exact LogicalLines.change ih (.inl rfl)
    | dedent => exact LogicalLines.change ih (.inr rfl)
    | newline => exact ⟨[], _, rfl, by simp, ih⟩
    | @text inLine _ _ hkind =>
      obtain ⟨text, others, rfl, hsolid, hlines⟩ := ih
      have hsolid := List.forall_mem_cons.mpr ⟨hkind, hsolid⟩
      cases inLine with
      | true => exact ⟨_ :: text, others, rfl, hsolid, hlines⟩
      | false => exact LogicalLines.line (List.forall_mem_nil _) (by simp) hsolid hlines

/-! ## Balance -/

/-- Levels are closed only behind where they were opened, there are never more of them open than
there may be, and in the end all of them are closed. -/
structure LevelsBalanced (kinds : List TokenKind) : Prop where
  dedent_le : ∀ before, before <+: kinds → before.count .dedent ≤ before.count .indent
  indent_le : ∀ before, before <+: kinds → before.count .indent ≤ before.count .dedent + 99
  count_eq : kinds.count .indent = kinds.count .dedent

/-- What one step adds to the tokens, it adds to the levels. -/
theorem LayoutStep.count_add {before after : Layout} {kind : TokenKind}
    (hstep : LayoutStep before kind after) :
    before.depth + [kind].count .indent = after.depth + [kind].count .dedent := by
  cases hstep with
  | indent | dedent | newline => simp
  | text hkind =>
    have hindent : kind ≠ .indent := by rintro rfl; exact absurd hkind (by decide)
    have hdedent : kind ≠ .dedent := by rintro rfl; exact absurd hkind (by decide)
    simp [hindent, hdedent]

/-- No step leads behind the end of the input. -/
theorem LayoutStep.ne_endOfInput {before after : Layout} {kind : TokenKind}
    (hstep : LayoutStep before kind after) : kind ≠ .endOfInput := by
  rintro rfl
  cases hstep with
  | text hkind => exact absurd hkind (by decide)

/-- Each step keeps the bound on the number of levels. -/
theorem LayoutStep.depth_lt {before after : Layout} {kind : TokenKind}
    (hstep : LayoutStep before kind after) (hdepth : before.depth < maxIndentLevels) :
    after.depth < maxIndentLevels := by
  cases hstep with
  | indent hroom => exact hroom
  | dedent => exact Nat.lt_of_succ_lt hdepth
  | text | newline => exact hdepth

/-- Behind every prefix some number of levels is open. -/
theorem LaidOut.count_prefix (hlaid : LaidOut place kinds) (hdepth : place.depth < maxIndentLevels)
    {before : List TokenKind} (hbefore : before <+: kinds) :
    ∃ depth < maxIndentLevels,
      place.depth + before.count .indent = depth + before.count .dedent := by
  induction hlaid generalizing before with
  | last =>
    rcases List.prefix_cons_iff.mp hbefore with rfl | ⟨others, rfl, hothers⟩
    · exact ⟨0, hdepth, rfl⟩
    · obtain rfl := List.prefix_nil.mp hothers
      exact ⟨0, hdepth, by simp⟩
  | @cons start after kind _ hstep _ ih =>
    rcases List.prefix_cons_iff.mp hbefore with rfl | ⟨others, rfl, hothers⟩
    · exact ⟨start.depth, hdepth, by simp⟩
    · obtain ⟨depth, hlt, hcount⟩ := ih (hstep.depth_lt hdepth) hothers
      have hadd := hstep.count_add
      refine ⟨depth, hlt, ?_⟩
      rw [← List.singleton_append, List.count_append, List.count_append]
      omega

private theorem LaidOut.count_eq (hlaid : LaidOut place kinds) :
    place.depth + kinds.count .indent = kinds.count .dedent := by
  induction hlaid with
  | last => simp
  | cons hstep _ ih =>
    have hadd := hstep.count_add
    rw [← List.singleton_append, List.count_append, List.count_append]
    omega

private theorem LaidOut.levelsBalanced (hlaid : LaidOut ⟨false, 0⟩ kinds) :
    LevelsBalanced kinds := by
  have hprefix : ∀ before, before <+: kinds →
      ∃ depth < maxIndentLevels, before.count .indent = depth + before.count .dedent := by
    intro before hbefore
    obtain ⟨depth, hlt, hcount⟩ := hlaid.count_prefix (by decide) hbefore
    exact ⟨depth, hlt, by simpa using hcount⟩
  refine ⟨?_, ?_, by simpa using hlaid.count_eq⟩
  · intro before hbefore
    obtain ⟨depth, -, hcount⟩ := hprefix before hbefore
    omega
  · intro before hbefore
    obtain ⟨depth, hlt, hcount⟩ := hprefix before hbefore
    simp only [maxIndentLevels] at hlt
    omega

namespace Lexer

variable {source : List Char} {lexer behind : Lexer} {token : Token}

/-! ## The layout that a lexer keeps -/

/-- Where the tokens stand that a lexer has answered. A level whose dedent is due is still open. -/
def layout (lexer : Lexer) : Layout :=
  ⟨lexer.lineHasTokens, lexer.levels.length + lexer.pendingDedents⟩

/-- What the state of a lexer says about levels and lines fits together: the levels are
nested, there is room for them, and at the start of a line and where dedents are due there is
no text before. -/
structure Layered (lexer : Lexer) : Prop where
  nested : IndentWidth.Nested lexer.levels
  depth_lt : lexer.levels.length + lexer.pendingDedents < maxIndentLevels
  line_of_atLineStart : lexer.atLineStart → lexer.lineHasTokens = false ∧ lexer.brackets = []
  line_of_pendingDedents : lexer.pendingDedents ≠ 0 → lexer.lineHasTokens = false

/-- Only the level of the module is open at the start of a source. -/
theorem ofSource_layered (source : String) : (ofSource source).Layered where
  nested := List.pairwise_singleton _ _
  depth_lt := Nat.zero_lt_succ _
  line_of_atLineStart _ := ⟨rfl, rfl⟩
  line_of_pendingDedents hpending := absurd rfl hpending

/-- Within brackets nothing that separates tokens ends at a line break. -/
theorem skipTriviaFrom_inBrackets {inComment : Bool} {cs : List Char} {offset : Nat} {stop : Cursor}
    (hskip : skipTriviaFrom true inComment cs offset = .ok stop) : stop.skipLineBreak? = none := by
  fun_induction skipTriviaFrom true inComment cs offset with
  | case1 =>
    cases hskip
    rfl
  | case2 _ _ _ _ _ _ ih | case4 _ _ _ _ ih | case5 _ _ _ _ _ _ _ ih | case6 _ _ _ _ _ _ ih
  | case7 _ _ _ _ _ _ _ ih | case8 _ _ _ _ _ _ _ _ ih | case9 _ _ _ _ _ _ _ ih => exact ih hskip
  | case3 _ _ _ _ _ hbrackets => exact absurd rfl hbrackets
  | case10 | case11 => cases hskip
  | case12 _ c cs offset hline =>
    cases hskip
    unfold Cursor.skipLineBreak?
    split <;> simp_all

/-- A change of level is looked for at the start of a line only, and compares a width with the
levels. -/
theorem readLineStart_change (hstart : lexer.readLineStart = .ok (some token, behind)) :
    lexer.atLineStart = true ∧
      behind = { lexer with
        cursor := behind.cursor, atLineStart := false, levels := behind.levels
        pendingDedents := behind.pendingDedents } ∧
      ∃ width,
        (IndentChange.of lexer.levels width = .ok (.deeper behind.levels) ∧
            behind.pendingDedents = lexer.pendingDedents ∧ token.kind = .indent) ∨
          IndentChange.of lexer.levels width =
              .ok (.shallower behind.levels behind.pendingDedents) ∧
            token.kind = .dedent := by
  unfold readLineStart at hstart
  split at hstart
  · rename_i hline
    rw [Bool.and_eq_true] at hline
    unfold readIndentation at hstart
    split at hstart
    · cases hstart
    · rename_i start width stop hfind
      dsimp only at hstart
      split at hstart
      · cases hstart
      · cases hstart
      · rename_i levels hchange
        cases hstart
        exact ⟨hline.1, rfl, width, .inl ⟨hchange, rfl, rfl⟩⟩
      · rename_i levels extra hchange
        cases hstart
        exact ⟨hline.1, rfl, width, .inr ⟨hchange, rfl⟩⟩
  · cases hstart

/-! ## One call -/

/-- A token leads from one layout to the next, unless the input ends with it, and the lexer behind
it is layered again. -/
def Advances (lexer : Lexer) (token : Token) (behind : Lexer) : Prop :=
  (LayoutStep lexer.layout token.kind behind.layout ∨
      token.kind = .endOfInput ∧ lexer.layout = ⟨false, 0⟩) ∧ behind.Layered

/-- A token at the start of a line is the indent that opens a level, or the first of the dedents
that close some. -/
private theorem Layered.readLineStart_advances (hlayered : lexer.Layered)
    (hpending : lexer.pendingDedents = 0)
    (hstart : lexer.readLineStart = .ok (some token, behind)) : lexer.Advances token behind := by
  obtain ⟨hline, hbehind, width, hchange⟩ := readLineStart_change hstart
  obtain ⟨hempty, -⟩ := hlayered.line_of_atLineStart hline
  have hsame : behind.lineHasTokens = false := by rw [hbehind, ← hempty]
  have hstart' : behind.atLineStart = false := by rw [hbehind]
  have hlayout : lexer.layout = ⟨false, lexer.levels.length⟩ := by
    rw [layout, hempty, hpending, Nat.add_zero]
  rw [Advances, hlayout, layout, hsame]
  rcases hchange with ⟨hdeeper, hdedents, hkind⟩ | ⟨hshallower, hkind⟩
  · obtain ⟨hnested, hlength, hroom⟩ := IndentChange.nested_of_deeper hdeeper hlayered.nested
    have hdedents : behind.pendingDedents = 0 := hdedents.trans hpending
    refine ⟨.inl ?_, hnested, ?_, by simp [hstart'], fun _ => hsame⟩
    · rw [hkind, hdedents, hlength]
      exact .indent (hlength ▸ hroom)
    · rwa [hdedents]
  · have hlength := IndentChange.of_shallower hshallower
    have hsuffix := IndentChange.suffix_of_shallower hshallower
    have hdepth := hlayered.depth_lt
    refine ⟨.inl ?_, hlayered.nested.of_suffix hsuffix, by omega, by simp [hstart'], fun _ => hsame⟩
    rw [hkind, ← hlength]
    exact .dedent

/-- A line that continues a level, or that nothing follows, changes no more than where the lexer
stands. -/
theorem Layered.readLineStart_none (hlayered : lexer.Layered)
    (hstart : lexer.readLineStart = .ok (none, behind)) :
    behind.Layered ∧ behind.atLineStart = false ∧ behind.layout = lexer.layout ∧
      behind.pendingDedents = lexer.pendingDedents := by
  obtain ⟨-, hwithin, hbehind⟩ := Lexer.readLineStart_none hstart
  have hkept : behind.atLineStart = false := by
    -- At the start of a line no bracket is open, so the indentation has been looked at.
    unfold readLineStart at hstart
    split at hstart
    · unfold readIndentation at hstart
      split at hstart
      · cases hstart
        rfl
      · dsimp only at hstart
        split at hstart <;> cases hstart
        rfl
    · rename_i hline
      cases hstart
      refine Bool.eq_false_iff.mpr fun hstart => hline ?_
      simp [hstart, (hlayered.line_of_atLineStart hstart).2]
  refine ⟨⟨?_, ?_, by simp [hkept], ?_⟩, hkept, ?_, ?_⟩ <;> rw [hbehind]
  · exact hlayered.nested
  · exact hlayered.depth_lt
  · exact hlayered.line_of_pendingDedents
  · rfl

/-- At the end of the source a line or a level is closed, or nothing is left to close. -/
theorem Layered.readEnd_advances (hlayered : lexer.Layered) (hpending : lexer.pendingDedents = 0)
    (hread : lexer.readEnd = .ok (token, behind)) : lexer.Advances token behind := by
  obtain ⟨hbrackets, ⟨hline, rfl, rfl⟩ | ⟨hline, ⟨level, hlevels⟩, rfl, hbehind⟩ |
    ⟨hline, hlevels, rfl, rfl⟩⟩ := readEnd_ok hread
  · refine ⟨.inl ?_, hlayered.nested, hlayered.depth_lt, fun _ => ⟨rfl, hbrackets⟩, fun _ => rfl⟩
    rw [layout, hline]
    exact .newline
  · rw [hbehind]
    refine ⟨.inl ?_, hlayered.nested.of_suffix ⟨[level], hlevels.symm⟩, ?_,
      hlayered.line_of_atLineStart, hlayered.line_of_pendingDedents⟩
    · simp only [layout, hline, hpending, hlevels, List.length_cons, Nat.add_zero]
      exact .dedent
    · have hdepth := hlayered.depth_lt
      rw [hlevels, List.length_cons] at hdepth
      dsimp only
      omega
  · refine ⟨.inr ⟨rfl, ?_⟩, hlayered⟩
    simp [layout, hline, hlevels, hpending]

/-- Behind the indentation of a line stands a token that the layout has a place for, or a line break
that ends a line without text. -/
theorem Layered.readWithin_advances {token? : Option Token} (hlayered : lexer.Layered)
    (hpending : lexer.pendingDedents = 0) (hstart : lexer.atLineStart = false)
    (hread : lexer.readWithin = .ok (token?, behind)) :
    (∀ token, token? = some token → lexer.Advances token behind) ∧
      (token? = none →
        behind.Layered ∧ behind.layout = lexer.layout ∧ behind.pendingDedents = 0) := by
  obtain ⟨cursor, htrivia, -, hcases⟩ := readWithin_ok hread
  have hmoved : ({ lexer with cursor } : Lexer).Layered := { hlayered with }
  rcases hcases with ⟨-, token, rfl, hend⟩ | ⟨hbreak, hbehind, htoken⟩ |
    ⟨-, c, token, hpeek, rfl, hsignificant⟩
  · refine ⟨fun _ htoken => ?_, fun hnone => by cases hnone⟩
    cases htoken
    exact hmoved.readEnd_advances hpending hend
  · have hbrackets : lexer.brackets = [] := by
      cases hopen : lexer.brackets with
      | nil => rfl
      | cons =>
        rw [hopen] at htrivia
        rw [skipTriviaFrom_inBrackets htrivia] at hbreak
        cases hbreak
    have hlayered : behind.Layered := by
      rw [hbehind]
      exact ⟨hlayered.nested, hlayered.depth_lt, fun _ => ⟨rfl, hbrackets⟩, fun _ => rfl⟩
    have hlayout : behind.layout = ⟨false, lexer.levels.length + lexer.pendingDedents⟩ := by
      rw [hbehind]
      rfl
    cases hline : lexer.lineHasTokens with
    | true =>
      rw [hline, if_pos rfl] at htoken
      refine ⟨fun token hsome => ⟨.inl ?_, hlayered⟩, fun hnone => ?_⟩
      · rw [htoken, Option.some.injEq] at hsome
        rw [← hsome, hlayout, layout, hline]
        exact .newline
      · rw [htoken] at hnone
        cases hnone
    | false =>
      rw [hline, if_neg Bool.false_ne_true] at htoken
      refine ⟨fun token hsome => ?_, fun _ => ⟨hlayered, ?_, ?_⟩⟩
      · rw [htoken] at hsome
        cases hsome
      · rw [hlayout, layout, hline]
      · rw [hbehind, ← hpending]
  · refine ⟨fun _ htoken => ?_, fun hnone => by cases hnone⟩
    cases htoken
    obtain ⟨hsolid, -, -, -, -, -, hbehind⟩ := readSignificant_ok hpeek hsignificant
    rw [hbehind]
    refine ⟨.inl (.text hsolid), hlayered.nested, hlayered.depth_lt, ?_, ?_⟩
    · simp [hstart]
    · simp [hpending]

/-- Lines without tokens change no level, so a token advances the layout as if it were the first
found. -/
private theorem Layered.finds_advances (hlayered : lexer.Layered)
    (hpending : lexer.pendingDedents = 0) (hfinds : lexer.Finds (.ok (token, behind))) :
    lexer.Advances token behind := by
  generalize hresult : Except.ok (token, behind) = result at hfinds
  induction hfinds with
  | indentation | failing => cases hresult
  | level hstart =>
    cases hresult
    exact hlayered.readLineStart_advances hpending hstart
  | token hstart hwithin =>
    cases hresult
    obtain ⟨hentered, hline, hlayout, hdedents⟩ := hlayered.readLineStart_none hstart
    have hadvances :=
      (hentered.readWithin_advances (hdedents.trans hpending) hline hwithin).1 _ rfl
    rwa [Advances, hlayout] at hadvances
  | line hstart hwithin _ ih =>
    obtain ⟨hentered, hline, hlayout, hdedents⟩ := hlayered.readLineStart_none hstart
    obtain ⟨hskipped, hsame, hnone⟩ :=
      (hentered.readWithin_advances (hdedents.trans hpending) hline hwithin).2 rfl
    have hadvances := ih hskipped hnone hresult
    rwa [Advances, hsame, hlayout] at hadvances

/-- A token that is not invalid has a place in the layout. -/
theorem Layered.next_advances (hlayered : lexer.Layered) (hreading : lexer.Reading source)
    (hvalid : lexer.next.1.kind ≠ .invalid) : lexer.Advances lexer.next.1 lexer.next.2 := by
  rcases hreading.next_finds hvalid with ⟨pendingDedents, hpending, hdedent⟩ | ⟨hpending, hfinds⟩
  · have hline := hlayered.line_of_pendingDedents (by omega)
    have hdepth := hlayered.depth_lt
    rw [hdedent]
    refine ⟨.inl ?_, hlayered.nested, ?_, hlayered.line_of_atLineStart, fun _ => hline⟩
    · rw [layout, hline, hpending]
      exact hline ▸ .dedent
    · dsimp only
      omega
  · exact hlayered.finds_advances hpending hfinds

/-! ## A whole run -/

/-- A run that ends, and meets no invalid token, is laid out from where the lexer stands, and all
its lexers are layered. -/
theorem Layered.runFor_laidOut (hlayered : lexer.Layered) (hreading : lexer.Reading source)
    {fuel : Nat} (hfuel : lexer.weight + 2 ≤ fuel)
    (hvalid : ∀ step ∈ runFor fuel lexer, step.1.kind ≠ .invalid) :
    LaidOut lexer.layout ((runFor fuel lexer).map (·.1.kind)) ∧
      ∀ step ∈ runFor fuel lexer, step.2.Layered := by
  induction fuel generalizing lexer with
  | zero => omega
  | succ fuel ih =>
    rw [runFor] at hvalid ⊢
    dsimp only at hvalid ⊢
    have hnext : lexer.next.1.kind ≠ .invalid := by
      split at hvalid <;> exact hvalid _ List.mem_cons_self
    obtain ⟨hstep, hbehind⟩ := hlayered.next_advances hreading hnext
    split
    · rename_i hend
      rcases hstep with hstep | ⟨-, hlayout⟩
      · exact absurd hend hstep.ne_endOfInput
      · rw [hlayout]
        simpa [hend] using ⟨.last, hbehind⟩
    · rename_i hend
      rw [if_neg hend] at hvalid
      have hstep := hstep.resolve_right fun hlast => hend hlast.1
      rcases hreading.next_ended with ⟨-, hreads, hweight⟩ | ⟨hlast, -⟩ | ⟨hinvalid, -⟩
      · obtain ⟨hrest, hall⟩ := ih hbehind hreads (by omega) (List.forall_mem_cons.mp hvalid).2
        exact ⟨.cons hstep hrest, List.forall_mem_cons.mpr ⟨hbehind, hall⟩⟩
      · exact absurd (congrArg Token.kind hlast) hend
      · exact absurd hinvalid hnext

/-- The tokens of a source without lexical errors are logical lines with balanced changes of level,
and from the start on the lexer keeps a stack of levels that has the module level at its bottom,
each inside those below. -/
theorem run_layout {source : String} (hclean : (Tokens.ofSource source).failure = none) :
    LogicalLines ((run source).map (·.1.kind)) ∧ LevelsBalanced ((run source).map (·.1.kind)) ∧
      ∀ lexer ∈ ofSource source :: (run source).map Prod.snd,
        (IndentWidth.stack lexer.levels).getLast? = some .zero ∧
          (IndentWidth.stack lexer.levels).Pairwise IndentWidth.Inside := by
  have hreading := ofSource_reading source
  have hlayered := ofSource_layered source
  have hvalid : ∀ step ∈ run source, step.1.kind ≠ .invalid := by
    intro step hstep hinvalid
    obtain ⟨failure, last, hlast, hfailure⟩ := hreading.failure_of_invalid hstep hinvalid
    have hknown : (Tokens.ofSource source).failure = some failure := by
      rw [← hfailure]
      simp [Tokens.ofSource, run, hlast]
    rw [hclean] at hknown
    cases hknown
  obtain ⟨hlaid, hall⟩ := hlayered.runFor_laidOut hreading (ofSource_weight_le source) hvalid
  refine ⟨hlaid.logicalLines, hlaid.levelsBalanced, ?_⟩
  intro lexer hlexer
  refine ⟨by simp [IndentWidth.stack], ?_⟩
  rcases List.mem_cons.mp hlexer with rfl | hlexer
  · exact hlayered.nested
  · obtain ⟨step, hstep, rfl⟩ := List.mem_map.mp hlexer
    exact (hall step hstep).nested

/-- A line that a backslash continues into nothing opens a level and closes it again
without text. -/
theorem run_layout_joined :
    (run "if a:\n  b\n   \\\n\nc").map (·.1.kind) =
        [.keywordIf, .identifier, .colon, .newline, .indent, .identifier, .newline, .indent, .dedent,
          .dedent, .identifier, .newline, .endOfInput] ∧
      LogicalLines ((run "if a:\n  b\n   \\\n\nc").map (·.1.kind)) ∧
      LevelsBalanced ((run "if a:\n  b\n   \\\n\nc").map (·.1.kind)) := by
  have hclean : (Tokens.ofSource "if a:\n  b\n   \\\n\nc").failure = none := by decide +kernel
  obtain ⟨hlines, hbalanced, -⟩ := run_layout hclean
  exact ⟨by decide +kernel, hlines, hbalanced⟩

/-! ## Behind the start of a level -/

/-- Whether a character stands in front of text, or of a backslash that joins lines: it is no line
end, no blank, and starts no comment. -/
def StartsText (c : Char) : Prop :=
  ¬EndsLine c ∧ ¬Text.blanks.contains c ∧ c ≠ '#'

/-- The search for a line ends in front of text or of a line join. -/
theorem findFrom_startsText {inComment : Bool} {start start' offset : Nat}
    {width width' : IndentWidth} {cs : List Char} {stop : Cursor}
    (hfind : LineStart.findFrom inComment start width cs offset = .line start' width' stop) :
    ∃ c, stop.peek? = some c ∧ StartsText c := by
  fun_induction LineStart.findFrom inComment start width cs offset with
  | case1 => cases hfind
  | case2 _ _ _ _ _ _ _ ih | case3 _ _ _ _ _ _ ih | case4 _ _ _ _ _ _ _ ih
  | case5 _ _ _ _ _ _ _ _ ih | case6 _ _ _ _ _ _ _ _ _ ih | case7 _ _ _ _ _ _ _ _ _ _ ih =>
    exact ih hfind
  | case8 _ _ _ c _ _ hline _ hspace htab hfeed hcomment =>
    cases hfind
    refine ⟨c, rfl, hline, fun hblank => ?_, hcomment⟩
    rcases Text.blanks_contains_iff.mp hblank with hc | hc | hc
    · exact hspace hc
    · exact htab hc
    · exact hfeed hc

/-- In front of text nothing separates. -/
theorem skipTrivia_startsText {inBrackets : Bool} {cursor : Cursor} {c : Char}
    (hpeek : cursor.peek? = some c) (hc : StartsText c) (hjoin : c ≠ '\\') :
    skipTrivia inBrackets cursor = .ok cursor := by
  obtain ⟨rest, offset⟩ := cursor
  cases rest with
  | nil => cases hpeek
  | cons first cs =>
    cases hpeek
    have hline : ¬(c = '\n' ∨ c = '\r') := hc.1
    rw [skipTrivia, skipTriviaFrom.eq_def]
    simp [hline, hc.2.1, hc.2.2, hjoin]

private theorem skipLineBreak?_startsText {cursor : Cursor} {c : Char}
    (hpeek : cursor.peek? = some c) (hc : StartsText c) : cursor.skipLineBreak? = none := by
  unfold Cursor.skipLineBreak?
  split
  · exact absurd (.inr (Option.some.inj hpeek).symm) hc.1
  · exact absurd (.inl (Option.some.inj hpeek).symm) hc.1
  · exact absurd (.inr (Option.some.inj hpeek).symm) hc.1
  · rfl

/-- A lexer that stands in front of text, or of a line join, and has no dedents due. -/
def AtText (lexer : Lexer) : Prop :=
  lexer.pendingDedents = 0 ∧ lexer.atLineStart = false ∧
    ∃ c, lexer.cursor.peek? = some c ∧ StartsText c

/-- Behind an indent the lexer stands at the text of the line. -/
private theorem readLineStart_atText (hpending : lexer.pendingDedents = 0)
    (hstart : lexer.readLineStart = .ok (some token, behind)) (hkind : token.kind = .indent) :
    behind.AtText := by
  unfold readLineStart at hstart
  split at hstart
  · unfold readIndentation at hstart
    split at hstart
    · cases hstart
    · rename_i start width stop hfind
      dsimp only at hstart
      split at hstart
      · cases hstart
      · cases hstart
      · cases hstart
        exact ⟨hpending, rfl, findFrom_startsText hfind⟩
      · cases hstart
        cases hkind
  · cases hstart

/-- Within a line no level is opened. -/
theorem readWithin_ne_indent (hread : lexer.readWithin = .ok (some token, behind)) :
    token.kind ≠ .indent := by
  obtain ⟨cursor, -, -, hcases⟩ := readWithin_ok hread
  rcases hcases with ⟨-, _, htoken, hend⟩ | ⟨-, -, htoken⟩ | ⟨-, c, _, hpeek, htoken, hsignificant⟩
  · cases htoken
    obtain ⟨-, ⟨-, rfl, -⟩ | ⟨-, -, rfl, -⟩ | ⟨-, -, rfl, -⟩⟩ := readEnd_ok hend <;>
      exact fun hindent => by cases hindent
  · split at htoken <;> cases htoken
    exact fun hindent => by cases hindent
  · cases htoken
    exact (readSignificant_ok hpeek hsignificant).1.ne (by decide)

/-- Behind an indent the lexer stands in front of text. -/
theorem Finds.atText (hfinds : lexer.Finds (.ok (token, behind)))
    (hpending : lexer.pendingDedents = 0) (hkind : token.kind = .indent) : behind.AtText := by
  generalize hresult : Except.ok (token, behind) = result at hfinds
  induction hfinds with
  | indentation | failing => cases hresult
  | level hstart =>
    cases hresult
    exact readLineStart_atText hpending hstart hkind
  | token hstart hwithin =>
    cases hresult
    exact absurd hkind (readWithin_ne_indent hwithin)
  | line hstart hwithin _ ih =>
    have hentered := readLineStart_weight hstart
    have hskipped := readWithin_weight hwithin (by simp)
    exact ih (by omega) hresult

/-- In front of text that is no line join the lexer reads text, or fails. -/
theorem Finds.isSolid (hfinds : lexer.Finds (.ok (token, behind))) (htext : lexer.AtText)
    (hjoin : lexer.cursor.peek? ≠ some '\\') : token.kind.IsSolid := by
  obtain ⟨-, hline, c, hpeek, hc⟩ := htext
  have hjoin : c ≠ '\\' := fun hc => hjoin (hc ▸ hpeek)
  have hstart : lexer.readLineStart = .ok (none, lexer) := by simp [readLineStart, hline]
  have hwithin : ∀ {token? : Option Token} {behind : Lexer},
      lexer.readWithin = .ok (token?, behind) →
      ∃ token, token? = some token ∧ token.kind.IsSolid := by
    intro token? behind hread
    obtain ⟨cursor, htrivia, -, hcases⟩ := readWithin_ok hread
    rw [skipTrivia_startsText hpeek hc hjoin] at htrivia
    cases htrivia
    rcases hcases with ⟨hrest, -⟩ | ⟨hbreak, -⟩ | ⟨-, d, token, hd, rfl, hsignificant⟩
    · rw [Cursor.peek?, hrest] at hpeek
      cases hpeek
    · rw [skipLineBreak?_startsText hpeek hc] at hbreak
      cases hbreak
    · exact ⟨token, rfl, (readSignificant_ok hd hsignificant).1⟩
  generalize hresult : Except.ok (token, behind) = result at hfinds
  cases hfinds with
  | indentation | failing => cases hresult
  | level hlevel =>
    rw [hstart] at hlevel
    cases hlevel
  | token hnone hread =>
    cases hresult
    rw [hstart] at hnone
    cases hnone
    obtain ⟨token, htoken, hsolid⟩ := hwithin hread
    cases htoken
    exact hsolid
  | line hnone hread =>
    rw [hstart] at hnone
    cases hnone
    obtain ⟨_, htoken, -⟩ := hwithin hread
    cases htoken

/-- Behind the start of a level stands text, unless the lexer fails there or the line starts with a
backslash. -/
theorem Reading.next_of_indent (hreading : lexer.Reading source)
    (hindent : lexer.next.1.kind = .indent) (hjoin : lexer.next.2.cursor.peek? ≠ some '\\') :
    lexer.next.2.next.1.kind = .invalid ∨ lexer.next.2.next.1.kind.IsSolid := by
  have hvalid : lexer.next.1.kind ≠ .invalid := by
    rw [hindent]
    decide
  obtain ⟨_, -, hdedent⟩ | ⟨hpending, hfinds⟩ := hreading.next_finds hvalid
  · rw [hdedent] at hindent
    cases hindent
  have hbehind := hfinds.atText hpending hindent
  refine Classical.or_iff_not_imp_left.mpr fun hvalid' => ?_
  obtain ⟨_, hdedents, -⟩ | ⟨-, hfinds⟩ := (hreading.next_reading hvalid).next_finds hvalid'
  · rw [hbehind.1] at hdedents
    cases hdedents
  · exact hfinds.isSolid hbehind hjoin

end Lexer

end PythonOutline
