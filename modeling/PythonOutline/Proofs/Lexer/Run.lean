import PythonOutline.Proofs.Lexer.Tokens

/-! # One call of the lexer after another

`Finds` says what the lexer reads next without counting the lines that hold no token. A readable
token costs the lexer something that it has only so much of, so its run comes to the end of the input,
and from there on it answers nothing else. The token sequence of a source is therefore what the lexer
answers call by call, for every number of calls, and the failure that the sequence knows after some
tokens is the one that the lexer then keeps.
-/

namespace PythonOutline

/-- A cursor and all it can reach end at the same offset. -/
theorem Cursor.Reaches.offset_add {cursor later : Cursor} (hreaches : cursor.Reaches later) :
    later.offset + Text.byteLength later.rest = cursor.offset + Text.byteLength cursor.rest := by
  obtain ⟨text, hrest, hoffset⟩ := hreaches
  rw [hrest, hoffset, Text.byteLength_append, Nat.add_assoc]

/-- Separators are passed forwards. -/
theorem Cursor.Separates.reaches {cursor later : Cursor} (hseparates : cursor.Separates later) :
    cursor.Reaches later :=
  hseparates.passes

/-- A line that opens a level is indented. -/
theorem IndentChange.of_deeper {levels levels' : List IndentWidth} {width : IndentWidth}
    (hchange : IndentChange.of levels width = .ok (.deeper levels')) :
    levels' = width :: levels ∧ width ≠ .zero := by
  unfold IndentChange.of at hchange
  dsimp only at hchange
  split at hchange
  · split at hchange <;> cases hchange
  · split at hchange
    · rename_i hdeeper
      split at hchange
      · cases hchange
      · split at hchange
        · cases hchange
        · cases hchange
          refine ⟨rfl, ?_⟩
          rintro rfl
          exact absurd hdeeper (Nat.not_lt_zero _)
    · split at hchange
      · cases hchange
      · split at hchange <;> cases hchange

/-- A line that closes levels closes those that its dedents are due for. -/
theorem IndentChange.of_shallower {levels levels' : List IndentWidth} {width : IndentWidth}
    {extra : Nat} (hchange : IndentChange.of levels width = .ok (.shallower levels' extra)) :
    levels'.length + extra + 1 = levels.length := by
  unfold IndentChange.of at hchange
  dsimp only at hchange
  split at hchange
  · split at hchange <;> cases hchange
  · rename_i hdifferent
    split at hchange
    · split at hchange
      · cases hchange
      · split at hchange <;> cases hchange
    · rename_i hdeeper
      split at hchange
      · cases hchange
      · split at hchange
        · cases hchange
        · cases hchange
          -- The innermost level is deeper than the line, so it is among those that are closed.
          cases levels with
          | nil =>
            have hzero : IndentWidth.zero.tab8 = 0 := rfl
            simp only [List.headD_nil] at hdifferent hdeeper
            omega
          | cons level levels =>
            simp only [List.headD_cons] at hdifferent hdeeper
            have hinner : width.tab8 < level.tab8 := by omega
            have hle := (List.dropWhile_suffix (l := levels)
              (fun level => decide (width.tab8 < level.tab8))).length_le
            simp only [List.dropWhile_cons_of_pos, hinner, decide_true, List.length_cons]
            omega

/-- The search for a line starts with no width, and moves the offset to find one. -/
theorem LineStart.findFrom_width {inComment : Bool} {start start' offset : Nat}
    {width width' : IndentWidth} {cs : List Char} {stop : Cursor}
    (hfind : findFrom inComment start width cs offset = .line start' width' stop) :
    offset ≤ stop.offset ∧ (width' = width ∨ offset < stop.offset) := by
  induction cs generalizing inComment start width offset with
  | nil => cases hfind
  | cons c cs ih =>
    have hlater : ∀ {inComment start width'' bytes}, 0 < bytes →
        findFrom inComment start width'' cs (offset + bytes) = .line start' width' stop →
        offset ≤ stop.offset ∧ (width' = width ∨ offset < stop.offset) := by
      intro inComment start width'' bytes hbytes hrest
      have hle := (ih hrest).1
      exact ⟨by omega, .inr (by omega)⟩
    rw [findFrom] at hfind
    split at hfind
    · exact hlater Nat.one_pos hfind
    split at hfind
    · exact hlater c.utf8Size_pos hfind
    split at hfind
    · exact hlater Nat.one_pos hfind
    split at hfind
    · exact hlater Nat.one_pos hfind
    split at hfind
    · exact hlater Nat.one_pos hfind
    split at hfind
    · exact hlater Nat.one_pos hfind
    · cases hfind
      exact ⟨Nat.le_refl _, .inl rfl⟩

namespace Lexer

variable {source : List Char} {lexer behind : Lexer} {token : Token}

/-! ## One call -/

/-- What the lexer reads next, where no dedents are due: at the start of a line a change of level,
otherwise a token within the line, and behind a line without tokens what it reads from there. -/
inductive Finds : Lexer → Except LexFailure (Token × Lexer) → Prop where
  | indentation {lexer : Lexer} {failure : LexFailure}
      (hstart : lexer.readLineStart = .error failure) : Finds lexer (.error failure)
  | level {lexer behind : Lexer} {token : Token}
      (hstart : lexer.readLineStart = .ok (some token, behind)) : Finds lexer (.ok (token, behind))
  | failing {lexer entered : Lexer} {failure : LexFailure}
      (hstart : lexer.readLineStart = .ok (none, entered))
      (hwithin : entered.readWithin = .error failure) : Finds lexer (.error failure)
  | token {lexer entered behind : Lexer} {token : Token}
      (hstart : lexer.readLineStart = .ok (none, entered))
      (hwithin : entered.readWithin = .ok (some token, behind)) :
      Finds lexer (.ok (token, behind))
  | line {lexer entered behind : Lexer} {result : Except LexFailure (Token × Lexer)}
      (hstart : lexer.readLineStart = .ok (none, entered))
      (hwithin : entered.readWithin = .ok (none, behind)) (hrest : Finds behind result) :
      Finds lexer result

/-- With fuel for the rest of the source, the loop over lines finds a token or fails. -/
theorem readLines_finds (hreading : lexer.Reading source) {fuel : Nat}
    (hfuel : Text.byteLength lexer.cursor.rest < fuel) : lexer.Finds (readLines fuel lexer) := by
  induction fuel generalizing lexer with
  | zero => omega
  | succ fuel ih =>
    have hattempt := readLineStart_attempt hreading
    rw [readLines_succ]
    cases hstart : lexer.readLineStart with
    | error failure => exact .indentation hstart
    | ok result =>
      obtain ⟨change, entered⟩ := result
      rw [hstart] at hattempt
      cases change with
      | some token => exact .level hstart
      | none =>
        obtain ⟨hseparates, hentered⟩ := hattempt
        obtain ⟨hattempt, hprogress⟩ := readWithin_attempt hentered
        simp only [bind, Except.bind]
        cases hwithin : entered.readWithin with
        | error failure => exact .failing hstart hwithin
        | ok result =>
          obtain ⟨token?, behind⟩ := result
          rw [hwithin] at hattempt
          cases token? with
          | some token => exact .token hstart hwithin
          | none =>
            refine .line hstart hwithin (ih hattempt.2 ?_)
            have hlt := hprogress behind hwithin
            have hle := hseparates.offset_le
            have hbefore := hreading.isIn.offset_add
            have hafter := hattempt.2.isIn.offset_add
            omega

/-- A lexer that has not failed reads a dedent that is due, or what it finds. -/
theorem read_cases (hreading : lexer.Reading source) :
    (∃ pendingDedents, lexer.pendingDedents = pendingDedents + 1 ∧
        lexer.read = .ok (.empty .dedent lexer.cursor.offset, { lexer with pendingDedents })) ∨
      lexer.pendingDedents = 0 ∧ lexer.Finds lexer.read := by
  unfold read
  split
  · rename_i pendingDedents hpending
    exact .inl ⟨pendingDedents, hpending, rfl⟩
  · rename_i hpending
    refine .inr ⟨hpending, readLines_finds hreading ?_⟩
    have hoffset := hreading.isIn.offset_add
    rw [hreading.size_eq]
    omega

/-! ## What a call changes -/

/-- What is left to read, the levels and dedents that are to be closed, and the line that is to be
ended. Text counts twice, as it may open a level or start a line. -/
def weight (lexer : Lexer) : Nat :=
  2 * Text.byteLength lexer.cursor.rest + lexer.levels.length + lexer.pendingDedents +
    lexer.lineHasTokens.toNat

/-- The start of a line that changes no level moves the cursor only, up to text or the end. -/
theorem readLineStart_none (hstart : lexer.readLineStart = .ok (none, behind)) :
    lexer.cursor.Reaches behind.cursor ∧ (behind.atLineStart && behind.brackets.isEmpty) = false ∧
      behind = { lexer with cursor := behind.cursor, atLineStart := behind.atLineStart } := by
  have hfind := LineStart.find_separatedFrom lexer.cursor
  unfold readLineStart at hstart
  split at hstart
  · unfold readIndentation at hstart
    split at hstart
    · rename_i stop hnone
      cases hstart
      rw [hnone] at hfind
      exact ⟨hfind.2.reaches, rfl, rfl⟩
    · rename_i start width stop hline
      rw [hline] at hfind
      obtain ⟨lineStart, hbefore, -, hblanks⟩ := hfind
      dsimp only at hstart
      split at hstart <;> cases hstart
      exact ⟨(hbefore.trans hblanks).reaches, rfl, rfl⟩
  · rename_i hwithin
    cases hstart
    exact ⟨.refl _, by simpa using hwithin, rfl⟩

/-- A change of level opens a level behind blanks, or closes levels. -/
theorem readLineStart_some (hstart : lexer.readLineStart = .ok (some token, behind)) :
    lexer.cursor.Reaches behind.cursor ∧
      behind = { lexer with
        cursor := behind.cursor, atLineStart := false, levels := behind.levels
        pendingDedents := behind.pendingDedents } ∧
      (token = .empty .indent behind.cursor.offset ∧
          behind.levels.length = lexer.levels.length + 1 ∧
          behind.pendingDedents = lexer.pendingDedents ∧
          lexer.cursor.offset < behind.cursor.offset ∨
        token = .empty .dedent behind.cursor.offset ∧
          behind.levels.length + behind.pendingDedents + 1 = lexer.levels.length) := by
  have hfind := LineStart.find_separatedFrom lexer.cursor
  unfold readLineStart at hstart
  split at hstart
  · unfold readIndentation at hstart
    split at hstart
    · cases hstart
    · rename_i start width stop hline
      rw [hline] at hfind
      obtain ⟨lineStart, hbefore, -, hblanks⟩ := hfind
      have hreaches := (hbefore.trans hblanks).reaches
      dsimp only at hstart
      split at hstart
      · cases hstart
      · cases hstart
      · rename_i levels hchange
        cases hstart
        obtain ⟨rfl, hwidth⟩ := IndentChange.of_deeper hchange
        refine ⟨hreaches, rfl, .inl ⟨rfl, rfl, rfl, ?_⟩⟩
        exact (LineStart.findFrom_width hline).2.resolve_left hwidth
      · rename_i levels extra hchange
        cases hstart
        exact ⟨hreaches, rfl, .inr ⟨rfl, IndentChange.of_shallower hchange⟩⟩
  · cases hstart

/-- A token of the text moves the lexer and starts the line. -/
theorem readSignificant_ok {c : Char} (hpeek : lexer.cursor.peek? = some c)
    (hread : lexer.readSignificant c = .ok (token, behind)) :
    token.kind.IsSolid ∧ lexer.cursor.Reaches behind.cursor ∧
      lexer.cursor.offset < behind.cursor.offset ∧
      token = ⟨token.kind, ⟨lexer.cursor.offset, behind.cursor.offset⟩,
        String.ofList (lexer.cursor.textTo behind.cursor)⟩ ∧
      significant c lexer.cursor = .ok (token.kind, behind.cursor) ∧
      trackBrackets lexer.brackets token.kind token.span behind.cursor = .ok behind.brackets ∧
      behind = { lexer with
        cursor := behind.cursor, brackets := behind.brackets, lineHasTokens := true } := by
  have hextent := significant_extent hpeek
  obtain ⟨⟨kind, stop⟩, hsignificant, hread⟩ := bind_eq_ok_iff.mp hread
  obtain ⟨brackets, htrack, hread⟩ := bind_eq_ok_iff.mp hread
  rw [hsignificant] at hextent
  cases hread
  exact ⟨hextent.1, hextent.2.1, hextent.2.2, rfl, hsignificant, htrack, rfl⟩

/-- At the end of the source the line ends, then the levels do, and then there is nothing. -/
theorem readEnd_ok (hread : lexer.readEnd = .ok (token, behind)) :
    lexer.brackets = [] ∧
      (lexer.lineHasTokens = true ∧ token = .empty .newline lexer.cursor.offset ∧
          behind = { lexer with lineHasTokens := false } ∨
        lexer.lineHasTokens = false ∧ (∃ level, lexer.levels = level :: behind.levels) ∧
          token = .empty .dedent lexer.cursor.offset ∧
          behind = { lexer with levels := behind.levels } ∨
        lexer.lineHasTokens = false ∧ lexer.levels = [] ∧ token = .endOfInput lexer.size ∧
          behind = lexer) := by
  unfold readEnd at hread
  dsimp only at hread
  split at hread
  · cases hread
  · rename_i hbrackets
    refine ⟨hbrackets, ?_⟩
    split at hread
    · rename_i hline
      cases hread
      exact .inl ⟨hline, rfl, rfl⟩
    · rename_i hline
      split at hread
      · rename_i level levels hlevels
        cases hread
        exact .inr (.inl ⟨by simpa using hline, ⟨level, hlevels⟩, rfl, rfl⟩)
      · rename_i hlevels
        cases hread
        exact .inr (.inr ⟨by simpa using hline, hlevels, rfl, rfl⟩)

/-- What is read within a line, behind its separators: something at the end of the source, a line
break, or a token of the text. -/
theorem readWithin_ok {token? : Option Token}
    (hread : lexer.readWithin = .ok (token?, behind)) :
    ∃ cursor, skipTrivia (!lexer.brackets.isEmpty) lexer.cursor = .ok cursor ∧
      lexer.cursor.Reaches cursor ∧
      ((cursor.rest = [] ∧ ∃ token, token? = some token ∧
          ({ lexer with cursor } : Lexer).readEnd = .ok (token, behind)) ∨
        (cursor.skipLineBreak? = some behind.cursor ∧
          behind = { lexer with
            cursor := behind.cursor, atLineStart := true, lineHasTokens := false } ∧
          token? = if lexer.lineHasTokens then
            some ⟨.newline, ⟨cursor.offset, behind.cursor.offset⟩,
              String.ofList (cursor.textTo behind.cursor)⟩ else none) ∨
        (cursor.skipLineBreak? = none ∧ ∃ c token, cursor.peek? = some c ∧ token? = some token ∧
          ({ lexer with cursor } : Lexer).readSignificant c = .ok (token, behind))) := by
  obtain ⟨later, hseparates, hskip⟩ := skipTrivia_separates (!lexer.brackets.isEmpty) lexer.cursor
  obtain ⟨cursor, htrivia, hread⟩ := bind_eq_ok_iff.mp hread
  rw [htrivia] at hskip
  subst hskip
  refine ⟨cursor, htrivia, hseparates.reaches, ?_⟩
  dsimp only at hread
  split at hread
  · rename_i hrest
    obtain ⟨⟨token, behind⟩, hend, hread⟩ := bind_eq_ok_iff.mp hread
    cases hread
    exact .inl ⟨hrest, token, rfl, hend⟩
  · rename_i c cs hrest
    split at hread
    · rename_i stop hbreak
      split at hread
      · rename_i hline
        cases hread
        exact .inr (.inl ⟨hbreak, rfl, by simp [hline]⟩)
      · rename_i hline
        cases hread
        exact .inr (.inl ⟨hbreak, rfl, by simp [hline]⟩)
    · rename_i hbreak
      obtain ⟨⟨token, behind⟩, hsignificant, hread⟩ := bind_eq_ok_iff.mp hread
      cases hread
      exact .inr (.inr ⟨hbreak, c, token, by simp [Cursor.peek?, hrest], rfl, hsignificant⟩)

/-- Within a line every token but the end of the input costs weight, and a line without tokens gives
none back. -/
theorem readWithin_weight {token? : Option Token}
    (hread : lexer.readWithin = .ok (token?, behind))
    (hkind : ∀ token ∈ token?, token.kind ≠ .endOfInput) :
    behind.weight < lexer.weight ∧ behind.pendingDedents = lexer.pendingDedents := by
  obtain ⟨cursor, -, hreaches, hcases⟩ := readWithin_ok hread
  have hcursor := hreaches.offset_add
  have hle := hreaches.offset_le
  rcases hcases with ⟨hrest, token, rfl, hend⟩ | ⟨hbreak, hbehind, htoken⟩ |
    ⟨-, c, token, hpeek, rfl, hsignificant⟩
  · obtain ⟨-, ⟨hline, -, rfl⟩ | ⟨hline, ⟨level, hlevels⟩, -, hbehind⟩ | ⟨-, -, rfl, -⟩⟩ :=
      readEnd_ok hend
    · dsimp only at hline
      simp only [weight, hline, Bool.toNat_true, Bool.toNat_false, and_true]
      omega
    · dsimp only at hline hlevels
      rw [hbehind]
      simp only [weight, hlevels, List.length_cons, and_true]
      omega
    · exact absurd rfl (hkind _ rfl)
  · obtain ⟨text, hpasses, htext⟩ := skipLineBreak?_passes hbreak
    have hlt := hpasses.offset_lt (by rintro rfl; exact absurd htext (by decide))
    have hstop := Cursor.Reaches.offset_add ⟨text, hpasses⟩
    rw [hbehind]
    simp only [weight, Bool.toNat_false, and_true]
    omega
  · obtain ⟨-, hstop, hlt, -, -, -, hbehind⟩ := readSignificant_ok hpeek hsignificant
    have hstop := hstop.offset_add
    dsimp only at hstop hlt
    rw [hbehind]
    simp only [weight, Bool.toNat_true, and_true]
    omega

/-- The start of a line that changes no level does not add to what is left to do. -/
theorem readLineStart_weight (hstart : lexer.readLineStart = .ok (none, behind)) :
    behind.weight ≤ lexer.weight ∧ behind.pendingDedents = lexer.pendingDedents := by
  obtain ⟨hreaches, -, hbehind⟩ := readLineStart_none hstart
  have hcursor := hreaches.offset_add
  have hle := hreaches.offset_le
  rw [hbehind]
  simp only [weight, and_true]
  omega

/-- A token that is not the end takes from the weight, whatever lines without tokens were passed. -/
private theorem Finds.weight_lt (hfinds : lexer.Finds (.ok (token, behind)))
    (hpending : lexer.pendingDedents = 0) (hkind : token.kind ≠ .endOfInput) :
    behind.weight < lexer.weight := by
  generalize hresult : Except.ok (token, behind) = result at hfinds
  induction hfinds with
  | indentation | failing => cases hresult
  | level hstart =>
    cases hresult
    obtain ⟨hreaches, hbehind, hchange⟩ := readLineStart_some hstart
    have hcursor := hreaches.offset_add
    have hle := hreaches.offset_le
    have hline := congrArg lineHasTokens hbehind
    dsimp only at hline
    simp only [weight, hline]
    rcases hchange with ⟨-, hlevels, hdedents, hlt⟩ | ⟨-, hlevels⟩ <;> omega
  | token hstart hwithin =>
    cases hresult
    have hentered := readLineStart_weight hstart
    have hbehind := readWithin_weight hwithin (by simpa using hkind)
    omega
  | line hstart hwithin _ ih =>
    have hentered := readLineStart_weight hstart
    have hskipped := readWithin_weight hwithin (by simp)
    have hrest := ih (by omega) hresult
    omega

/-! ## The end of the input -/

/-- A lexer that answers the end of the input, now and from now on. -/
def Ended (lexer : Lexer) : Prop :=
  lexer.next = (.endOfInput lexer.size, lexer)

/-- A lexer that has failed has ended. -/
theorem ended_of_failure {failure : SyntaxError} (hfailure : lexer.failure = some failure) :
    lexer.Ended := by
  simp [Ended, next, hfailure]

private theorem ended_of_rest (hrest : lexer.cursor.rest = []) (hline : lexer.lineHasTokens = false)
    (hlevels : lexer.levels = []) (hpending : lexer.pendingDedents = 0)
    (hbrackets : lexer.brackets = []) (hstart : lexer.atLineStart = false)
    (hfailure : lexer.failure = none) : lexer.Ended := by
  obtain ⟨⟨rest, offset⟩, size, levels, pendingDedents, brackets, atLineStart, lineHasTokens,
    failure⟩ := lexer
  dsimp only at hrest hline hlevels hpending hbrackets hstart hfailure
  subst hrest hline hlevels hpending hbrackets hstart hfailure
  simp [Ended, next, read, readLines, readWithin, skipTrivia, skipTriviaFrom, readEnd, bind,
    Except.bind, pure, Except.pure]

/-- Behind the end of the input there is nothing but it. -/
theorem Finds.ended (hreading : lexer.Reading source) (hfinds : lexer.Finds (.ok (token, behind)))
    (hpending : lexer.pendingDedents = 0) (hkind : token.kind = .endOfInput) :
    token = .endOfInput lexer.size ∧ behind.size = lexer.size ∧ behind.Ended := by
  generalize hresult : Except.ok (token, behind) = result at hfinds
  induction hfinds with
  | indentation | failing => cases hresult
  | level hstart =>
    cases hresult
    obtain ⟨-, -, ⟨rfl, -⟩ | ⟨rfl, -⟩⟩ := readLineStart_some hstart <;> cases hkind
  | token hstart hwithin =>
    cases hresult
    obtain ⟨-, hlineStart, hentered⟩ := readLineStart_none hstart
    obtain ⟨cursor, -, -, hcases⟩ := readWithin_ok hwithin
    rcases hcases with ⟨hrest, token, htoken, hend⟩ | ⟨-, -, htoken⟩ |
      ⟨-, c, token, hpeek, htoken, hsignificant⟩
    · cases htoken
      obtain ⟨hbrackets, ⟨-, rfl, -⟩ | ⟨-, -, rfl, -⟩ | ⟨hline, hlevels, rfl, rfl⟩⟩ := readEnd_ok hend
      · cases hkind
      · cases hkind
      · have hsize := congrArg size hentered
        have hdedents := congrArg pendingDedents hentered
        have hfailure := congrArg failure hentered
        dsimp only at hsize hdedents hfailure hbrackets
        refine ⟨by rw [hsize], hsize, ?_⟩
        apply ended_of_rest hrest hline hlevels (hdedents.trans hpending) hbrackets
        · simpa [hbrackets] using hlineStart
        · exact hfailure.trans hreading.failure_eq
    · split at htoken <;> cases htoken
      cases hkind
    · cases htoken
      have hsolid := (readSignificant_ok hpeek hsignificant).1
      exact absurd hkind hsolid.2.1
  | line hstart hwithin _ ih =>
    have hentered := readLineStart_weight hstart
    have hskipped := readWithin_weight hwithin (by simp)
    have hattempt := readLineStart_attempt hreading
    rw [hstart] at hattempt
    have hbehind := (readWithin_attempt hattempt.2).1
    rw [hwithin] at hbehind
    obtain ⟨htoken, hsize, hended⟩ := ih hbehind.2 (by omega) hresult
    have hsame := hbehind.2.size_eq.trans hreading.size_eq.symm
    exact ⟨by rw [htoken, hsame], hsize.trans hsame, hended⟩

/-! ## Any number of calls -/

/-- The lexer behind a number of calls. -/
def after (lexer : Lexer) : (count : Nat) → Lexer
  | 0 => lexer
  | count + 1 => lexer.next.2.after count

/-- One more token is the next one of the lexer behind the others. -/
theorem after_succ (lexer : Lexer) (count : Nat) :
    lexer.after (count + 1) = (lexer.after count).next.2 := by
  induction count generalizing lexer with
  | zero => rfl
  | succ count ih => exact ih lexer.next.2

/-- Tokens may be taken in two parts. -/
theorem after_add (lexer : Lexer) (count rest : Nat) :
    lexer.after (count + rest) = (lexer.after count).after rest := by
  induction count generalizing lexer with
  | zero => rw [Nat.zero_add, after]
  | succ count ih =>
    rw [Nat.succ_add, after, ih]
    rfl

/-- A lexer that has ended stays as it is. -/
theorem Ended.after (hended : lexer.Ended) (count : Nat) : lexer.after count = lexer := by
  induction count with
  | zero => rfl
  | succ count ih => rw [after_succ, ih, hended]

/-- A readable token costs weight. The end of the input and an invalid token are the last but for
the ends of input that follow. -/
theorem Reading.next_ended (hreading : lexer.Reading source) :
    lexer.next.1.kind.IsReadable ∧ lexer.next.2.Reading source ∧
        lexer.next.2.weight < lexer.weight ∨
      lexer.next.1 = .endOfInput lexer.size ∧ lexer.next.2.size = lexer.size ∧ lexer.next.2.Ended ∨
      lexer.next.1.kind = .invalid ∧ lexer.next.2.size = lexer.size ∧ lexer.next.2.Ended := by
  have houtcome := read_outcome hreading
  have hlexer : ¬lexer.failure.isSome := by simp [hreading.failure_eq]
  have hcases := read_cases hreading
  unfold next
  rw [if_neg hlexer]
  cases hread : lexer.read with
  | error failure => exact .inr (.inr ⟨rfl, rfl, ended_of_failure rfl⟩)
  | ok result =>
    obtain ⟨token, behind⟩ := result
    rw [hread] at houtcome hcases
    obtain ⟨-, -, -, -, -, -, -, hvalid, hbehind⟩ := houtcome
    by_cases hkind : token.kind = .endOfInput
    · rcases hcases with ⟨_, -, hdedent⟩ | ⟨hpending, hfinds⟩
      · cases hdedent
        cases hkind
      · exact .inr (.inl (hfinds.ended hreading hpending hkind))
    · refine .inl ⟨⟨hvalid, hkind⟩, hbehind, ?_⟩
      rcases hcases with ⟨pendingDedents, hpending, hdedent⟩ | ⟨hpending, hfinds⟩
      · cases hdedent
        simp only [weight, hpending]
        omega
      · exact hfinds.weight_lt hpending hkind

/-- The steps of a run are the calls of the lexer. -/
theorem runFor_getElem? {fuel index : Nat} {step : Token × Lexer}
    (hstep : (runFor fuel lexer)[index]? = some step) : step = (lexer.after index).next := by
  induction fuel generalizing lexer index with
  | zero => simp [runFor] at hstep
  | succ fuel ih =>
    rw [runFor] at hstep
    dsimp only at hstep
    split at hstep
    · cases index with
      | zero => simpa [after] using hstep.symm
      | succ index => simp at hstep
    · cases index with
      | zero => simpa [after] using hstep.symm
      | succ index =>
        have hrest := ih (by rwa [List.getElem?_cons_succ] at hstep)
        exact hrest

/-- A run that may take as many steps as the weight tells comes to the end of the input. -/
theorem Reading.ended_after (hreading : lexer.Reading source) {fuel : Nat}
    (hfuel : lexer.weight + 2 ≤ fuel) :
    (lexer.after (runFor fuel lexer).length).size = lexer.size ∧
      (lexer.after (runFor fuel lexer).length).Ended := by
  induction fuel generalizing lexer with
  | zero => omega
  | succ fuel ih =>
    rw [runFor]
    dsimp only
    rcases hreading.next_ended with ⟨hreadable, hbehind, hweight⟩ | ⟨htoken, hsize, hended⟩ |
      ⟨hinvalid, hsize, hended⟩
    · rw [if_neg hreadable.2, List.length_cons, after]
      have hrest := ih hbehind (by omega)
      rwa [hbehind.size_eq, ← hreading.size_eq] at hrest
    · rw [if_pos (by rw [htoken]; rfl)]
      exact ⟨hsize, hended⟩
    · rw [if_neg (by rw [hinvalid]; decide), List.length_cons, after, hended.after]
      exact ⟨hsize, hended⟩

/-- A run with fuel for the weight of its lexer ends with the end of the input: induction on the
fuel. -/
private theorem Reading.runFor_getLast? (hreading : lexer.Reading source) {fuel : Nat}
    (hfuel : lexer.weight + 2 ≤ fuel) :
    ∃ step, (runFor fuel lexer).getLast? = some step ∧ step.1.kind = .endOfInput := by
  induction fuel generalizing lexer with
  | zero => omega
  | succ fuel ih =>
    rw [runFor]
    dsimp only
    rcases hreading.next_ended with ⟨hreadable, hbehind, hweight⟩ | ⟨htoken, -⟩ |
      ⟨hinvalid, -, hended⟩
    · rw [if_neg hreadable.2]
      obtain ⟨step, hlast, hkind⟩ := ih hbehind (by omega)
      exact ⟨step, by rw [List.getLast?_cons, hlast, Option.getD_some], hkind⟩
    · have hkind : lexer.next.1.kind = .endOfInput := by
        rw [htoken]
        rfl
      rw [if_pos hkind]
      exact ⟨_, rfl, hkind⟩
    · obtain ⟨fuel, rfl⟩ : ∃ count, fuel = count + 1 := Nat.exists_eq_add_one.mpr (by omega)
      have hkind : lexer.next.2.next.1.kind = .endOfInput := by
        rw [hended]
        rfl
      rw [if_neg (by rw [hinvalid]; decide), runFor]
      dsimp only
      rw [if_pos hkind]
      exact ⟨_, rfl, hkind⟩

/-- The run of a source may take as many steps as its weight tells. -/
theorem ofSource_weight_le (source : String) :
    (ofSource source).weight + 2 ≤ 2 * source.utf8ByteSize + 3 := by
  have hoffset := (ofSource_reading source).isIn.offset_add
  have hsize : source.utf8ByteSize = Text.byteLength source.toList :=
    Text.utf8ByteSize_eq_byteLength source
  simp only [weight, ofSource, start, List.length_nil, Bool.toNat_false] at *
  omega

/-- The failure of a lexer stays. -/
theorem failure_after {failure : SyntaxError} {count later : Nat} (hle : count ≤ later)
    (hfailure : (lexer.after count).failure = some failure) :
    (lexer.after later).failure = some failure := by
  obtain ⟨rest, rfl⟩ := Nat.exists_eq_add_of_le hle
  rw [after_add, (ended_of_failure hfailure).after]
  exact hfailure

/-- A lexer has failed after some calls exactly if one of the tokens it answered is invalid. -/
theorem Reading.failure_after_iff (hreading : lexer.Reading source) (count : Nat) :
    (∃ failure, (lexer.after count).failure = some failure) ↔
      ∃ index < count, (lexer.after index).next.1.kind = .invalid := by
  induction count generalizing lexer with
  | zero => simp [after, hreading.failure_eq]
  | succ count ih =>
    rw [after]
    rcases hreading.next_cases with ⟨hvalid, hbehind⟩ | ⟨hinvalid, failure, hfailure⟩
    · rw [ih hbehind]
      constructor
      · rintro ⟨index, hindex, hkind⟩
        exact ⟨index + 1, by omega, hkind⟩
      · rintro ⟨index, hindex, hkind⟩
        cases index with
        | zero => exact absurd hkind hvalid
        | succ index => exact ⟨index, by omega, hkind⟩
    · refine iff_of_true ⟨failure, ?_⟩ ⟨0, Nat.succ_pos _, hinvalid⟩
      have hbefore : (lexer.next.2.after 0).failure = some failure := hfailure
      exact failure_after (Nat.zero_le _) hbefore

end Lexer

namespace Tokens

variable {source : String}

/-- From the end of its run on the lexer answers ends of input. -/
theorem ended_of_run_le {count : Nat} (hle : (Lexer.run source).length ≤ count) :
    (Lexer.ofSource source).after count =
        (Lexer.ofSource source).after (Lexer.run source).length ∧
      ((Lexer.ofSource source).after count).next.1 = .endOfInput source.utf8ByteSize := by
  have hreading := Lexer.ofSource_reading source
  obtain ⟨hsize, hended⟩ : ((Lexer.ofSource source).after (Lexer.run source).length).size =
      source.utf8ByteSize ∧ ((Lexer.ofSource source).after (Lexer.run source).length).Ended :=
    hreading.ended_after (Lexer.ofSource_weight_le source)
  obtain ⟨rest, rfl⟩ := Nat.exists_eq_add_of_le hle
  rw [Lexer.after_add, hended.after]
  refine ⟨rfl, ?_⟩
  rw [hended, hsize]

/-- The tokens of a source are what the lexer answers, call by call. -/
theorem get_ofSource_eq_next (source : String) (index : Nat) :
    (ofSource source).get index = ((Lexer.ofSource source).after index).next.1 := by
  rw [get_ofSource]
  cases hstep : (Lexer.run source)[index]? with
  | some step =>
    rw [← Lexer.runFor_getElem? hstep]
    rfl
  | none => exact (ended_of_run_le (List.getElem?_eq_none_iff.mp hstep)).2.symm

/-- A token sequence ends with its first end of the input. -/
theorem kind_ofSource_eq_endOfInput_iff (source : String) (index : Nat) :
    ((ofSource source).get index).kind = .endOfInput ↔
      (ofSource source).tokens.size ≤ index + 1 := by
  have hsize : (ofSource source).tokens.size = (Lexer.run source).length := by simp [ofSource]
  obtain ⟨last, hlast, hkind⟩ : ∃ step, (Lexer.run source).getLast? = some step ∧ _ :=
    (Lexer.ofSource_reading source).runFor_getLast? (Lexer.ofSource_weight_le source)
  rw [List.getLast?_eq_getElem?] at hlast
  rw [hsize, get_ofSource]
  cases hstep : (Lexer.run source)[index]? with
  | none =>
    have hle := List.getElem?_eq_none_iff.mp hstep
    exact iff_of_true rfl (by omega)
  | some step =>
    have hlt := (List.getElem?_eq_some_iff.mp hstep).1
    constructor
    · exact fun hend => Nat.le_of_eq (Lexer.runFor_endOfInput hstep hend)
    · intro hle
      obtain rfl : index = (Lexer.run source).length - 1 := by omega
      cases hstep.symm.trans hlast
      exact hkind

/-- Every source has a token, if only the end of the input. -/
theorem size_ofSource_pos (source : String) : 0 < (ofSource source).tokens.size := by
  obtain ⟨last, hlast, -⟩ : ∃ step, (Lexer.run source).getLast? = some step ∧ _ :=
    (Lexer.ofSource_reading source).runFor_getLast? (Lexer.ofSource_weight_le source)
  have hne : Lexer.run source ≠ [] := by
    intro hnil
    rw [hnil] at hlast
    cases hlast
  simpa [ofSource] using List.length_pos_iff.mpr hne

/-- Sources whose tokens are of the same kinds have as many of them. -/
theorem size_ofSource_eq {source source' : String}
    (hkind : ∀ index, ((ofSource source').get index).kind = ((ofSource source).get index).kind) :
    (ofSource source').tokens.size = (ofSource source).tokens.size := by
  have hends : ∀ index, (ofSource source').tokens.size ≤ index + 1 ↔
      (ofSource source).tokens.size ≤ index + 1 := by
    intro index
    rw [← kind_ofSource_eq_endOfInput_iff, ← kind_ofSource_eq_endOfInput_iff, hkind]
  have hpos := size_ofSource_pos source
  have hpos' := size_ofSource_pos source'
  have hle := (hends ((ofSource source).tokens.size - 1)).mpr (by omega)
  have hge := (hends ((ofSource source').tokens.size - 1)).mp (by omega)
  omega

/-- The failure that is known in the end is the one that the lexer has kept. -/
theorem failure_ofSource (source : String) :
    (ofSource source).failure =
      ((Lexer.ofSource source).after (Lexer.run source).length).failure := by
  have hlast : ∀ step, (Lexer.run source).getLast? = some step →
      step.2 = (Lexer.ofSource source).after (Lexer.run source).length := by
    intro step hstep
    rw [List.getLast?_eq_getElem?] at hstep
    have hpos : 0 < (Lexer.run source).length := by
      have hlt := (List.getElem?_eq_some_iff.mp hstep).1
      omega
    rw [Lexer.runFor_getElem? hstep, ← Lexer.after_succ, Nat.sub_add_cancel hpos]
  cases hrun : (Lexer.run source).getLast? with
  | some step => simp [ofSource, hrun, ← hlast step hrun]
  | none =>
    rw [List.getLast?_eq_none_iff.mp hrun]
    simp [ofSource, hrun, Lexer.after, Lexer.ofSource, Lexer.start]

/-- Without an invalid token there is no failure. -/
theorem failure_eq_none (hvalid : ∀ index, ((ofSource source).get index).kind ≠ .invalid) :
    (ofSource source).failure = none := by
  refine Option.eq_none_iff_forall_ne_some.mpr fun failure hfailure => ?_
  rw [failure_ofSource] at hfailure
  obtain ⟨index, -, hinvalid⟩ :=
    ((Lexer.ofSource_reading source).failure_after_iff _).mp ⟨failure, hfailure⟩
  rw [← get_ofSource_eq_next] at hinvalid
  exact hvalid index hinvalid

/-- The failure that is known behind a number of tokens is the one that the lexer then keeps. -/
theorem failureWithin_ofSource (source : String) (seen : Nat) :
    (ofSource source).failureWithin seen = ((Lexer.ofSource source).after seen).failure := by
  have hreading := Lexer.ofSource_reading source
  have hiff := hreading.failure_after_iff seen
  have hany : (ofSource source).tokens.any (fun token => token.kind = .invalid) 0 seen = true ↔
      ∃ index < seen, ((Lexer.ofSource source).after index).next.1.kind = .invalid := by
    rw [Array.any_iff_exists]
    constructor
    · rintro ⟨index, hindex, -, hseen, hkind⟩
      refine ⟨index, by omega, ?_⟩
      rw [← get_ofSource_eq_next, get, Array.getElem?_eq_getElem hindex]
      simpa using hkind
    · rintro ⟨index, hseen, hkind⟩
      rw [← get_ofSource_eq_next, get] at hkind
      cases htoken : (ofSource source).tokens[index]? with
      | none =>
        rw [htoken] at hkind
        cases hkind
      | some token =>
        obtain ⟨hindex, rfl⟩ := Array.getElem?_eq_some_iff.mp htoken
        rw [htoken] at hkind
        exact ⟨index, hindex, Nat.zero_le _, by omega, by simpa using hkind⟩
  rw [failureWithin]
  cases hfailure : ((Lexer.ofSource source).after seen).failure with
  | none =>
    have hnone : ¬(ofSource source).tokens.any (fun token => token.kind = .invalid) 0 seen := by
      rw [hany, ← hiff, hfailure]
      simp
    split
    · rfl
    · rw [if_neg hnone]
  | some failure =>
    -- The failure stays to the end of the run, or was met behind it, where the lexer changes no more.
    have hknown : (ofSource source).failure = some failure := by
      rw [failure_ofSource]
      rcases Nat.le_total seen (Lexer.run source).length with hle | hle
      · exact Lexer.failure_after hle hfailure
      · rwa [(ended_of_run_le hle).1] at hfailure
    rw [hknown]
    exact if_pos (hany.mpr (hiff.mp ⟨failure, hfailure⟩))

end Tokens

end PythonOutline
