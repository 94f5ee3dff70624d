import PythonOutline.Proofs.Lexer.Layout

/-! # The lexer finishes

Each loop of the lexer is written here as what one round of it does: the search for the next line,
the pass over text between tokens, the scans of digits and of words, those of string literals in
steps and in strides, and the reading of lines that hold no token. `Loop` says that rounds lead from
a state to a result and that every round but the last moves the cursor over text. All scanners are
such loops, from any state. So is the reading of lines wherever calls of the lexer lead, and these
calls come to the end of the input and stay there. -/

namespace PythonOutline

/-- A cursor moves to a later one over at least one character. -/
def Cursor.Advances (cursor later : Cursor) : Prop :=
  ∃ text, text ≠ [] ∧ cursor.Passes text later

namespace Cursor

variable {cursor later : Cursor}

private theorem advances_cons (c : Char) (cs : List Char) (offset : Nat) :
    (⟨c :: cs, offset⟩ : Cursor).Advances ⟨cs, offset + c.utf8Size⟩ :=
  ⟨[c], by simp, (Passes.refl _).cons⟩

/-- A cursor that was reached at a greater offset is an advance. -/
theorem Reaches.advances (hreaches : cursor.Reaches later) (hlt : cursor.offset < later.offset) :
    cursor.Advances later := by
  obtain ⟨text, hpasses⟩ := hreaches
  refine ⟨text, ?_, hpasses⟩
  rintro rfl
  have hoffset := hpasses.offset_eq
  rw [Text.byteLength_nil] at hoffset
  omega

end Cursor

/-! ## Loops -/

/-- What one round of a loop comes to: the result of the loop, or the state of the next round. -/
inductive Round (σ ρ : Type) where
  | done (result : ρ)
  | again (state : σ)

/-- The rounds of a loop lead from a state to a result, and every round but the last moves the
cursor of its state. -/
inductive Loop {σ ρ : Type} (round : σ → Round σ ρ) (cursor : σ → Cursor) : σ → ρ → Prop where
  | done {state : σ} {result : ρ} (hround : round state = .done result) :
      Loop round cursor state result
  | again {state next : σ} {result : ρ} (hround : round state = .again next)
      (hprogress : (cursor state).Advances (cursor next)) (hrest : Loop round cursor next result) :
      Loop round cursor state result

/-! ## The search for a line -/

/-- A state of the search for the next line. -/
structure LineStart.Search where
  inComment : Bool
  /-- The offset of the current line. -/
  start : Nat
  /-- The width of its blanks so far. -/
  width : IndentWidth
  cursor : Cursor

namespace LineStart

/-- One round of the search: a character of a line that holds no token, or the end of the search. -/
def round (search : Search) : Round Search LineStart :=
  match search.cursor.rest with
  | [] => .done (.none search.cursor)
  | c :: _ =>
    let behind := search.cursor.advance
    if EndsLine c then .again ⟨false, behind.offset, .zero, behind⟩
    else if search.inComment then .again { search with cursor := behind }
    else if c = ' ' then .again { search with width := search.width.addSpace, cursor := behind }
    else if c = '\t' then .again { search with width := search.width.addTab, cursor := behind }
    else if c = '\x0c' then .again { search with width := .zero, cursor := behind }
    else if c = '#' then .again { search with inComment := true, cursor := behind }
    else .done (.line search.start search.width search.cursor)

/-- The search for a line with tokens is the loop of its rounds. -/
private theorem findFrom_loop (inComment : Bool) (start : Nat) (width : IndentWidth)
    (cs : List Char) (offset : Nat) :
    Loop round Search.cursor ⟨inComment, start, width, ⟨cs, offset⟩⟩
      (findFrom inComment start width cs offset) := by
  fun_induction findFrom inComment start width cs offset with
  | case1 => exact .done rfl
  | case2 inComment start width c cs offset hline ih =>
    have hsize : c.utf8Size = 1 := by rcases hline with rfl | rfl <;> rfl
    rw [← hsize] at ih ⊢
    exact .again (by simp [round, EndsLine, hline, Cursor.advance])
      (Cursor.advances_cons c cs offset) ih
  | case3 start width c cs offset hline ih =>
    exact .again (by simp [round, EndsLine, hline, Cursor.advance])
      (Cursor.advances_cons c cs offset) ih
  | case4 inComment start width cs offset hcomment _ ih =>
    obtain rfl : inComment = false := by simpa using hcomment
    exact .again rfl (Cursor.advances_cons ' ' cs offset) ih
  | case5 inComment start width cs offset hcomment _ _ ih =>
    obtain rfl : inComment = false := by simpa using hcomment
    exact .again rfl (Cursor.advances_cons '\t' cs offset) ih
  | case6 inComment start width cs offset hcomment _ _ _ ih =>
    obtain rfl : inComment = false := by simpa using hcomment
    exact .again rfl (Cursor.advances_cons '\x0c' cs offset) ih
  | case7 inComment start width cs offset hcomment _ _ _ _ ih =>
    obtain rfl : inComment = false := by simpa using hcomment
    exact .again rfl (Cursor.advances_cons '#' cs offset) ih
  | case8 inComment start width c cs offset hline hcomment hspace htab hfeed hsign =>
    exact .done (by simp [round, EndsLine, hline, hcomment, hspace, htab, hfeed, hsign])

end LineStart

/-! ## Text between tokens -/

/-- A state of the pass over text between tokens. -/
structure TriviaPass where
  inComment : Bool
  cursor : Cursor

/-- One round of the pass: a character that separates tokens, a backslash together with the line
break behind it, or the end of the pass. -/
def TriviaPass.round (inBrackets : Bool) (pass : TriviaPass) :
    Round TriviaPass (Except LexFailure Cursor) :=
  match pass.cursor with
  | ⟨[], offset⟩ => .done (.ok ⟨[], offset⟩)
  | ⟨c :: cs, offset⟩ =>
    let behind : Cursor := ⟨cs, offset + c.utf8Size⟩
    if EndsLine c then
      if inBrackets then .again ⟨false, behind⟩ else .done (.ok pass.cursor)
    else if pass.inComment then .again ⟨true, behind⟩
    else if Text.blanks.contains c then .again ⟨false, behind⟩
    else if c = '#' then .again ⟨true, behind⟩
    else if c = '\\' then
      match behind.skipLineBreak? with
      | some next => .again ⟨false, next⟩
      | none =>
        let cause := if cs.isEmpty then SyntaxCause.unexpectedEnd else .invalidCharacter
        .done (.error ⟨Span.error ⟨offset, offset + 1⟩ cause, behind⟩)
    else .done (.ok pass.cursor)

/-- Skipping trivia is the loop of its rounds, one for each case of the recursion. -/
private theorem skipTriviaFrom_loop (inBrackets inComment : Bool) (cs : List Char) (offset : Nat) :
    Loop (TriviaPass.round inBrackets) TriviaPass.cursor ⟨inComment, ⟨cs, offset⟩⟩
      (skipTriviaFrom inBrackets inComment cs offset) := by
  -- A backslash is passed together with the line break behind it.
  have hjoin : ∀ {inComment : Bool} {behind : List Char} {offset : Nat} {stop : Cursor}
      {result : Except LexFailure Cursor}, ¬inComment = true →
      (⟨behind, offset + 1⟩ : Cursor).skipLineBreak? = some stop →
      Loop (TriviaPass.round inBrackets) TriviaPass.cursor ⟨false, stop⟩ result →
      Loop (TriviaPass.round inBrackets) TriviaPass.cursor
        ⟨inComment, ⟨'\\' :: behind, offset⟩⟩ result := by
    intro inComment behind offset stop result hcomment hbreak hrest
    obtain ⟨text, hpasses, -⟩ := Lexer.skipLineBreak?_passes hbreak
    refine .again ?_ ⟨'\\' :: text, by simp, hpasses.cons⟩ hrest
    have hblank : Text.blanks.contains '\\' = false := by decide
    have hsize : '\\'.utf8Size = 1 := rfl
    simp [TriviaPass.round, EndsLine, hcomment, hblank, hsize, hbreak]
  fun_induction skipTriviaFrom inBrackets inComment cs offset with
  | case1 => exact .done rfl
  | case2 inComment c cs offset hline hbrackets ih =>
    have hsize : c.utf8Size = 1 := by rcases hline with rfl | rfl <;> rfl
    rw [← hsize] at ih ⊢
    exact .again (by simp [TriviaPass.round, EndsLine, hline, hbrackets])
      (Cursor.advances_cons c cs offset) ih
  | case3 inComment c cs offset hline hbrackets =>
    exact .done (by simp [TriviaPass.round, EndsLine, hline, hbrackets])
  | case4 c cs offset hline ih =>
    exact .again (by simp [TriviaPass.round, EndsLine, hline]) (Cursor.advances_cons c cs offset) ih
  | case5 inComment c cs offset hline hcomment hblank ih =>
    exact .again (by simp [TriviaPass.round, EndsLine, hline, hcomment, hblank])
      (Cursor.advances_cons c cs offset) ih
  | case6 inComment cs offset hcomment _ _ ih =>
    obtain rfl : inComment = false := by simpa using hcomment
    exact .again rfl (Cursor.advances_cons '#' cs offset) ih
  | case7 inComment offset hcomment after _ _ _ ih => exact hjoin hcomment rfl ih
  | case8 inComment offset hcomment after hfeed _ _ _ ih =>
    refine hjoin hcomment ?_ ih
    simp [Cursor.skipLineBreak?]
  | case9 inComment offset hcomment after _ _ _ ih => exact hjoin hcomment rfl ih
  | case10 inComment offset hcomment =>
    obtain rfl : inComment = false := by simpa using hcomment
    exact .done rfl
  | case11 inComment cs offset hcomment _ hreturn hfeed hend =>
    refine .done ?_
    have hblank : Text.blanks.contains '\\' = false := by decide
    have hsize : '\\'.utf8Size = 1 := rfl
    have hbreak : (⟨cs, offset + 1⟩ : Cursor).skipLineBreak? = none := by
      unfold Cursor.skipLineBreak?
      split <;> simp_all
    have hempty : cs.isEmpty = false := by simpa using hend
    simp [TriviaPass.round, EndsLine, hcomment, hblank, hsize, hbreak, hempty]
  | case12 inComment c cs offset hline hcomment hblank hsign hbackslash =>
    exact .done (by simp [TriviaPass.round, EndsLine, hline, hcomment, hblank, hsign, hbackslash])

/-! ## Runs of digits and of letters -/

/-- A state of the pass over digits. -/
structure DigitPass where
  seenDigit : Bool
  lastSeparator : Bool
  cursor : Cursor

/-- One round of the pass: a digit or an underscore, or the end of the pass. -/
def DigitPass.round (digits : Text.CharSet) (pass : DigitPass) : Round DigitPass (Bool × Cursor) :=
  match pass.cursor with
  | ⟨[], _⟩ => .done (pass.seenDigit && !pass.lastSeparator, pass.cursor)
  | ⟨c :: cs, offset⟩ =>
    let behind : Cursor := ⟨cs, offset + c.utf8Size⟩
    if digits.contains c then .again ⟨true, false, behind⟩
    else if c = '_' ∧ pass.seenDigit ∧ ¬pass.lastSeparator then .again ⟨true, true, behind⟩
    else .done (pass.seenDigit && !pass.lastSeparator, pass.cursor)

private theorem scanDigitsFrom_loop (digits : Text.CharSet) (seenDigit lastSeparator : Bool)
    (cs : List Char) (offset : Nat) :
    Loop (DigitPass.round digits) DigitPass.cursor ⟨seenDigit, lastSeparator, ⟨cs, offset⟩⟩
      (scanDigitsFrom digits seenDigit lastSeparator cs offset) := by
  fun_induction scanDigitsFrom digits seenDigit lastSeparator cs offset with
  | case1 => exact .done rfl
  | case2 seenDigit lastSeparator c cs offset hdigit ih =>
    exact .again (by simp [DigitPass.round, hdigit]) (Cursor.advances_cons c cs offset) ih
  | case3 seenDigit lastSeparator c cs offset hdigit hseparator ih =>
    have hsize : c.utf8Size = 1 := by rw [hseparator.1]; rfl
    rw [← hsize] at ih ⊢
    exact .again (by simp only [DigitPass.round, if_neg hdigit, if_pos hseparator])
      (Cursor.advances_cons c cs offset) ih
  | case4 seenDigit lastSeparator c cs offset hdigit hseparator =>
    exact .done (by simp only [DigitPass.round, if_neg hdigit, if_neg hseparator])

/-- One round of the pass over characters of a class. -/
def Cursor.runRound (inClass : Char → Bool) (cursor : Cursor) : Round Cursor Cursor :=
  if cursor.peek?.any inClass then .again cursor.advance else .done cursor

private theorem Cursor.skipRun_loop (inClass : Char → Bool) (cs : List Char) (offset : Nat) :
    Loop (runRound inClass) id ⟨cs, offset⟩ (skipRun inClass cs offset) := by
  fun_induction skipRun inClass cs offset with
  | case1 => exact .done rfl
  | case2 c cs offset hc ih =>
    exact .again (by simp [runRound, peek?, hc, advance]) (advances_cons c cs offset) ih
  | case3 c cs offset hc => exact .done (by simp [runRound, peek?, hc])

/-! ## String literals -/

/-- A state of the scan of a string literal: the characters that are still taken along with an
earlier one, and the open modes. -/
structure StringPass where
  skip : Nat
  modes : List StringMode
  cursor : Cursor

/-- One round of the scan: a character that is taken along, one that the innermost mode decides
about, or the end of the scan. -/
def StringPass.round : StringPass → Round StringPass StringScan
  | ⟨0, [], cursor⟩ => .done (.closed cursor)
  | ⟨_, _, ⟨[], offset⟩⟩ => .done (.unterminated ⟨[], offset⟩)
  | ⟨skip + 1, modes, ⟨c :: cs, offset⟩⟩ => .again ⟨skip, modes, ⟨cs, offset + c.utf8Size⟩⟩
  | ⟨0, mode :: outer, ⟨c :: cs, offset⟩⟩ =>
    match mode.step outer c cs with
    | none => .done (.unterminated ⟨c :: cs, offset⟩)
    | some (skip, modes) => .again ⟨skip, modes, ⟨cs, offset + c.utf8Size⟩⟩

private theorem scanStringFrom_loop (skip : Nat) (modes : List StringMode) (cs : List Char)
    (offset : Nat) :
    Loop StringPass.round StringPass.cursor ⟨skip, modes, ⟨cs, offset⟩⟩
      (scanStringFrom skip modes cs offset) := by
  fun_induction scanStringFrom skip modes cs offset with
  | case1 => exact .done rfl
  | case2 skip modes offset hopen =>
    refine .done ?_
    unfold StringPass.round
    split <;> simp_all
  | case3 skip modes c cs offset ih => exact .again rfl (Cursor.advances_cons c cs offset) ih
  | case4 mode outer c cs offset hstep => exact .done (by simp [StringPass.round, hstep])
  | case5 mode outer c cs offset skip modes hstep ih =>
    exact .again (by simp [StringPass.round, hstep]) (Cursor.advances_cons c cs offset) ih

/-- A state of the scan of a string literal in strides. -/
structure LiteralPass where
  modes : List StringMode
  cursor : Cursor

/-- One round of the scan: the stride that the innermost mode makes, or the end of the scan. There is
no answer where the bytes of a stride end within a character or behind the text. -/
def LiteralPass.round : LiteralPass → Round LiteralPass (Option StringScan)
  | ⟨[], cursor⟩ => .done (some (.closed cursor))
  | ⟨_ :: _, ⟨[], offset⟩⟩ => .done (some (.unterminated ⟨[], offset⟩))
  | ⟨mode :: outer, ⟨c :: cs, offset⟩⟩ =>
    match mode.stride outer c cs with
    | none => .done (some (.unterminated ⟨c :: cs, offset⟩))
    | some (due, modes) =>
      match Text.dropBytes? due (c :: cs) with
      | none => .done none
      | some rest => .again ⟨modes, ⟨rest, offset + due⟩⟩

/-- The strides of a scan come to an answer, and each of them passes text. -/
theorem scanLiteralFrom_loop (modes : List StringMode) (cs : List Char) (offset : Nat) :
    ∃ scan, scanLiteralFrom 0 modes cs offset = some scan ∧
      Loop LiteralPass.round LiteralPass.cursor ⟨modes, ⟨cs, offset⟩⟩ (some scan) := by
  induction hlength : cs.length using Nat.strongRecOn generalizing modes cs offset with
  | ind length ih =>
    match modes, cs with
    | [], cs => exact ⟨.closed ⟨cs, offset⟩, by rw [scanLiteralFrom], .done rfl⟩
    | mode :: outer, [] => exact ⟨.unterminated ⟨[], offset⟩, by simp [scanLiteralFrom], .done rfl⟩
    | mode :: outer, c :: cs =>
      cases hstride : mode.stride outer c cs with
      | none =>
        refine ⟨.unterminated ⟨c :: cs, offset⟩, by rw [scanLiteralFrom, hstride], .done ?_⟩
        simp [LiteralPass.round, hstride]
      | some result =>
        obtain ⟨due, modes⟩ := result
        obtain ⟨taken, rest, rfl, rfl⟩ := StringMode.stride_passes hstride
        have hshorter : rest.length < length := by
          rw [← hlength, List.length_cons, List.length_append]
          omega
        have hdrop : Text.dropBytes? (Text.byteLength (c :: taken)) (c :: (taken ++ rest)) =
            some rest := Text.dropBytes?_append (c :: taken) rest
        obtain ⟨scan, hscan, hrest⟩ :=
          ih _ hshorter modes rest (offset + Text.byteLength (c :: taken)) rfl
        refine ⟨scan, (scanLiteralFrom_stride rfl hstride offset).trans hscan, .again ?_ ?_ hrest⟩
        · simp only [LiteralPass.round, hstride, hdrop]
        · exact ⟨c :: taken, List.cons_ne_nil _ _, rfl, rfl⟩

/-! ## Lines without tokens -/

namespace Lexer

variable {source : List Char} {lexer : Lexer}

/-- One round of reading lines: a line without tokens, or a token, or a failure. -/
def lineRound (lexer : Lexer) : Round Lexer (Except LexFailure (Token × Lexer)) :=
  match lexer.readLineStart with
  | .error failure => .done (.error failure)
  | .ok (some token, behind) => .done (.ok (token, behind))
  | .ok (none, entered) =>
    match entered.readWithin with
    | .error failure => .done (.error failure)
    | .ok (some token, behind) => .done (.ok (token, behind))
    | .ok (none, behind) => .again behind

/-- What a call finds is the result of its loop over lines, in which every round moves the
cursor. -/
theorem Finds.loop {result : Except LexFailure (Token × Lexer)} (hfinds : lexer.Finds result)
    (hreading : lexer.Reading source) : Loop lineRound cursor lexer result := by
  induction hfinds with
  | indentation hstart => exact .done (by simp [lineRound, hstart])
  | level hstart => exact .done (by simp [lineRound, hstart])
  | failing hstart hwithin => exact .done (by simp [lineRound, hstart, hwithin])
  | token hstart hwithin => exact .done (by simp [lineRound, hstart, hwithin])
  | line hstart hwithin _ ih =>
    have hattempt := readLineStart_attempt hreading
    rw [hstart] at hattempt
    obtain ⟨hseparates, hentered⟩ := hattempt
    obtain ⟨hattempt, hprogress⟩ := readWithin_attempt hentered
    rw [hwithin] at hattempt
    obtain ⟨hskipped, hbehind⟩ := hattempt
    have hlt := Nat.lt_of_le_of_lt hseparates.offset_le (hprogress _ hwithin)
    exact .again (by simp [lineRound, hstart, hwithin])
      ((hseparates.trans hskipped).reaches.advances hlt) (ih hbehind)

private theorem length_runFor_le (fuel : Nat) (lexer : Lexer) :
    (runFor fuel lexer).length ≤ fuel := by
  induction fuel generalizing lexer with
  | zero => exact Nat.le_refl _
  | succ fuel ih =>
    have hrest := ih lexer.next.2
    rw [runFor]
    dsimp only
    split
    · simp
    · rw [List.length_cons]
      omega

/-- A lexer that answers the end of the input answers it again. -/
theorem next_next_of_endOfInput (hlexer : lexer.Reading source ∨ lexer.Ended)
    (hkind : lexer.next.1.kind = .endOfInput) : lexer.next.2.next.1 = lexer.next.1 := by
  rcases hlexer with hreading | hended
  · rcases hreading.next_ended with ⟨hreadable, -⟩ | ⟨htoken, hsize, hended⟩ | ⟨hinvalid, -⟩
    · exact absurd hkind hreadable.2
    · rw [hended, htoken, hsize]
    · rw [hkind] at hinvalid
      cases hinvalid
  · rw [hended, hended]

/-- A source of `n` bytes is lexed by at most `2 * n + 3` calls: one of them is the first to answer
the end of the input, and from it on all do. -/
theorem ofSource_calls (source : String) :
    ∃ calls < 2 * source.utf8ByteSize + 3,
      (∀ earlier < calls, ((ofSource source).after earlier).next.1.kind ≠ .endOfInput) ∧
      ∀ later ≥ calls, ((ofSource source).after later).next.1 = .endOfInput source.utf8ByteSize := by
  have hreading := ofSource_reading source
  have hsize : (Tokens.ofSource source).tokens.size = (run source).length := by simp [Tokens.ofSource]
  have hpos := Tokens.size_ofSource_pos source
  have hlength : (run source).length ≤ 2 * source.utf8ByteSize + 3 := length_runFor_le _ _
  have hends : ∀ calls, ((ofSource source).after calls).next.1.kind = .endOfInput ↔
      (run source).length ≤ calls + 1 := by
    intro calls
    rw [← Tokens.get_ofSource_eq_next, Tokens.kind_ofSource_eq_endOfInput_iff, hsize]
  refine ⟨(run source).length - 1, by omega, ?_, ?_⟩
  · intro earlier hearlier hkind
    have hle := (hends earlier).mp hkind
    omega
  · intro later hlater
    have hle : (run source).length ≤ later + 1 := by omega
    have hagain := next_next_of_endOfInput (hreading.reading_after later) ((hends later).mpr hle)
    rw [← hagain, ← after_succ]
    exact (Tokens.ended_of_run_le hle).2

/-- The lexer finishes on every source, and each of its loops moves on in every round. String literals
are scanned in strides, each of which passes text up to a character, and step by step alike. -/
theorem ofSource_finishes (source : String) :
    (∃ calls < 2 * source.utf8ByteSize + 3,
      (∀ earlier < calls, ((ofSource source).after earlier).next.1.kind ≠ .endOfInput) ∧
      ∀ later ≥ calls, ((ofSource source).after later).next.1.kind = .endOfInput ∧
        ((ofSource source).after later).next.1.span =
          ⟨source.utf8ByteSize, source.utf8ByteSize⟩) ∧
    (∀ calls, ((ofSource source).after calls).failure = none →
      ((ofSource source).after calls).pendingDedents = 0 →
      Loop lineRound cursor ((ofSource source).after calls) ((ofSource source).after calls).read) ∧
    (∀ inComment start width cs offset,
      Loop LineStart.round LineStart.Search.cursor ⟨inComment, start, width, ⟨cs, offset⟩⟩
        (LineStart.findFrom inComment start width cs offset)) ∧
    (∀ inBrackets inComment cs offset,
      Loop (TriviaPass.round inBrackets) TriviaPass.cursor ⟨inComment, ⟨cs, offset⟩⟩
        (skipTriviaFrom inBrackets inComment cs offset)) ∧
    (∀ digits seenDigit lastSeparator cs offset,
      Loop (DigitPass.round digits) DigitPass.cursor ⟨seenDigit, lastSeparator, ⟨cs, offset⟩⟩
        (scanDigitsFrom digits seenDigit lastSeparator cs offset)) ∧
    (∀ inClass cs offset,
      Loop (Cursor.runRound inClass) id ⟨cs, offset⟩ (Cursor.skipRun inClass cs offset)) ∧
    (∀ skip modes cs offset,
      Loop StringPass.round StringPass.cursor ⟨skip, modes, ⟨cs, offset⟩⟩
        (scanStringFrom skip modes cs offset)) ∧
    ∀ modes cs offset, ∃ scan, scanLiteralFrom 0 modes cs offset = some scan ∧
      Loop LiteralPass.round LiteralPass.cursor ⟨modes, ⟨cs, offset⟩⟩ (some scan) := by
  refine ⟨?_, ?_, LineStart.findFrom_loop, skipTriviaFrom_loop, scanDigitsFrom_loop,
    Cursor.skipRun_loop, scanStringFrom_loop, scanLiteralFrom_loop⟩
  · obtain ⟨calls, hcalls, hbefore, hfrom⟩ := ofSource_calls source
    refine ⟨calls, hcalls, hbefore, fun later hlater => ?_⟩
    rw [hfrom later hlater]
    exact ⟨rfl, rfl⟩
  · intro calls hfailure hpending
    have hreading := (ofSource_reading source).reading_after_of_failure hfailure
    rcases read_cases hreading with ⟨pendingDedents, hdue, -⟩ | ⟨-, hfinds⟩
    · rw [hpending] at hdue
      cases hdue
    · exact hfinds.loop hreading

end Lexer

end PythonOutline
