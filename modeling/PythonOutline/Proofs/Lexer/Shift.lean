import PythonOutline.Proofs.Lexer.LineBreak
import PythonOutline.Proofs.Lexer.Run

/-! # Reading further on

The lexer looks at offsets only to tell where something stands. A text that starts a number
of bytes further on is therefore read in the same way: all tokens, all brackets that are kept
and all errors stand that many bytes further on, and nothing else changes
(`Lexer.next_shift`, `Lexer.after_shift`). -/

namespace PythonOutline

/-- A result with another value or another error. -/
def changeResult {ε ε' α α' : Type} (onError : ε → ε') (onValue : α → α') : Except ε α → Except ε' α'
  | .ok value => .ok (onValue value)
  | .error error => .error (onError error)

/-- One step after another, each of which is changed. -/
theorem changeResult_bind {ε ε' α α' β β' : Type} {onError : ε → ε'} {onValue : α → α'}
    {onResult : β → β'} {first : Except ε α} {first' : Except ε' α'} {others : α → Except ε β}
    {others' : α' → Except ε' β'} (hfirst : first' = changeResult onError onValue first)
    (hothers : ∀ value, others' (onValue value) = changeResult onError onResult (others value)) :
    (first' >>= others') = changeResult onError onResult (first >>= others) := by
  subst hfirst
  cases first with
  | ok value => exact hothers value
  | error error => rfl

/-- The same with a choice in the first step. -/
theorem changeResult_iteBind {ε ε' α α' β β' : Type} {onError : ε → ε'} {onValue : α → α'}
    {onResult : β → β'} {choice : Prop} [Decidable choice] {first second : Except ε α}
    {first' second' : Except ε' α'} {others : α → Except ε β} {others' : α' → Except ε' β'}
    (hfirst : first' = changeResult onError onValue first)
    (hsecond : second' = changeResult onError onValue second)
    (hothers : ∀ value, others' (onValue value) = changeResult onError onResult (others value)) :
    (if choice then first' >>= others' else second' >>= others') =
      changeResult onError onResult (if choice then first >>= others else second >>= others) := by
  split
  · exact changeResult_bind hfirst hothers
  · exact changeResult_bind hsecond hothers

/-- The span of a text that starts some bytes further on. -/
def Span.shift (distance : Nat) (span : Span) : Span :=
  ⟨span.start + distance, span.stop + distance⟩

/-- The same error some bytes further on. -/
def SyntaxError.shift (distance : Nat) (error : SyntaxError) : SyntaxError :=
  { error with span := error.span.shift distance }

/-- The same token some bytes further on. -/
def Token.shift (distance : Nat) (token : Token) : Token :=
  { token with span := token.span.shift distance }

/-- The same text some bytes further on. -/
def Cursor.shift (distance : Nat) (cursor : Cursor) : Cursor :=
  { cursor with offset := cursor.offset + distance }

/-- The same failure some bytes further on. -/
def LexFailure.shift (distance : Nat) (failure : LexFailure) : LexFailure :=
  ⟨failure.error.shift distance, failure.stop.shift distance⟩

variable {distance : Nat}

/-! ## Cursors -/

namespace Cursor

@[simp]
theorem rest_shift (cursor : Cursor) : (cursor.shift distance).rest = cursor.rest :=
  rfl

@[simp]
theorem offset_shift (cursor : Cursor) :
    (cursor.shift distance).offset = cursor.offset + distance :=
  rfl

@[simp]
theorem peek?_shift (cursor : Cursor) : (cursor.shift distance).peek? = cursor.peek? :=
  rfl

@[simp]
theorem advance_shift (cursor : Cursor) :
    (cursor.shift distance).advance = cursor.advance.shift distance := by
  obtain ⟨rest, offset⟩ := cursor
  cases rest with
  | nil => rfl
  | cons c cs => simp [shift, advance, Nat.add_right_comm]

@[simp]
theorem advanceBy_shift (cursor : Cursor) (count : Nat) :
    (cursor.shift distance).advanceBy count = (cursor.advanceBy count).shift distance := by
  induction count generalizing cursor with
  | zero => rfl
  | succ count ih => rw [advanceBy, advanceBy, advance_shift, ih]

@[simp]
theorem textTo_shift (cursor later : Cursor) :
    (cursor.shift distance).textTo (later.shift distance) = cursor.textTo later := by
  simp [textTo, shift, Nat.add_sub_add_right]

private theorem skipRun_shift (inClass : Char → Bool) (cs : List Char) (offset : Nat) :
    skipRun inClass cs (offset + distance) = (skipRun inClass cs offset).shift distance := by
  induction cs generalizing offset with
  | nil => rfl
  | cons c cs ih =>
    rw [skipRun, skipRun]
    split
    · rw [Nat.add_right_comm, ih]
    · rfl

@[simp]
theorem skipWhile_shift (cursor : Cursor) (inClass : Char → Bool) :
    (cursor.shift distance).skipWhile inClass = (cursor.skipWhile inClass).shift distance :=
  skipRun_shift inClass cursor.rest cursor.offset

private theorem skipLineBreak?_shift (cursor : Cursor) :
    (cursor.shift distance).skipLineBreak? = cursor.skipLineBreak?.map (shift distance) := by
  obtain ⟨rest, offset⟩ := cursor
  unfold skipLineBreak?
  simp only [shift]
  split
  · rename_i heq
    obtain ⟨rfl, rfl⟩ := Cursor.mk.inj heq
    simp [shift, Nat.add_right_comm]
  · rename_i heq
    obtain ⟨rfl, rfl⟩ := Cursor.mk.inj heq
    simp [shift, Nat.add_right_comm]
  · rename_i hfeed heq
    obtain ⟨rfl, rfl⟩ := Cursor.mk.inj heq
    simp [shift, Nat.add_right_comm]
  · simp_all

end Cursor

/-! ## Scanners -/

private theorem scanDigitsFrom_shift (digits : Text.CharSet) (seenDigit lastSeparator : Bool)
    (cs : List Char) (offset : Nat) :
    scanDigitsFrom digits seenDigit lastSeparator cs (offset + distance) =
      ((scanDigitsFrom digits seenDigit lastSeparator cs offset).1,
        (scanDigitsFrom digits seenDigit lastSeparator cs offset).2.shift distance) := by
  induction cs generalizing seenDigit lastSeparator offset with
  | nil => rfl
  | cons c cs ih =>
    rw [scanDigitsFrom, scanDigitsFrom]
    split
    · rw [Nat.add_right_comm, ih]
    · split
      · rw [Nat.add_right_comm, ih]
      · rfl

/-- Two scans that end at the same place, one of them some bytes further on. -/
abbrev shiftResult (distance : Nat) : Except Cursor Cursor → Except Cursor Cursor :=
  changeResult (Cursor.shift distance) (Cursor.shift distance)

variable (digits : Text.CharSet) (cursor : Cursor)

private theorem scanDigits_shift :
    scanDigits digits (cursor.shift distance) = shiftResult distance (scanDigits digits cursor) := by
  have hscan := @scanDigitsFrom_shift distance digits false false cursor.rest cursor.offset
  simp only [scanDigits, Cursor.shift, hscan]
  split <;> rfl

private theorem scanRadixDigits_shift :
    scanRadixDigits digits (cursor.shift distance) =
      shiftResult distance (scanRadixDigits digits cursor) := by
  obtain ⟨rest, offset⟩ := cursor
  have hscan := @scanDigitsFrom_shift distance digits false true rest.tail (offset + 1)
  rw [Cursor.shift, scanRadixDigits_eq, scanRadixDigits_eq]
  split
  · simp only [Nat.add_right_comm offset distance 1, hscan]
    split <;> rfl
  · exact scanDigits_shift digits ⟨rest, offset⟩

private theorem scanOptionalDigits_shift :
    scanOptionalDigits (cursor.shift distance) = shiftResult distance (scanOptionalDigits cursor) := by
  rw [scanOptionalDigits, scanOptionalDigits, Cursor.peek?_shift]
  split
  · exact scanDigits_shift _ cursor
  · rfl

private theorem scanRadixNumber_shift :
    scanRadixNumber digits (cursor.shift distance) =
      shiftResult distance (scanRadixNumber digits cursor) := by
  rw [scanRadixNumber, scanRadixNumber, Cursor.advanceBy_shift]
  refine changeResult_bind (scanRadixDigits_shift digits _) fun stop => ?_
  rw [Cursor.peek?_shift, Cursor.advance_shift]
  split <;> rfl

private theorem scanExponent_shift :
    scanExponent (cursor.shift distance) = shiftResult distance (scanExponent cursor) := by
  simp only [scanExponent, Cursor.advance_shift, Cursor.peek?_shift]
  split
  · exact scanDigits_shift _ _
  · exact scanDigits_shift _ _

private theorem scanDecimalNumber_shift :
    scanDecimalNumber (cursor.shift distance) = shiftResult distance (scanDecimalNumber cursor) := by
  unfold scanDecimalNumber
  refine changeResult_bind (scanOptionalDigits_shift cursor) fun integer => ?_
  simp only [Cursor.peek?_shift, Cursor.advance_shift, Cursor.textTo_shift]
  refine changeResult_iteBind (scanOptionalDigits_shift _) rfl fun fraction => ?_
  refine changeResult_iteBind (scanExponent_shift _) rfl fun exponent => ?_
  simp only [Cursor.peek?_shift, Cursor.advance_shift, Cursor.rest_shift]
  by_cases hunit : exponent.peek? = some 'j' ∨ exponent.peek? = some 'J'
  · simp only [hunit, if_true]
    split <;> rfl
  · simp only [hunit, if_false]
    split <;> rfl

private theorem scanNumber_shift :
    scanNumber (cursor.shift distance) = shiftResult distance (scanNumber cursor) := by
  unfold scanNumber
  dsimp only [Cursor.shift]
  split
  · exact scanRadixNumber_shift _ cursor
  · exact scanDecimalNumber_shift cursor

/-- The same end of a scan some bytes further on. -/
def StringScan.shift (distance : Nat) : StringScan → StringScan
  | .closed stop => .closed (stop.shift distance)
  | .unterminated stop => .unterminated (stop.shift distance)

private theorem scanStringFrom_shift (skip : Nat) (modes : List StringMode) (cs : List Char)
    (offset : Nat) :
    scanStringFrom skip modes cs (offset + distance) =
      (scanStringFrom skip modes cs offset).shift distance := by
  fun_induction scanStringFrom skip modes cs offset with
  | case1 => rw [scanStringFrom]; rfl
  | case2 skip modes offset hopen =>
    unfold scanStringFrom
    split <;> simp_all [StringScan.shift, Cursor.shift]
  | case3 skip modes c cs offset ih => rw [scanStringFrom, Nat.add_right_comm, ih]
  | case4 mode outer c cs offset hstep => rw [scanStringFrom, hstep]; rfl
  | case5 mode outer c cs offset skip modes hstep ih =>
    rw [scanStringFrom, hstep, Nat.add_right_comm]
    exact ih

private theorem scanString_shift (formatted : Bool) :
    scanString formatted (cursor.shift distance) = (scanString formatted cursor).shift distance := by
  obtain ⟨rest, offset⟩ := cursor
  cases rest with
  | nil => rfl
  | cons quote cs =>
    simp only [scanString, Cursor.shift, Nat.add_right_comm offset distance, scanStringFrom_shift]

/-- The same start of a line some bytes further on. -/
def LineStart.shift (distance : Nat) : LineStart → LineStart
  | .none stop => .none (stop.shift distance)
  | .line start width stop => .line (start + distance) width (stop.shift distance)

private theorem LineStart.findFrom_shift (inComment : Bool) (start : Nat) (width : IndentWidth)
    (cs : List Char) (offset : Nat) :
    findFrom inComment (start + distance) width cs (offset + distance) =
      (findFrom inComment start width cs offset).shift distance := by
  fun_induction findFrom inComment start width cs offset with
  | case1 => rfl
  | case2 inComment start width c cs offset hline ih =>
    rw [findFrom, if_pos hline, Nat.add_right_comm, ih]
  | case3 start width c cs offset hline ih =>
    rw [findFrom, if_neg hline, if_pos rfl, Nat.add_right_comm, ih]
  | case4 inComment start width cs offset hcomment _ ih =>
    obtain rfl : inComment = false := by simpa using hcomment
    rw [Nat.add_right_comm] at ih
    exact ih
  | case5 inComment start width cs offset hcomment _ _ ih =>
    obtain rfl : inComment = false := by simpa using hcomment
    rw [Nat.add_right_comm] at ih
    exact ih
  | case6 inComment start width cs offset hcomment _ _ _ ih =>
    obtain rfl : inComment = false := by simpa using hcomment
    rw [Nat.add_right_comm] at ih
    exact ih
  | case7 inComment start width cs offset hcomment _ _ _ _ ih =>
    obtain rfl : inComment = false := by simpa using hcomment
    rw [Nat.add_right_comm] at ih
    exact ih
  | case8 inComment start width c cs offset hline hcomment hspace htab hfeed hsign =>
    rw [findFrom]
    simp [hline, hcomment, hspace, htab, hfeed, hsign]
    rfl

private theorem LineStart.find_shift :
    find (cursor.shift distance) = (find cursor).shift distance :=
  findFrom_shift false cursor.offset .zero cursor.rest cursor.offset

/-- The same result of passing text between tokens some bytes further on. -/
abbrev shiftTrivia (distance : Nat) : Except LexFailure Cursor → Except LexFailure Cursor :=
  changeResult (LexFailure.shift distance) (Cursor.shift distance)

private theorem skipTriviaFrom_shift (inBrackets inComment : Bool) (cs : List Char) (offset : Nat) :
    skipTriviaFrom inBrackets inComment cs (offset + distance) =
      shiftTrivia distance (skipTriviaFrom inBrackets inComment cs offset) := by
  fun_induction skipTriviaFrom inBrackets inComment cs offset with
  | case1 => rfl
  | case2 inComment c cs offset hline hbrackets ih =>
    rw [skipTriviaFrom_lineEnd hline, if_pos hbrackets, Nat.add_right_comm, ih]
  | case3 inComment c cs offset hline hbrackets =>
    rw [skipTriviaFrom_lineEnd hline, if_neg hbrackets]
    rfl
  | case4 c cs offset hline ih => rw [skipTriviaFrom_comment hline, Nat.add_right_comm, ih]
  | case5 inComment c cs offset hline hcomment hblank ih =>
    obtain rfl : inComment = false := by simpa using hcomment
    rw [skipTriviaFrom_blank hline hblank, Nat.add_right_comm, ih]
  | case6 inComment cs offset hcomment _ _ ih =>
    obtain rfl : inComment = false := by simpa using hcomment
    rw [skipTriviaFrom_sign, Nat.add_right_comm, ih]
  | case7 inComment offset hcomment after _ _ _ ih =>
    obtain rfl : inComment = false := by simpa using hcomment
    rw [Nat.add_right_comm] at ih
    rw [skipTriviaFrom_backslash]
    exact ih
  | case8 inComment offset hcomment after hfeed _ _ _ ih =>
    obtain rfl : inComment = false := by simpa using hcomment
    rw [Nat.add_right_comm] at ih
    rw [skipTriviaFrom_backslash, Cursor.skipLineBreak?_return hfeed]
    exact ih
  | case9 inComment offset hcomment after _ _ _ ih =>
    obtain rfl : inComment = false := by simpa using hcomment
    rw [Nat.add_right_comm] at ih
    rw [skipTriviaFrom_backslash]
    exact ih
  | case10 inComment offset hcomment =>
    obtain rfl : inComment = false := by simpa using hcomment
    rw [skipTriviaFrom_backslash]
    simp [Cursor.skipLineBreak?, changeResult, LexFailure.shift, SyntaxError.shift, Span.shift,
      Span.error, Cursor.shift, Nat.add_right_comm]
  | case11 inComment cs offset hcomment _ hreturn hfeed hend =>
    obtain rfl : inComment = false := by simpa using hcomment
    have hbreak : (⟨cs, offset + distance + 1⟩ : Cursor).skipLineBreak? = none := by
      unfold Cursor.skipLineBreak?
      split <;> simp_all
    have hempty : ¬cs.isEmpty := by simpa using hend
    rw [skipTriviaFrom_backslash, hbreak]
    simp [hempty, changeResult, LexFailure.shift, SyntaxError.shift, Span.shift, Span.error,
      Cursor.shift, Nat.add_right_comm]
  | case12 inComment c cs offset hline hcomment hblank hsign hbackslash =>
    obtain rfl : inComment = false := by simpa using hcomment
    exact skipTriviaFrom_text hline hblank hsign hbackslash

private theorem skipTrivia_shift (inBrackets : Bool) :
    skipTrivia inBrackets (cursor.shift distance) =
      shiftTrivia distance (skipTrivia inBrackets cursor) :=
  skipTriviaFrom_shift inBrackets false cursor.rest cursor.offset

namespace Lexer

/-! ## Tokens -/

/-- The same kind and extent of a token some bytes further on. -/
abbrev shiftEnding (distance : Nat) :
    Except LexFailure (TokenKind × Cursor) → Except LexFailure (TokenKind × Cursor) :=
  changeResult (LexFailure.shift distance) (Prod.map id (Cursor.shift distance))

private theorem number_shift :
    number (cursor.shift distance) = shiftEnding distance (number cursor) := by
  unfold number
  rw [scanNumber_shift]
  cases scanNumber cursor <;> rfl

private theorem string_shift (start : Nat) (formatted : Bool) (quote : Cursor) :
    string (start + distance) formatted (quote.shift distance) =
      shiftEnding distance (string start formatted quote) := by
  rw [string_eq, string_eq]
  rw [scanString_shift]
  cases scanString formatted quote <;> rfl

private theorem word_shift : word (cursor.shift distance) = shiftEnding distance (word cursor) := by
  unfold word
  simp only [Cursor.skipWhile_shift, Cursor.textTo_shift, Cursor.peek?_shift, Cursor.offset_shift]
  split
  · exact string_shift _ _ _
  · rfl

private theorem operator_shift :
    operator (cursor.shift distance) = shiftEnding distance (operator cursor) := by
  unfold operator
  rw [Cursor.rest_shift]
  split
  · rw [Cursor.advanceBy_shift]
    rfl
  · rw [Cursor.advance_shift]
    rfl

private theorem significant_shift (c : Char) :
    significant c (cursor.shift distance) = shiftEnding distance (significant c cursor) := by
  unfold significant
  rw [Cursor.advance_shift, Cursor.peek?_shift]
  split
  · exact word_shift cursor
  split
  · exact number_shift cursor
  split
  · exact string_shift _ _ _
  · exact operator_shift cursor

/-! ## Calls -/

/-- The same brackets some bytes further on. -/
def shiftBrackets (distance : Nat) : List (TokenKind × Span) → List (TokenKind × Span) :=
  List.map (Prod.map id (Span.shift distance))

/-- The same lexer some bytes further on. -/
def shift (distance : Nat) (lexer : Lexer) : Lexer :=
  { lexer with
    cursor := lexer.cursor.shift distance
    size := lexer.size + distance
    brackets := shiftBrackets distance lexer.brackets
    failure := lexer.failure.map (SyntaxError.shift distance) }

/-- The same answer some bytes further on. -/
abbrev shiftAnswer (distance : Nat) :
    Except LexFailure (Token × Lexer) → Except LexFailure (Token × Lexer) :=
  changeResult (LexFailure.shift distance) (Prod.map (Token.shift distance) (shift distance))

/-- The same attempt to read a token some bytes further on. -/
abbrev shiftAttempt (distance : Nat) :
    Except LexFailure (Option Token × Lexer) → Except LexFailure (Option Token × Lexer) :=
  changeResult (LexFailure.shift distance)
    (Prod.map (Option.map (Token.shift distance)) (shift distance))

variable (lexer : Lexer)

private theorem trackBrackets_shift (brackets : List (TokenKind × Span)) (kind : TokenKind)
    (span : Span) (stop : Cursor) :
    trackBrackets (shiftBrackets distance brackets) kind (span.shift distance) (stop.shift distance) =
      changeResult (LexFailure.shift distance) (shiftBrackets distance)
        (trackBrackets brackets kind span stop) := by
  unfold trackBrackets
  split
  · rfl
  split
  · cases brackets with
    | nil => rfl
    | cons bracket outer =>
      change (if bracket.1.closingBracket? = some kind then _ else _) =
        changeResult _ _ (if bracket.1.closingBracket? = some kind then _ else _)
      split <;> rfl
  · rfl

private theorem readSignificant_shift (c : Char) :
    (lexer.shift distance).readSignificant c = shiftAnswer distance (lexer.readSignificant c) := by
  unfold readSignificant
  refine changeResult_bind (significant_shift lexer.cursor c) fun ending => ?_
  obtain ⟨kind, stop⟩ := ending
  refine changeResult_bind (trackBrackets_shift lexer.brackets kind ⟨_, stop.offset⟩ stop)
    fun brackets => ?_
  simp only [shift, id_eq, Cursor.textTo_shift]
  rfl

private theorem readEnd_shift :
    (lexer.shift distance).readEnd = shiftAnswer distance lexer.readEnd := by
  obtain ⟨cursor, size, levels, pendingDedents, brackets, atLineStart, lineHasTokens, failure⟩ := lexer
  cases brackets with
  | cons bracket outer => rfl
  | nil => cases lineHasTokens <;> cases levels <;> rfl

private theorem readIndentation_shift :
    (lexer.shift distance).readIndentation = shiftAttempt distance lexer.readIndentation := by
  have hcursor : (lexer.shift distance).cursor = lexer.cursor.shift distance := rfl
  have hlevels : (lexer.shift distance).levels = lexer.levels := rfl
  unfold readIndentation
  rw [hcursor, LineStart.find_shift]
  cases LineStart.find lexer.cursor with
  | none stop => rfl
  | line start width stop =>
    dsimp only [LineStart.shift]
    rw [hlevels]
    cases IndentChange.of lexer.levels width with
    | error cause => rfl
    | ok change => cases change <;> rfl

private theorem readLineStart_shift :
    (lexer.shift distance).readLineStart = shiftAttempt distance lexer.readLineStart := by
  unfold readLineStart
  simp only [shift, shiftBrackets, List.isEmpty_map]
  split
  · exact readIndentation_shift lexer
  · rfl

private theorem readWithin_shift :
    (lexer.shift distance).readWithin = shiftAttempt distance lexer.readWithin := by
  have hbrackets : (lexer.shift distance).brackets.isEmpty = lexer.brackets.isEmpty :=
    List.isEmpty_map
  unfold readWithin
  rw [hbrackets]
  refine changeResult_bind (skipTrivia_shift lexer.cursor _) fun cursor => ?_
  dsimp only [Cursor.rest_shift]
  split
  · exact changeResult_bind (readEnd_shift { lexer with cursor }) fun _ => rfl
  · rename_i c cs hrest
    rw [Cursor.skipLineBreak?_shift]
    cases cursor.skipLineBreak? with
    | some stop =>
      have hline : (lexer.shift distance).lineHasTokens = lexer.lineHasTokens := rfl
      dsimp only [Option.map_some]
      rw [hline, Cursor.textTo_shift]
      split <;> rfl
    | none =>
      exact changeResult_bind (readSignificant_shift { lexer with cursor } c) fun _ => rfl

private theorem readLines_shift (fuel : Nat) :
    readLines fuel (lexer.shift distance) = shiftAnswer distance (readLines fuel lexer) := by
  induction fuel generalizing lexer with
  | zero => rfl
  | succ fuel ih =>
    rw [readLines_succ, readLines_succ]
    refine changeResult_bind (readLineStart_shift lexer) fun result => ?_
    obtain ⟨change, entered⟩ := result
    cases change with
    | some token => rfl
    | none =>
      refine changeResult_bind (readWithin_shift entered) fun result => ?_
      obtain ⟨token?, behind⟩ := result
      cases token? with
      | some token => rfl
      | none => exact ih behind

private theorem read_shift : (lexer.shift distance).read = shiftAnswer distance lexer.read := by
  obtain ⟨cursor, size, levels, pendingDedents, brackets, atLineStart, lineHasTokens, failure⟩ := lexer
  cases pendingDedents with
  | succ pendingDedents => rfl
  | zero =>
    rw [read, read]
    dsimp only [shift, Cursor.shift]
    rw [Nat.add_sub_add_right]
    exact readLines_shift (Lexer.mk _ _ _ _ _ _ _ _) _

/-- A call of the lexer some bytes further on. -/
theorem next_shift :
    (lexer.shift distance).next = (lexer.next.1.shift distance, lexer.next.2.shift distance) := by
  unfold next
  rw [read_shift]
  have hfailure : (lexer.shift distance).failure.isSome = lexer.failure.isSome :=
    Option.isSome_map
  rw [hfailure]
  split
  · rfl
  · cases lexer.read <;> rfl

/-- Any number of calls some bytes further on. -/
theorem after_shift (count : Nat) :
    (lexer.shift distance).after count = (lexer.after count).shift distance := by
  induction count generalizing lexer with
  | zero => rfl
  | succ count ih =>
    rw [after, after, next_shift, ih]

end Lexer

end PythonOutline
