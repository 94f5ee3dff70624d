import PythonOutline.Proofs.Lexer.Run

/-! # Single calls

A call of a lexer that does not fail answers a dedent that is due, or what the lexer finds
(`Lexer.Reading.next_finds`), and what it finds is determined by where it stands
(`Lexer.Finds.unique`). The lexer then stands at or behind where it stood, and goes on reading.
-/

namespace PythonOutline

namespace Lexer

variable {source : List Char} {lexer next : Lexer} {token : Token}

/-! ## Reading within a line -/

/-- At the end of the source, a token of the end is read. -/
theorem readWithin_of_end (hrest : lexer.cursor.rest = [])
    (hread : lexer.readEnd = .ok (token, next)) : lexer.readWithin = .ok (some token, next) := by
  obtain ⟨⟨rest, offset⟩, size, levels, pendingDedents, brackets, atLineStart, lineHasTokens,
    failure⟩ := lexer
  obtain rfl : rest = [] := hrest
  refine bind_eq_ok_iff.mpr ⟨⟨[], offset⟩, rfl, ?_⟩
  exact bind_eq_ok_iff.mpr ⟨(token, next), hread, rfl⟩

/-- A line break ends a line that has tokens, and is passed otherwise. -/
theorem readWithin_of_lineBreak {cursor stop : Cursor}
    (htrivia : skipTrivia (!lexer.brackets.isEmpty) lexer.cursor = .ok cursor)
    (hbreak : cursor.skipLineBreak? = some stop) :
    lexer.readWithin = .ok
      (if lexer.lineHasTokens then
          some ⟨.newline, ⟨cursor.offset, stop.offset⟩, String.ofList (cursor.textTo stop)⟩
        else none,
        { lexer with cursor := stop, atLineStart := true, lineHasTokens := false }) := by
  refine bind_eq_ok_iff.mpr ⟨cursor, htrivia, ?_⟩
  dsimp only
  split
  · rename_i hrest
    obtain ⟨rest, offset⟩ := cursor
    obtain rfl : rest = [] := hrest
    cases hbreak
  · rw [hbreak]
    dsimp only
    split <;> rfl

/-- Behind what separates tokens, a significant one is read. -/
theorem readWithin_of_significant {cursor : Cursor} {c : Char}
    (htrivia : skipTrivia (!lexer.brackets.isEmpty) lexer.cursor = .ok cursor)
    (hpeek : cursor.peek? = some c) (hbreak : cursor.skipLineBreak? = none)
    (hread : ({ lexer with cursor } : Lexer).readSignificant c = .ok (token, next)) :
    lexer.readWithin = .ok (some token, next) := by
  refine bind_eq_ok_iff.mpr ⟨cursor, htrivia, ?_⟩
  dsimp only
  split
  · rename_i hrest
    rw [Cursor.peek?, hrest] at hpeek
    cases hpeek
  · rename_i d cs hrest
    obtain rfl : d = c := by simpa [Cursor.peek?, hrest] using hpeek
    rw [hbreak]
    exact bind_eq_ok_iff.mpr ⟨(token, next), hread, rfl⟩

/-- Within a line no levels are closed. -/
theorem readWithin_pendingDedents {token? : Option Token}
    (hread : lexer.readWithin = .ok (token?, next)) :
    next.pendingDedents = lexer.pendingDedents := by
  obtain ⟨cursor, -, -, ⟨-, token, -, hend⟩ | ⟨-, hnext, -⟩ | ⟨-, c, token, hpeek, -, hread⟩⟩ :=
    readWithin_ok hread
  · obtain ⟨-, ⟨-, -, rfl⟩ | ⟨-, -, -, hnext⟩ | ⟨-, -, -, rfl⟩⟩ := readEnd_ok hend
    · rfl
    · rw [hnext]
    · rfl
  · rw [hnext]
  · rw [(readSignificant_ok hpeek hread).2.2.2.2.2.2]

/-! ## What is found -/

/-- The start of a line is passed forwards. -/
theorem readLineStart_reaches {change : Option Token}
    (hstart : lexer.readLineStart = .ok (change, next)) : lexer.cursor.Reaches next.cursor := by
  cases change with
  | none => exact (readLineStart_none hstart).1
  | some token => exact (readLineStart_some hstart).1

/-- A line is read forwards. -/
theorem readWithin_reaches {token? : Option Token} (hread : lexer.readWithin = .ok (token?, next)) :
    lexer.cursor.Reaches next.cursor := by
  obtain ⟨cursor, -, hreaches, hcases⟩ := readWithin_ok hread
  rcases hcases with ⟨-, _, -, hend⟩ | ⟨hbreak, -, -⟩ | ⟨-, c, _, hpeek, -, hsignificant⟩
  · obtain ⟨-, ⟨-, -, rfl⟩ | ⟨-, -, -, hnext⟩ | ⟨-, -, -, rfl⟩⟩ := readEnd_ok hend
    · exact hreaches
    · rw [hnext]
      exact hreaches
    · exact hreaches
  · obtain ⟨text, hpasses, -⟩ := skipLineBreak?_passes hbreak
    exact hreaches.trans ⟨text, hpasses⟩
  · exact hreaches.trans (readSignificant_ok hpeek hsignificant).2.1

/-- A token is found at or behind where the lexer stands. -/
theorem Finds.reaches (hfinds : lexer.Finds (.ok (token, next))) :
    lexer.cursor.Reaches next.cursor := by
  generalize hresult : Except.ok (token, next) = result at hfinds
  induction hfinds with
  | indentation | failing => cases hresult
  | level hstart =>
    cases hresult
    exact readLineStart_reaches hstart
  | token hstart hwithin =>
    cases hresult
    exact (readLineStart_reaches hstart).trans (readWithin_reaches hwithin)
  | line hstart hwithin _ ih =>
    exact (readLineStart_reaches hstart).trans ((readWithin_reaches hwithin).trans (ih hresult))

/-- What the lexer reads next is determined. -/
theorem Finds.unique {result result' : Except LexFailure (Token × Lexer)} (hfinds : lexer.Finds result)
    (hfinds' : lexer.Finds result') : result' = result := by
  induction hfinds with
  | indentation hstart | level hstart => cases hfinds' <;> simp_all
  | failing hstart hwithin | token hstart hwithin => cases hfinds' <;> simp_all
  | line hstart hwithin _ ih =>
    cases hfinds' with
    | indentation hstart' | level hstart' => simp_all
    | failing hstart' hwithin' | token hstart' hwithin' => simp_all
    | line hstart' hwithin' hrest' =>
      rw [hstart] at hstart'
      cases hstart'
      rw [hwithin] at hwithin'
      cases hwithin'
      exact ih hrest'

/-- What is found is a token of the source, or a failure within it. -/
theorem Finds.outcome {result : Except LexFailure (Token × Lexer)} (hreading : lexer.Reading source)
    (hfinds : lexer.Finds result) : Outcome source lexer.cursor result := by
  have hfuel := Nat.lt_succ_self (Text.byteLength lexer.cursor.rest)
  rw [(readLines_finds hreading hfuel).unique hfinds]
  exact readLines_outcome hreading hfuel

/-! ## What is answered -/

/-- A lexer that answers no failure answers what it reads. -/
theorem Reading.read_eq (hreading : lexer.Reading source) (hvalid : lexer.next.1.kind ≠ .invalid) :
    lexer.read = .ok lexer.next := by
  unfold next at hvalid ⊢
  rw [if_neg (by simp [hreading.failure_eq])] at hvalid ⊢
  cases hread : lexer.read with
  | ok result => rfl
  | error failure =>
    rw [hread] at hvalid
    exact absurd rfl hvalid

/-- While nothing has failed, the next token is the one that is read. -/
theorem Reading.next_eq {result : Token × Lexer} (hreading : lexer.Reading source)
    (hread : lexer.read = .ok result) : lexer.next = result := by
  unfold next
  rw [if_neg (by simp [hreading.failure_eq]), hread]

/-- While no dedents are pending, the next token is the one that is found. -/
theorem Reading.next_of_finds {result : Token × Lexer} (hreading : lexer.Reading source)
    (hpending : lexer.pendingDedents = 0) (hfinds : lexer.Finds (.ok result)) :
    lexer.next = result := by
  rcases read_cases hreading with ⟨pendingDedents, hdedents, -⟩ | ⟨-, hread⟩
  · omega
  · exact hreading.next_eq (hfinds.unique hread)

/-- A lexer that does not fail answers a dedent that is due, or what it finds. -/
theorem Reading.next_finds (hreading : lexer.Reading source) (hvalid : lexer.next.1.kind ≠ .invalid) :
    (∃ pendingDedents, lexer.pendingDedents = pendingDedents + 1 ∧
        lexer.next = (.empty .dedent lexer.cursor.offset, { lexer with pendingDedents })) ∨
      lexer.pendingDedents = 0 ∧ lexer.Finds (.ok (lexer.next.1, lexer.next.2)) := by
  have hread := hreading.read_eq hvalid
  rcases read_cases hreading with ⟨pendingDedents, hdedents, hdedent⟩ | ⟨hpending, hfinds⟩
  · rw [hread] at hdedent
    exact .inl ⟨pendingDedents, hdedents, Except.ok.inj hdedent⟩
  · rw [hread] at hfinds
    exact .inr ⟨hpending, hfinds⟩

/-- A lexer goes forwards with each token, unless it fails. -/
theorem Reading.next_reaches (hreading : lexer.Reading source)
    (hvalid : lexer.next.1.kind ≠ .invalid) : lexer.cursor.Reaches lexer.next.2.cursor := by
  have houtcome := read_outcome hreading
  rw [hreading.read_eq hvalid] at houtcome
  obtain ⟨start, text, hseparates, hpasses, -⟩ := houtcome
  exact hseparates.reaches.trans ⟨text, hpasses⟩

/-- A token starts at or behind where the lexer stood. -/
theorem ReadsToken.offset_le_start {origin : Cursor} (hreads : ReadsToken source origin token next) :
    origin.offset ≤ token.span.start := by
  obtain ⟨start, text, hseparates, -, hspan, -⟩ := hreads
  rw [hspan]
  exact hseparates.offset_le

/-- A token starts where the lexer stands, or behind it. -/
theorem Reading.offset_le_start (hreading : lexer.Reading source)
    (hvalid : lexer.next.1.kind ≠ .invalid) : lexer.cursor.offset ≤ lexer.next.1.span.start := by
  have houtcome := read_outcome hreading
  rw [hreading.read_eq hvalid] at houtcome
  exact ReadsToken.offset_le_start houtcome

/-- A lexer reads its source for as long as it has not failed. -/
theorem Reading.next_reading (hreading : lexer.Reading source)
    (hvalid : lexer.next.1.kind ≠ .invalid) : lexer.next.2.Reading source := by
  rcases hreading.next_cases with ⟨-, hreads⟩ | ⟨hinvalid, -⟩
  · exact hreads
  · exact absurd hinvalid hvalid

/-! ## Any number of calls -/

/-- A lexer goes on reading until it answers ends of input only. -/
theorem Reading.reading_after (hreading : lexer.Reading source) (count : Nat) :
    (lexer.after count).Reading source ∨ (lexer.after count).Ended := by
  induction count with
  | zero => exact .inl hreading
  | succ count ih =>
    rw [after_succ]
    rcases ih with hreads | hended
    · rcases hreads.next_cases with ⟨-, hbehind⟩ | ⟨-, failure, hfailure⟩
      · exact .inl hbehind
      · exact .inr (ended_of_failure hfailure)
    · rw [hended]
      exact .inr hended

/-- As long as it has not failed, a lexer goes on reading. -/
theorem Reading.reading_after_of_failure (hreading : lexer.Reading source) {calls : Nat}
    (hfailure : (lexer.after calls).failure = none) : (lexer.after calls).Reading source := by
  induction calls with
  | zero => exact hreading
  | succ calls ih =>
    have hbefore : (lexer.after calls).failure = none := by
      cases hfailed : (lexer.after calls).failure with
      | none => rfl
      | some error =>
        rw [failure_after (Nat.le_succ calls) hfailed] at hfailure
        cases hfailure
    rw [after_succ] at hfailure ⊢
    rcases (ih hbefore).next_cases with ⟨-, hbehind⟩ | ⟨-, error, hfailed⟩
    · exact hbehind
    · rw [hfailed] at hfailure
      cases hfailure

end Lexer

namespace Tokens

variable {source : String}

/-- A source without lexical errors is read from call to call. -/
theorem reading_after (hclean : (ofSource source).failure = none) (count : Nat) :
    ((Lexer.ofSource source).after count).Reading source.toList := by
  refine (Lexer.ofSource_reading source).reading_after_of_failure ?_
  rw [← failureWithin_ofSource, failureWithin, hclean]

/-- A source without failure has no invalid token. -/
theorem next_ne_invalid (hclean : (ofSource source).failure = none) (count : Nat) :
    ((Lexer.ofSource source).after count).next.1.kind ≠ .invalid := by
  rcases (reading_after hclean count).next_cases with ⟨hvalid, -⟩ | ⟨-, failure, hfailure⟩
  · exact hvalid
  · rw [← Lexer.after_succ, (reading_after hclean _).failure_eq] at hfailure
    cases hfailure

end Tokens

end PythonOutline
