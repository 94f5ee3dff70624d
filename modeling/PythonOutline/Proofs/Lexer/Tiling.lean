import PythonOutline.Proofs.Lexer.Extent
import PythonOutline.Proofs.Lexer.Separator

/-! # Tokens and separators tile the source

The tokens of a source follow each other in order, each ends where the lexer then stands, and all
text in front of a token that belongs to no earlier token is made of separators. The main statement,
`Lexer.runFor_tiles`, holds for every number of calls of the lexer: up to the first token that is
invalid or the end of the input, and for the text in front of that token too.
-/

namespace PythonOutline

/-- A kind of token that is neither invalid nor the end of the input. -/
def TokenKind.IsReadable (kind : TokenKind) : Prop :=
  kind ≠ .invalid ∧ kind ≠ .endOfInput

instance (kind : TokenKind) : Decidable kind.IsReadable :=
  inferInstanceAs (Decidable (_ ∧ _))

namespace Lexer

/-- A lexer that stands at a character boundary of a source and has not failed. The brackets it
keeps were read before. -/
structure Reading (source : List Char) (lexer : Lexer) : Prop where
  isIn : lexer.cursor.IsIn source
  size_eq : lexer.size = Text.byteLength source
  brackets_le : ∀ bracket ∈ lexer.brackets, bracket.2.start ≤ lexer.cursor.offset
  failure_eq : lexer.failure = none

/-- A token is read from a cursor on: behind separators it covers the text up to where the lexer
then stands. -/
def ReadsToken (source : List Char) (origin : Cursor) (token : Token) (behind : Lexer) : Prop :=
  ∃ start text, origin.Separates start ∧ start.Passes text behind.cursor ∧
    token.span = ⟨start.offset, behind.cursor.offset⟩ ∧ token.text = String.ofList text ∧
    (token.kind.IsSolid → text ≠ []) ∧ token.kind ≠ .invalid ∧ behind.Reading source

/-- Reading from a cursor fails: the failure is reported at or before a cursor that only separators
lead to. -/
def FailsBehind (origin : Cursor) (failure : LexFailure) : Prop :=
  ∃ start, origin.Separates start ∧ failure.error.span.start ≤ start.offset

/-- What may come of an attempt to read a token from a cursor on: a token, separators without one,
or a failure. -/
def Attempt (source : List Char) (origin : Cursor) :
    Except LexFailure (Option Token × Lexer) → Prop
  | .ok (some token, behind) => ReadsToken source origin token behind
  | .ok (none, behind) => origin.Separates behind.cursor ∧ behind.Reading source
  | .error failure => FailsBehind origin failure

/-- What comes of reading a token from a cursor on: the token or a failure. -/
def Outcome (source : List Char) (origin : Cursor) : Except LexFailure (Token × Lexer) → Prop
  | .ok (token, behind) => ReadsToken source origin token behind
  | .error failure => FailsBehind origin failure

variable {source : List Char} {origin cursor : Cursor} {lexer : Lexer}

/-- A token that is read behind separators is read from in front of them. -/
theorem ReadsToken.after {token : Token} {behind : Lexer} (hfirst : origin.Separates cursor)
    (hreads : ReadsToken source cursor token behind) : ReadsToken source origin token behind := by
  obtain ⟨start, text, hseparates, hrest⟩ := hreads
  exact ⟨start, text, hfirst.trans hseparates, hrest⟩

/-- A failure behind separators is a failure behind where they start. -/
theorem FailsBehind.after {failure : LexFailure} (hfirst : origin.Separates cursor)
    (hfails : FailsBehind cursor failure) : FailsBehind origin failure := by
  obtain ⟨start, hseparates, hspan⟩ := hfails
  exact ⟨start, hfirst.trans hseparates, hspan⟩

/-- What comes of a call behind separators comes of one in front of them. -/
theorem Outcome.after {result : Except LexFailure (Token × Lexer)}
    (hfirst : origin.Separates cursor) (houtcome : Outcome source cursor result) :
    Outcome source origin result := by
  cases result with
  | error failure => exact FailsBehind.after hfirst houtcome
  | ok result => exact ReadsToken.after hfirst houtcome

/-- A token that covers no text can be read anywhere. -/
theorem ReadsToken.empty {kind : TokenKind} {behind : Lexer} (hkind : ¬kind.IsSolid)
    (hvalid : kind ≠ .invalid) (hbehind : behind.Reading source)
    (hseparates : origin.Separates behind.cursor) :
    ReadsToken source origin (.empty kind behind.cursor.offset) behind :=
  ⟨behind.cursor, [], hseparates, .refl _, rfl, rfl, fun hsolid => absurd hsolid hkind, hvalid,
    hbehind⟩

/-! ## The readers of the lexer -/

/-- A bracket that is open behind a token was open before, or is the token. -/
private theorem trackBrackets_extent {brackets brackets' : List (TokenKind × Span)}
    {kind : TokenKind} {span : Span} {stop : Cursor}
    (htrack : trackBrackets brackets kind span stop = .ok brackets') :
    ∀ bracket ∈ brackets', bracket ∈ brackets ∨ bracket.2 = span := by
  intro bracket hbracket
  unfold trackBrackets at htrack
  split at htrack
  · cases htrack
    rcases List.mem_cons.mp hbracket with rfl | hbracket
    · exact .inr rfl
    · exact .inl hbracket
  · split at htrack
    · split at htrack
      · split at htrack
        · cases htrack
          exact .inl (List.mem_cons_of_mem _ hbracket)
        · cases htrack
      · cases htrack
    · cases htrack
      exact .inl hbracket

/-- A bracket that fails is blamed for it. -/
theorem trackBrackets_error {brackets : List (TokenKind × Span)} {kind : TokenKind} {span : Span}
    {stop : Cursor} {failure : LexFailure}
    (htrack : trackBrackets brackets kind span stop = .error failure) :
    failure.error.span = span := by
  unfold trackBrackets at htrack
  split at htrack
  · cases htrack
  · split at htrack
    · split at htrack
      · split at htrack
        · cases htrack
        · cases htrack
          rfl
      · cases htrack
        rfl
    · cases htrack

/-- A significant token starts where the lexer stands; a failure is reported no further on than
behind separators. -/
private theorem readSignificant_outcome (hreading : lexer.Reading source) {c : Char}
    (hpeek : lexer.cursor.peek? = some c) :
    Outcome source lexer.cursor (lexer.readSignificant c) := by
  have hextent := significant_extent hpeek
  unfold readSignificant
  cases hsignificant : significant c lexer.cursor with
  | error failure =>
    rw [hsignificant] at hextent
    exact ⟨lexer.cursor, .refl _, Nat.le_of_eq hextent⟩
  | ok result =>
    obtain ⟨kind, stop⟩ := result
    rw [hsignificant] at hextent
    obtain ⟨hsolid, ⟨text, hpasses⟩, hlt⟩ := hextent
    cases htrack : trackBrackets lexer.brackets kind ⟨lexer.cursor.offset, stop.offset⟩ stop with
    | error failure =>
      simp only [bind, Except.bind, htrack]
      have hspan := trackBrackets_error htrack
      exact ⟨lexer.cursor, .refl _, Nat.le_of_eq (congrArg Span.start hspan)⟩
    | ok brackets =>
      simp only [bind, Except.bind, htrack, pure, Except.pure]
      refine ⟨lexer.cursor, text, .refl _, hpasses, rfl, ?_, ?_, hsolid.2.2, ?_⟩
      · rw [hpasses.textTo_eq]
      · rintro - rfl
        have hoffset := hpasses.offset_eq
        simp only [Text.byteLength_nil] at hoffset
        omega
      · refine ⟨hreading.isIn.passes hpasses, hreading.size_eq, ?_, hreading.failure_eq⟩
        intro bracket hbracket
        rcases trackBrackets_extent htrack bracket hbracket with hbefore | hspan
        · exact Nat.le_trans (hreading.brackets_le bracket hbefore) (Nat.le_of_lt hlt)
        · rw [hspan]
          exact Nat.le_of_lt hlt

/-- At the end of the source every token is empty, and the end of the input lies there too. -/
theorem readEnd_outcome (hreading : lexer.Reading source) (hrest : lexer.cursor.rest = []) :
    Outcome source lexer.cursor lexer.readEnd := by
  have hsize : lexer.size = lexer.cursor.offset := by
    have hoffset := hreading.isIn.offset_add
    rw [hrest, Text.byteLength_nil] at hoffset
    rw [hreading.size_eq, ← hoffset, Nat.add_zero]
  have hempty : ∀ (kind : TokenKind) (behind : Lexer), ¬kind.IsSolid → kind ≠ .invalid →
      behind.cursor = lexer.cursor → behind.size = lexer.size →
      behind.brackets = lexer.brackets → behind.failure = lexer.failure →
      ReadsToken source lexer.cursor (.empty kind lexer.cursor.offset) behind := by
    intro kind behind hkind hvalid hcursor hbehind hbrackets hfailure
    rw [← hcursor]
    refine .empty hkind hvalid ⟨?_, ?_, ?_, ?_⟩ (.refl _)
    · rw [hcursor]
      exact hreading.isIn
    · rw [hbehind, hreading.size_eq]
    · rw [hcursor, hbrackets]
      exact hreading.brackets_le
    · rw [hfailure, hreading.failure_eq]
  unfold readEnd
  split
  · rename_i opened span outer hbrackets
    exact ⟨lexer.cursor, .refl _, hreading.brackets_le (opened, span) (by simp [hbrackets])⟩
  · split
    · exact hempty .newline _ (by decide) (by decide) rfl rfl rfl rfl
    · split
      · exact hempty .dedent _ (by decide) (by decide) rfl rfl rfl rfl
      · rw [Token.endOfInput, hsize]
        exact hempty .endOfInput _ (by decide) (by decide) rfl rfl rfl rfl

private theorem readIndentation_attempt (hreading : lexer.Reading source) :
    Attempt source lexer.cursor lexer.readIndentation := by
  have hmoved : ∀ {stop : Cursor} (levels : List IndentWidth) (pendingDedents : Nat),
      lexer.cursor.Separates stop →
      ({ lexer with cursor := stop, atLineStart := false, levels, pendingDedents } : Lexer).Reading
        source := by
    intro stop levels pendingDedents hseparates
    refine ⟨hseparates.isIn hreading.isIn, hreading.size_eq, ?_, hreading.failure_eq⟩
    intro bracket hbracket
    exact Nat.le_trans (hreading.brackets_le bracket hbracket) hseparates.offset_le
  have hfind := LineStart.find_separatedFrom lexer.cursor
  unfold readIndentation
  split
  · rename_i stop hnone
    rw [hnone] at hfind
    exact ⟨hfind.2, hmoved _ _ hfind.2⟩
  · rename_i start width stop hline
    rw [hline] at hfind
    obtain ⟨lineStart, hbefore, hstart, hblanks⟩ := hfind
    have hseparates := hbefore.trans hblanks
    dsimp only
    split
    · exact ⟨lineStart, hbefore, Nat.le_of_eq hstart.symm⟩
    · exact ⟨hseparates, hmoved _ _ hseparates⟩
    · exact .empty (by decide) (by decide) (hmoved _ _ hseparates) hseparates
    · exact .empty (by decide) (by decide) (hmoved _ _ hseparates) hseparates

/-- A line break is a separator of at least one byte. -/
theorem skipLineBreak?_passes {stop : Cursor} (hbreak : cursor.skipLineBreak? = some stop) :
    ∃ text, cursor.Passes text stop ∧ text ∈ lineBreaks := by
  unfold Cursor.skipLineBreak? at hbreak
  split at hbreak
  · cases hbreak
    exact ⟨['\r', '\n'], ⟨rfl, rfl⟩, by decide⟩
  · cases hbreak
    exact ⟨['\n'], ⟨rfl, rfl⟩, by decide⟩
  · cases hbreak
    exact ⟨['\r'], ⟨rfl, rfl⟩, by decide⟩
  · cases hbreak

/-- Where a line goes on behind text that belongs to no token: a token is read, or a line break that
ends a line without tokens, or neither makes sense. A line break moves the offset. -/
theorem readWithin_attempt (hreading : lexer.Reading source) :
    Attempt source lexer.cursor lexer.readWithin ∧
      ∀ behind, lexer.readWithin = .ok (none, behind) →
        lexer.cursor.offset < behind.cursor.offset := by
  obtain ⟨later, hseparates, hskip⟩ := skipTrivia_separates (!lexer.brackets.isEmpty) lexer.cursor
  have hmoved : ∀ {stop : Cursor} (atLineStart lineHasTokens : Bool), later.Reaches stop →
      ({ lexer with cursor := stop, atLineStart, lineHasTokens } : Lexer).Reading source := by
    rintro stop atLineStart lineHasTokens ⟨text, hpasses⟩
    refine ⟨(hseparates.isIn hreading.isIn).passes hpasses, hreading.size_eq, ?_,
      hreading.failure_eq⟩
    intro bracket hbracket
    exact Nat.le_trans (hreading.brackets_le bracket hbracket)
      (Nat.le_trans hseparates.offset_le hpasses.offset_le)
  have hhere := hmoved lexer.atLineStart lexer.lineHasTokens (.refl later)
  unfold readWithin
  cases htrivia : skipTrivia (!lexer.brackets.isEmpty) lexer.cursor with
  | error failure =>
    rw [htrivia] at hskip
    exact ⟨⟨later, hseparates, Nat.le_of_eq hskip⟩, by intro behind hbehind; cases hbehind⟩
  | ok cursor =>
    rw [htrivia] at hskip
    subst hskip
    simp only [bind, Except.bind]
    split
    · rename_i hrest
      have houtcome := readEnd_outcome hhere hrest
      split
      · rename_i failure herror
        rw [herror] at houtcome
        exact ⟨houtcome.after hseparates, by intro behind hbehind; cases hbehind⟩
      · rename_i result hresult
        rw [hresult] at houtcome
        exact ⟨houtcome.after hseparates, by intro behind hbehind; cases hbehind⟩
    · rename_i c cs hrest
      split
      · rename_i stop hbreak
        obtain ⟨text, hpasses, hline⟩ := skipLineBreak?_passes hbreak
        split
        · have hkind : ¬TokenKind.newline.IsSolid ∧ TokenKind.newline ≠ .invalid := by decide
          refine ⟨⟨cursor, text, hseparates, hpasses, rfl, ?_, ?_, hkind.2, ?_⟩, ?_⟩
          · rw [hpasses.textTo_eq]
          · intro hsolid
            exact absurd hsolid hkind.1
          · exact hmoved _ _ ⟨text, hpasses⟩
          · intro behind hbehind
            cases hbehind
        · have hempty : text ≠ [] := by
            rintro rfl
            exact absurd hline (by decide)
          refine ⟨⟨?_, hmoved _ _ ⟨text, hpasses⟩⟩, ?_⟩
          · exact hseparates.trans (.step hpasses (.lineBreak hline) (.refl _))
          · intro behind hbehind
            cases hbehind
            exact Nat.lt_of_le_of_lt hseparates.offset_le (hpasses.offset_lt hempty)
      · have hpeek : ({ lexer with cursor } : Lexer).cursor.peek? = some c := by
          simp [Cursor.peek?, hrest]
        have houtcome := readSignificant_outcome hhere hpeek
        split
        · rename_i failure herror
          rw [herror] at houtcome
          exact ⟨houtcome.after hseparates, by intro behind hbehind; cases hbehind⟩
        · rename_i result hresult
          rw [hresult] at houtcome
          exact ⟨houtcome.after hseparates, by intro behind hbehind; cases hbehind⟩

/-- Reads the indentation of a line where the lexer stands at the start of one. -/
def readLineStart (lexer : Lexer) : Except LexFailure (Option Token × Lexer) :=
  if lexer.atLineStart && lexer.brackets.isEmpty then lexer.readIndentation else .ok (none, lexer)

/-- At the start of a line a token is read, or separators are passed, or the lexer fails. -/
theorem readLineStart_attempt (hreading : lexer.Reading source) :
    Attempt source lexer.cursor lexer.readLineStart := by
  unfold readLineStart
  split
  · exact readIndentation_attempt hreading
  · exact ⟨.refl _, hreading⟩

/-- A line is entered, and read from there. -/
theorem readLines_succ (fuel : Nat) (lexer : Lexer) :
    readLines (fuel + 1) lexer = (do
      let (change, entered) ← lexer.readLineStart
      match change with
      | some token => return (token, entered)
      | none =>
        match ← entered.readWithin with
        | (some token, behind) => return (token, behind)
        | (none, behind) => readLines fuel behind) := by
  rw [readLines, readLineStart]
  split <;> rfl

/-- Lines without tokens are separators. Each of them takes a byte, so the fuel lasts to the next
token. -/
theorem readLines_outcome (hreading : lexer.Reading source) {fuel : Nat}
    (hfuel : Text.byteLength lexer.cursor.rest < fuel) :
    Outcome source lexer.cursor (readLines fuel lexer) := by
  induction fuel generalizing lexer with
  | zero => omega
  | succ fuel ih =>
    have hattempt := readLineStart_attempt hreading
    rw [readLines_succ]
    cases hstart : lexer.readLineStart with
    | error failure =>
      rw [hstart] at hattempt
      exact hattempt
    | ok result =>
      obtain ⟨change, entered⟩ := result
      rw [hstart] at hattempt
      cases change with
      | some token => exact hattempt
      | none =>
        obtain ⟨hseparates, hentered⟩ := hattempt
        obtain ⟨hattempt, hprogress⟩ := readWithin_attempt hentered
        simp only [bind, Except.bind]
        cases hwithin : entered.readWithin with
        | error failure =>
          rw [hwithin] at hattempt
          exact hattempt.after hseparates
        | ok result =>
          obtain ⟨token?, behind⟩ := result
          rw [hwithin] at hattempt
          cases token? with
          | some token => exact hattempt.after hseparates
          | none =>
            obtain ⟨hskipped, hbehind⟩ := hattempt
            refine Outcome.after (hseparates.trans hskipped) (ih hbehind ?_)
            have hlt := hprogress behind hwithin
            have hle := hseparates.offset_le
            have hbefore := hreading.isIn.offset_add
            have hafter := hbehind.isIn.offset_add
            omega

/-- A lexer that has not failed reads a token behind separators, or fails there. -/
theorem read_outcome (hreading : lexer.Reading source) :
    Outcome source lexer.cursor lexer.read := by
  unfold read
  split
  · exact .empty (by decide) (by decide)
      ⟨hreading.isIn, hreading.size_eq, hreading.brackets_le, hreading.failure_eq⟩ (.refl _)
  · apply readLines_outcome hreading
    have hoffset := hreading.isIn.offset_add
    rw [hreading.size_eq]
    omega

/-! ## The run of the lexer -/

/-- A token covers a piece of the source at or behind an offset, and a token that is made of text
covers some. -/
structure Covers (source : List Char) (offset : Nat) (token : Token) : Prop where
  offset_le : offset ≤ token.span.start
  start_le : token.span.start ≤ token.span.stop
  start_lt : token.kind.IsSolid → token.span.start < token.span.stop
  start_isBoundary : Text.IsBoundary source token.span.start
  stop_isBoundary : Text.IsBoundary source token.span.stop

/-- Behind a token the lexer still reads its source. -/
theorem ReadsToken.reading {token : Token} {behind : Lexer}
    (hreads : ReadsToken source origin token behind) : behind.Reading source := by
  obtain ⟨_, _, -, -, -, -, -, -, hbehind⟩ := hreads
  exact hbehind

/-- A token that is read covers a piece of the source. -/
theorem ReadsToken.covers {token : Token} {behind : Lexer}
    (hreads : ReadsToken source origin token behind) (hin : origin.IsIn source) :
    Covers source origin.offset token := by
  obtain ⟨start, text, hseparates, hpasses, hspan, -, hsolid, -, -⟩ := hreads
  have hstart := hseparates.isIn hin
  refine ⟨?_, ?_, fun hkind => ?_, ?_, ?_⟩ <;> rw [hspan]
  · exact hseparates.offset_le
  · exact hpasses.offset_le
  · exact hpasses.offset_lt (hsolid hkind)
  · exact hstart.isBoundary
  · exact (hstart.passes hpasses).isBoundary

/-- The lexer stands where its token ends. -/
theorem ReadsToken.stop_eq {token : Token} {behind : Lexer}
    (hreads : ReadsToken source origin token behind) :
    behind.cursor.offset = token.span.stop := by
  obtain ⟨_, _, -, -, hspan, -⟩ := hreads
  rw [hspan]

/-- A lexer that has not failed answers a token that it has read from where it stood. An invalid one
starts at or before a cursor that only separators lead to. -/
theorem next_reads (hreading : lexer.Reading source) :
    ReadsToken source lexer.cursor lexer.next.1 lexer.next.2 ∨
      lexer.next.1.kind = .invalid ∧
        ∃ later, lexer.cursor.Separates later ∧ lexer.next.1.span.start ≤ later.offset := by
  have houtcome := read_outcome hreading
  have hlexer : ¬lexer.failure.isSome := by simp [hreading.failure_eq]
  unfold next
  rw [if_neg hlexer]
  cases hread : lexer.read with
  | error failure =>
    rw [hread] at houtcome
    exact .inr ⟨rfl, houtcome⟩
  | ok result =>
    rw [hread] at houtcome
    exact .inl houtcome

/-- A readable token covers the text up to where the lexer then stands, and the lexer has still not
failed. -/
theorem next_covers (hreading : lexer.Reading source) (hreadable : lexer.next.1.kind.IsReadable) :
    Covers source lexer.cursor.offset lexer.next.1 ∧
      lexer.next.2.cursor.offset = lexer.next.1.span.stop ∧ lexer.next.2.Reading source := by
  have hreads := (next_reads hreading).resolve_right fun hinvalid => hreadable.1 hinvalid.1
  exact ⟨hreads.covers hreading.isIn, hreads.stop_eq, hreads.reading⟩

/-- The steps of a run tile the text behind a cursor: each token stands behind separators, which lead
to it from where the lexer stood, and ends where the lexer then stands. Nothing is said about what
follows an invalid token. -/
inductive Tiles (source : List Char) : Cursor → List (Token × Lexer) → Prop where
  | nil {origin : Cursor} : Tiles source origin []
  | token {origin : Cursor} {token : Token} {behind : Lexer} {steps : List (Token × Lexer)}
      (hreads : ReadsToken source origin token behind)
      (hrest : Tiles source behind.cursor steps) : Tiles source origin ((token, behind) :: steps)
  | invalid {origin later : Cursor} {token : Token} {behind : Lexer}
      {steps : List (Token × Lexer)} (hkind : token.kind = .invalid)
      (hseparates : origin.Separates later) (hstart : token.span.start ≤ later.offset) :
      Tiles source origin ((token, behind) :: steps)

/-- The tokens of a lexer that has not failed tile the text that it has not read. -/
theorem Reading.tiles (hreading : lexer.Reading source) (fuel : Nat) :
    Tiles source lexer.cursor (runFor fuel lexer) := by
  induction fuel generalizing lexer with
  | zero => exact .nil
  | succ fuel ih =>
    unfold runFor
    dsimp only
    rcases next_reads hreading with hreads | ⟨hkind, later, hseparates, hstart⟩
    · split
      · exact .token hreads .nil
      · exact .token hreads (ih hreads.reading)
    · split
      · exact .invalid hkind hseparates hstart
      · exact .invalid hkind hseparates hstart

/-- The lexer of a source reads it from its start. -/
theorem ofSource_reading (source : String) : (ofSource source).Reading source.toList where
  isIn := by
    simp only [ofSource, start]
    cases hsource : source.toList with
    | nil => exact ⟨[], .refl _⟩
    | cons c cs =>
      dsimp only
      split
      · rename_i hmark
        subst hmark
        exact ⟨[byteOrderMark], ⟨rfl, by simp⟩⟩
      · exact ⟨[], .refl _⟩
  size_eq := Text.utf8ByteSize_eq_byteLength source
  brackets_le := by simp [ofSource, start]
  failure_eq := rfl

/-- Only a byte order mark stands in front of where the lexer starts. -/
theorem ofSource_passes (source : String) : ∃ mark, (mark = [] ∨ mark = [byteOrderMark]) ∧
    Cursor.Passes ⟨source.toList, 0⟩ mark (ofSource source).cursor := by
  simp only [ofSource, start]
  cases hsource : source.toList with
  | nil => exact ⟨[], .inl rfl, .refl _⟩
  | cons c cs =>
    dsimp only
    split
    · rename_i hmark
      subst hmark
      exact ⟨[byteOrderMark], .inr rfl, rfl, by simp⟩
    · exact ⟨[], .inl rfl, .refl _⟩

/-- The steps of a run in front of the first token that is invalid or the end of the input. -/
def readable (steps : List (Token × Lexer)) : List (Token × Lexer) :=
  steps.takeWhile fun step => step.1.kind.IsReadable

/-- What holds of one readable step: its token lies in the source, on character boundaries, and ends
where the lexer stands. A token that is made of text is not empty. -/
structure Placed (source : List Char) (step : Token × Lexer) : Prop where
  start_le : step.1.span.start ≤ step.1.span.stop
  start_lt : step.1.kind.IsSolid → step.1.span.start < step.1.span.stop
  stop_le : step.1.span.stop ≤ Text.byteLength source
  start_isBoundary : Text.IsBoundary source step.1.span.start
  stop_isBoundary : Text.IsBoundary source step.1.span.stop
  stop_eq : step.1.span.stop = step.2.cursor.offset

/-- A byte belongs to a separator in front of a token of a run that starts at a cursor: the
separators lead to the token from where the lexer stood behind the token before. -/
inductive StandsBetween (byte : Nat) : Cursor → List (Token × Lexer) → Prop where
  | here {origin later : Cursor} {token : Token} {behind : Lexer} {steps : List (Token × Lexer)}
      (hat : origin.SeparatesAt later byte) (hstart : token.span.start ≤ later.offset)
      (hbyte : byte < token.span.start) : StandsBetween byte origin ((token, behind) :: steps)
  | later {origin : Cursor} {token : Token} {behind : Lexer} {steps : List (Token × Lexer)}
      (hreadable : token.kind.IsReadable) (hrest : StandsBetween byte behind.cursor steps) :
      StandsBetween byte origin ((token, behind) :: steps)

variable {steps : List (Token × Lexer)}

private theorem readable_cons {token : Token} {behind : Lexer} (hreadable : token.kind.IsReadable)
    (steps : List (Token × Lexer)) :
    readable ((token, behind) :: steps) = (token, behind) :: readable steps := by
  simp [readable, hreadable]

private theorem readable_cons_of_not {token : Token} {behind : Lexer}
    (hreadable : ¬token.kind.IsReadable) (steps : List (Token × Lexer)) :
    readable ((token, behind) :: steps) = [] := by
  simp [readable, hreadable]

/-- Every readable token of a run has its place in the source. -/
theorem Tiles.placed (htiles : Tiles source origin steps) (hin : origin.IsIn source) :
    ∀ step ∈ readable steps, origin.offset ≤ step.1.span.start ∧ Placed source step := by
  induction htiles with
  | nil => simp [readable]
  | invalid hkind =>
    rw [readable_cons_of_not fun hreadable => hreadable.1 hkind]
    exact fun step hstep => absurd hstep List.not_mem_nil
  | @token origin token behind steps hreads _ ih =>
    have hcovers := hreads.covers hin
    by_cases hkind : token.kind.IsReadable
    · rw [readable_cons hkind]
      intro step hstep
      rcases List.mem_cons.mp hstep with rfl | hstep
      · exact ⟨hcovers.offset_le, hcovers.start_le, hcovers.start_lt,
          hcovers.stop_isBoundary.le_byteLength, hcovers.start_isBoundary, hcovers.stop_isBoundary,
          hreads.stop_eq.symm⟩
      · obtain ⟨hle, hplaced⟩ := ih hreads.reading.isIn step hstep
        rw [hreads.stop_eq] at hle
        exact ⟨Nat.le_trans hcovers.offset_le (Nat.le_trans hcovers.start_le hle), hplaced⟩
    · rw [readable_cons_of_not hkind]
      exact fun step hstep => absurd hstep List.not_mem_nil

/-- The readable tokens of a run do not overlap, and come in the order of the source. -/
theorem Tiles.pairwise (htiles : Tiles source origin steps) (hin : origin.IsIn source) :
    (readable steps).Pairwise fun earlier later => earlier.1.span.stop ≤ later.1.span.start := by
  induction htiles with
  | nil => simp [readable]
  | invalid hkind =>
    rw [readable_cons_of_not fun hreadable => hreadable.1 hkind]
    exact .nil
  | @token origin token behind steps hreads hrest ih =>
    by_cases hkind : token.kind.IsReadable
    · rw [readable_cons hkind, List.pairwise_cons]
      refine ⟨fun step hstep => ?_, ih hreads.reading.isIn⟩
      rw [← hreads.stop_eq]
      exact (hrest.placed hreads.reading.isIn step hstep).1
    · rw [readable_cons_of_not hkind]
      exact .nil

/-- Each byte from the cursor on, up to a readable token or to the one that ends the run of these,
belongs to a token or to a separator between two of them. -/
theorem Tiles.covered (htiles : Tiles source origin steps) {step : Token × Lexer}
    (hstep : step ∈ steps.take ((readable steps).length + 1)) {byte : Nat}
    (hbyte : origin.offset ≤ byte) (hlt : byte < step.1.span.start) :
    StandsBetween byte origin steps ∨
      ∃ earlier ∈ readable steps, earlier.1.span.start ≤ byte ∧ byte < earlier.1.span.stop := by
  induction htiles with
  | nil => simp at hstep
  | @invalid origin later token behind steps hkind hseparates hstart =>
    rw [readable_cons_of_not fun hreadable => hreadable.1 hkind] at hstep
    obtain rfl : step = (token, behind) := by simpa using hstep
    exact .inl (.here (hseparates.separatesAt hbyte (Nat.lt_of_lt_of_le hlt hstart)) hstart hlt)
  | @token origin token behind steps hreads _ ih =>
    obtain ⟨start, _, hseparates, -, hspan, -⟩ := id hreads
    have hstart : token.span.start = start.offset := by rw [hspan]
    by_cases hbefore : byte < token.span.start
    · exact .inl (.here (hseparates.separatesAt hbyte (hstart ▸ hbefore)) (Nat.le_of_eq hstart)
        hbefore)
    rw [List.take_succ_cons] at hstep
    rcases List.mem_cons.mp hstep with rfl | hstep
    · exact absurd hlt hbefore
    by_cases hkind : token.kind.IsReadable
    · rw [readable_cons hkind] at hstep ⊢
      by_cases hwithin : byte < token.span.stop
      · exact .inr ⟨_, List.mem_cons_self, Nat.le_of_not_lt hbefore, hwithin⟩
      have hbehind : behind.cursor.offset ≤ byte := hreads.stop_eq ▸ Nat.le_of_not_lt hwithin
      rcases ih hstep hbehind with hbetween | ⟨earlier, hmem, hspan⟩
      · exact .inl (.later hkind hbetween)
      · exact .inr ⟨earlier, List.mem_cons_of_mem _ hmem, hspan⟩
    · rw [readable_cons_of_not hkind] at hstep
      simp at hstep

/-- However often the lexer is called on a source: it starts at the source or behind a byte order
mark, and from where it stands behind one token only separators lead to the next one. The tokens in
front of the first that is invalid or the end of the input lie in the source on character
boundaries, each ends where the lexer then stands, and none overlaps a later one. So every byte in
front of one of them, or of the token that ends them, is a byte of the byte order mark, of a token,
or of a separator between two tokens. -/
theorem runFor_tiles (source : String) (fuel : Nat) :
    (∃ mark, (mark = [] ∨ mark = [byteOrderMark]) ∧
        Cursor.Passes ⟨source.toList, 0⟩ mark (ofSource source).cursor) ∧
      Tiles source.toList (ofSource source).cursor (runFor fuel (ofSource source)) ∧
      (∀ step ∈ readable (runFor fuel (ofSource source)), Placed source.toList step) ∧
      (readable (runFor fuel (ofSource source))).Pairwise (fun earlier later =>
        earlier.1.span.stop ≤ later.1.span.start) ∧
      ∀ step ∈ (runFor fuel (ofSource source)).take
          ((readable (runFor fuel (ofSource source))).length + 1),
        ∀ byte < step.1.span.start,
          byte < (ofSource source).cursor.offset ∨
            StandsBetween byte (ofSource source).cursor (runFor fuel (ofSource source)) ∨
            ∃ earlier ∈ readable (runFor fuel (ofSource source)),
              earlier.1.span.start ≤ byte ∧ byte < earlier.1.span.stop := by
  have hreading := ofSource_reading source
  have htiles := hreading.tiles fuel
  refine ⟨ofSource_passes source, htiles,
    fun step hstep => (htiles.placed hreading.isIn step hstep).2, htiles.pairwise hreading.isIn,
    fun step hstep byte hlt => ?_⟩
  exact (Nat.lt_or_ge byte _).imp_right fun hbyte => htiles.covered hstep hbyte hlt

end Lexer

end PythonOutline
