import PythonOutline.Proofs.Lexer.Run

/-! # Where the tokens of a source fail

The lexer fails at most once. The tokens in front of its invalid token can be read and follow each
other in the source, and all tokens behind it are ends of input. The failure starts at or behind the
tokens in front of it, except that a bracket that is never closed is reported where it was opened.
-/

namespace PythonOutline

namespace Lexer

variable {source : List Char} {lexer behind : Lexer} {token : Token} {failure : LexFailure}

/-- The brackets that a lexer keeps are opening ones. -/
def KeepsOpen (lexer : Lexer) : Prop :=
  ∀ bracket ∈ lexer.brackets, bracket.1.isOpenBracket

/-- A failure that names no token or a closing bracket. -/
def NamesNone (failure : LexFailure) : Prop :=
  ∀ kind ∈ failure.error.token, kind.isCloseBracket

/-- A bracket is still open at the end of the source. -/
def NamesOpened (failure : LexFailure) : Prop :=
  ∃ opened span, failure.error = ⟨.unmatchedBracket, span, some opened⟩ ∧ opened.isOpenBracket

/-- What a failure reports from an offset on. -/
def FailsFrom (offset : Nat) (failure : LexFailure) : Prop :=
  NamesOpened failure ∨ offset ≤ failure.error.span.start ∧ NamesNone failure

/-- What fails from an offset on fails from each earlier one on. -/
theorem FailsFrom.mono {offset earlier : Nat} (hfails : FailsFrom offset failure)
    (hle : earlier ≤ offset) : FailsFrom earlier failure :=
  hfails.imp_right fun hfailure => ⟨Nat.le_trans hle hfailure.1, hfailure.2⟩

private theorem namesNone_of_eq_none (htoken : failure.error.token = none) : NamesNone failure := by
  simp [NamesNone, htoken]

/-! ## The failures of the readers -/

/-- A failure between tokens names no token. -/
theorem skipTriviaFrom_token {inBrackets inComment : Bool} {cs : List Char} {offset : Nat}
    (hskip : skipTriviaFrom inBrackets inComment cs offset = .error failure) :
    failure.error.token = none := by
  fun_induction skipTriviaFrom inBrackets inComment cs offset with
  | case1 => cases hskip
  | case3 => cases hskip
  | case10 => cases hskip; rfl
  | case11 => cases hskip; rfl
  | case12 => cases hskip
  | _ => simp_all

/-- A token that cannot be read is reported without a kind. -/
private theorem significant_token {c : Char} {cursor : Cursor}
    (hsignificant : significant c cursor = .error failure) : failure.error.token = none := by
  have hstring : ∀ {start formatted quote}, string start formatted quote = .error failure →
      failure.error.token = none := by
    intro start formatted quote hstring
    rw [string_eq] at hstring
    split at hstring <;> cases hstring
    rfl
  unfold significant at hsignificant
  split at hsignificant
  · unfold word at hsignificant
    dsimp only at hsignificant
    split at hsignificant
    · exact hstring hsignificant
    · cases hsignificant
  split at hsignificant
  · unfold number at hsignificant
    split at hsignificant <;> cases hsignificant
    rfl
  split at hsignificant
  · exact hstring hsignificant
  · unfold operator at hsignificant
    split at hsignificant <;> cases hsignificant
    rfl

/-- A bracket that cannot be closed is reported as what it is: a closing one. -/
private theorem trackBrackets_names {brackets : List (TokenKind × Span)} {kind : TokenKind}
    {span : Span} {stop : Cursor}
    (htrack : trackBrackets brackets kind span stop = .error failure) :
    NamesNone failure := by
  have hclose : ∀ {kind : TokenKind}, kind.isCloseBracket →
      NamesNone ⟨⟨.unmatchedBracket, span, some kind⟩, stop⟩ := by
    intro kind hkind other hother
    rwa [Option.mem_some_iff.mp hother] at hkind
  unfold trackBrackets at htrack
  split at htrack
  · cases htrack
  · split at htrack
    · rename_i hkind
      split at htrack
      · split at htrack
        · cases htrack
        · cases htrack
          exact hclose hkind
      · cases htrack
        exact hclose hkind
    · cases htrack

/-- A token fails at or behind its start, and its failure names no token. -/
theorem readSignificant_fails {c : Char} (hpeek : lexer.cursor.peek? = some c)
    (hread : lexer.readSignificant c = .error failure) :
    lexer.cursor.offset ≤ failure.error.span.start ∧ NamesNone failure := by
  have hextent := significant_extent hpeek
  unfold readSignificant at hread
  cases hsignificant : significant c lexer.cursor with
  | error other =>
    rw [hsignificant] at hread hextent
    cases hread
    exact ⟨Nat.le_of_eq hextent.symm, namesNone_of_eq_none (significant_token hsignificant)⟩
  | ok result =>
    obtain ⟨kind, stop⟩ := result
    rw [hsignificant] at hread
    cases htrack : trackBrackets lexer.brackets kind ⟨lexer.cursor.offset, stop.offset⟩ stop with
    | ok brackets => simp [bind, Except.bind, htrack, pure, Except.pure] at hread
    | error other =>
      simp only [bind, Except.bind, htrack] at hread
      cases hread
      have hspan := congrArg Span.start (trackBrackets_error htrack)
      exact ⟨Nat.le_of_eq hspan.symm, trackBrackets_names htrack⟩

private theorem readEnd_fails (hopen : lexer.KeepsOpen) (hread : lexer.readEnd = .error failure) :
    NamesOpened failure := by
  unfold readEnd at hread
  dsimp only at hread
  split at hread
  · rename_i opened span outer hbrackets
    cases hread
    exact ⟨opened, span, rfl, hopen (opened, span) (by simp [hbrackets])⟩
  · split at hread
    · cases hread
    · split at hread <;> cases hread

/-- From the trivia in front of a token on, what fails names an opened bracket or lies ahead. -/
private theorem readWithin_fails (hopen : lexer.KeepsOpen)
    (hread : lexer.readWithin = .error failure) :
    FailsFrom lexer.cursor.offset failure := by
  obtain ⟨later, hseparates, hskip⟩ := skipTrivia_separates (!lexer.brackets.isEmpty) lexer.cursor
  unfold readWithin at hread
  cases htrivia : skipTrivia (!lexer.brackets.isEmpty) lexer.cursor with
  | error other =>
    rw [htrivia] at hread hskip
    cases hread
    exact .inr ⟨Nat.le_trans hseparates.offset_le (Nat.le_of_eq hskip.symm),
      namesNone_of_eq_none (skipTriviaFrom_token htrivia)⟩
  | ok cursor =>
    rw [htrivia] at hread hskip
    subst hskip
    simp only [bind, Except.bind] at hread
    split at hread
    · split at hread
      · rename_i other hend
        cases hread
        have hentered : ({ lexer with cursor } : Lexer).KeepsOpen := hopen
        exact .inl (readEnd_fails hentered hend)
      · cases hread
    · rename_i c cs hrest
      split at hread
      · split at hread <;> cases hread
      · split at hread
        · rename_i other hsignificant
          cases hread
          have hfails := readSignificant_fails (by simp [Cursor.peek?, hrest]) hsignificant
          exact .inr ⟨Nat.le_trans hseparates.offset_le hfails.1, hfails.2⟩
        · cases hread

/-- The start of a line fails at or behind where it is, and its failure names no token. -/
theorem readLineStart_fails (hstart : lexer.readLineStart = .error failure) :
    lexer.cursor.offset ≤ failure.error.span.start ∧ NamesNone failure := by
  have hfind := LineStart.find_separatedFrom lexer.cursor
  unfold readLineStart at hstart
  split at hstart
  · unfold readIndentation at hstart
    split at hstart
    · cases hstart
    · rename_i start width stop hline
      rw [hline] at hfind
      obtain ⟨lineStart, hbefore, hoffset, -⟩ := hfind
      dsimp only at hstart
      split at hstart <;> cases hstart
      exact ⟨Nat.le_trans hbefore.offset_le (Nat.le_of_eq hoffset), namesNone_of_eq_none rfl⟩
  · cases hstart

/-! ## The brackets that are kept -/

/-- The stack of brackets holds opening ones only. -/
private theorem trackBrackets_open {brackets brackets' : List (TokenKind × Span)} {kind : TokenKind}
    {span : Span} {stop : Cursor} (hopen : ∀ bracket ∈ brackets, bracket.1.isOpenBracket)
    (htrack : trackBrackets brackets kind span stop = .ok brackets') :
    ∀ bracket ∈ brackets', bracket.1.isOpenBracket := by
  unfold trackBrackets at htrack
  split at htrack
  · rename_i hkind
    cases htrack
    intro bracket hbracket
    rcases List.mem_cons.mp hbracket with rfl | hbracket
    · exact hkind
    · exact hopen bracket hbracket
  · split at htrack
    · split at htrack
      · split at htrack
        · cases htrack
          exact fun bracket hbracket => hopen bracket (List.mem_cons_of_mem _ hbracket)
        · cases htrack
      · cases htrack
    · cases htrack
      exact hopen

private theorem readLineStart_keepsOpen {token? : Option Token} (hopen : lexer.KeepsOpen)
    (hstart : lexer.readLineStart = .ok (token?, behind)) : behind.KeepsOpen := by
  have hbrackets : behind.brackets = lexer.brackets := by
    cases token? with
    | none => exact (congrArg brackets (readLineStart_none hstart).2.2 :)
    | some token => exact (congrArg brackets (readLineStart_some hstart).2.1 :)
  rw [KeepsOpen, hbrackets]
  exact hopen

private theorem readWithin_keepsOpen {token? : Option Token} (hopen : lexer.KeepsOpen)
    (hread : lexer.readWithin = .ok (token?, behind)) : behind.KeepsOpen := by
  obtain ⟨cursor, -, -, hcases⟩ := readWithin_ok hread
  rcases hcases with ⟨-, token, -, hend⟩ | ⟨-, hbehind, -⟩ | ⟨-, c, token, hpeek, -, hsignificant⟩
  · obtain ⟨-, ⟨-, -, rfl⟩ | ⟨-, -, -, hbehind⟩ | ⟨-, -, -, rfl⟩⟩ := readEnd_ok hend
    · exact hopen
    · rw [hbehind]
      exact hopen
    · exact hopen
  · rw [hbehind]
    exact hopen
  · obtain ⟨-, -, -, -, -, htrack, -⟩ := readSignificant_ok hpeek hsignificant
    exact trackBrackets_open hopen htrack

private theorem Finds.keepsOpen (hfinds : lexer.Finds (.ok (token, behind)))
    (hopen : lexer.KeepsOpen) :
    behind.KeepsOpen := by
  generalize hresult : Except.ok (token, behind) = result at hfinds
  induction hfinds with
  | indentation | failing => cases hresult
  | level hstart =>
    cases hresult
    exact readLineStart_keepsOpen hopen hstart
  | token hstart hwithin =>
    cases hresult
    exact readWithin_keepsOpen (readLineStart_keepsOpen hopen hstart) hwithin
  | line hstart hwithin _ ih =>
    exact ih (readWithin_keepsOpen (readLineStart_keepsOpen hopen hstart) hwithin) hresult

/-- Lines without tokens are passed before the failure, so it lies behind where the lexer stood. -/
private theorem Finds.failsFrom (hreading : lexer.Reading source)
    (hfinds : lexer.Finds (.error failure)) (hopen : lexer.KeepsOpen) :
    FailsFrom lexer.cursor.offset failure := by
  generalize hresult : Except.error failure = result at hfinds
  induction hfinds with
  | level | token => cases hresult
  | indentation hstart =>
    cases hresult
    exact .inr (readLineStart_fails hstart)
  | failing hstart hwithin =>
    cases hresult
    exact (readWithin_fails (readLineStart_keepsOpen hopen hstart) hwithin).mono
      (readLineStart_none hstart).1.offset_le
  | line hstart hwithin _ ih =>
    have hopened := readLineStart_keepsOpen hopen hstart
    have hattempt := readLineStart_attempt hreading
    rw [hstart] at hattempt
    have hbehind := (readWithin_attempt hattempt.2).1
    rw [hwithin] at hbehind
    exact (ih hbehind.2 (readWithin_keepsOpen hopened hwithin) hresult).mono
      (Nat.le_trans hattempt.1.offset_le hbehind.1.offset_le)

private theorem read_keepsOpen (hreading : lexer.Reading source) (hopen : lexer.KeepsOpen)
    (hread : lexer.read = .ok (token, behind)) : behind.KeepsOpen := by
  rcases read_cases hreading with ⟨pendingDedents, -, hdedent⟩ | ⟨-, hfinds⟩
  · rw [hdedent] at hread
    cases hread
    exact hopen
  · rw [hread] at hfinds
    exact hfinds.keepsOpen hopen

private theorem read_failsFrom (hreading : lexer.Reading source) (hopen : lexer.KeepsOpen)
    (hread : lexer.read = .error failure) : FailsFrom lexer.cursor.offset failure := by
  rcases read_cases hreading with ⟨pendingDedents, -, hdedent⟩ | ⟨-, hfinds⟩
  · rw [hdedent] at hread
    cases hread
  · rw [hread] at hfinds
    exact hfinds.failsFrom hreading hopen

/-! ## The tokens in front of a failure -/

/-- A lexer that fails after some calls: up to there it answers tokens that can be read, each of
which covers the text from where the lexer stood. -/
structure FailsAfter (source : List Char) (lexer : Lexer) (count : Nat) (failure : LexFailure) :
    Prop where
  readable : ∀ index < count, (lexer.after index).next.1.kind.IsReadable
  covers : ∀ index < count,
    Covers source (lexer.after index).cursor.offset (lexer.after index).next.1
  stands : ∀ index < count,
    (lexer.after (index + 1)).cursor.offset = (lexer.after index).next.1.span.stop
  size_eq : (lexer.after count).size = lexer.size
  unfailed : (lexer.after count).failure = none
  read_eq : (lexer.after count).read = .error failure
  failsFrom : FailsFrom (lexer.after count).cursor.offset failure

/-- A lexer fails one token later than the lexer behind its next token does. -/
theorem FailsAfter.cons {count : Nat} (hreading : lexer.Reading source)
    (hreadable : lexer.next.1.kind.IsReadable)
    (hfails : FailsAfter source lexer.next.2 count failure) :
    FailsAfter source lexer (count + 1) failure := by
  obtain ⟨hcovers, hstands, hbehind⟩ := next_covers hreading hreadable
  refine ⟨fun index hindex => ?_, fun index hindex => ?_, fun index hindex => ?_,
    hfails.size_eq.trans (hbehind.size_eq.trans hreading.size_eq.symm), hfails.unfailed,
    hfails.read_eq, hfails.failsFrom⟩
  · cases index with
    | zero => exact hreadable
    | succ index => exact hfails.readable index (Nat.lt_of_succ_lt_succ hindex)
  · cases index with
    | zero => exact hcovers
    | succ index => exact hfails.covers index (Nat.lt_of_succ_lt_succ hindex)
  · cases index with
    | zero => exact hstands
    | succ index => exact hfails.stands index (Nat.lt_of_succ_lt_succ hindex)

/-- A lexer that has failed did so after some number of calls. -/
theorem Reading.failsAfter (hreading : lexer.Reading source) (hopen : lexer.KeepsOpen) {later : Nat}
    {error : SyntaxError} (hfailure : (lexer.after later).failure = some error) :
    ∃ count < later, ∃ failure, failure.error = error ∧ FailsAfter source lexer count failure := by
  induction later generalizing lexer with
  | zero =>
    rw [after, hreading.failure_eq] at hfailure
    cases hfailure
  | succ later ih =>
    have hlexer : ¬lexer.failure.isSome := by simp [hreading.failure_eq]
    rw [after] at hfailure
    cases hread : lexer.read with
    | error failure =>
      have hnext : lexer.next = (⟨.invalid, failure.error.span, ""⟩,
          { lexer with cursor := failure.stop, failure := some failure.error }) := by
        rw [next, if_neg hlexer, hread]
      have hended : lexer.next.2.Ended := by
        rw [hnext]
        exact ended_of_failure rfl
      rw [hended.after, hnext, Option.some.injEq] at hfailure
      exact ⟨0, Nat.succ_pos _, failure, hfailure,
        fun _ hlt => absurd hlt (Nat.not_lt_zero _), fun _ hlt => absurd hlt (Nat.not_lt_zero _),
        fun _ hlt => absurd hlt (Nat.not_lt_zero _), rfl, hreading.failure_eq, hread,
        read_failsFrom hreading hopen hread⟩
    | ok result =>
      have hnext : lexer.next = result := by rw [next, if_neg hlexer, hread]
      have hopened : lexer.next.2.KeepsOpen := by
        rw [hnext]
        exact read_keepsOpen hreading hopen hread
      rcases hreading.next_ended with ⟨hreadable, hbehind, -⟩ | ⟨htoken, -, hended⟩ | ⟨hkind, -, -⟩
      · obtain ⟨count, hlt, failure, herror, hfails⟩ := ih hbehind hopened hfailure
        exact ⟨count + 1, Nat.succ_lt_succ hlt, failure, herror, hfails.cons hreading hreadable⟩
      · -- The lexer has come to the end of the input without a failure.
        have hvalid := hreading.next_cases
        rw [hended.after] at hfailure
        rcases hvalid with ⟨-, hbehind⟩ | ⟨hinvalid, -⟩
        · rw [hbehind.failure_eq] at hfailure
          cases hfailure
        · rw [htoken] at hinvalid
          cases hinvalid
      · have houtcome := read_outcome hreading
        rw [hread] at houtcome
        obtain ⟨-, -, -, -, -, -, -, hvalid, -⟩ := houtcome
        rw [hnext] at hkind
        exact absurd hkind hvalid

/-- The lexer moves forward in front of its failure. -/
theorem FailsAfter.offset_le {count : Nat} (hfails : FailsAfter source lexer count failure)
    {earlier later : Nat} (hle : earlier ≤ later) (hlater : later ≤ count) :
    (lexer.after earlier).cursor.offset ≤ (lexer.after later).cursor.offset := by
  induction hle with
  | refl => exact Nat.le_refl _
  | @step later hle ih =>
    have hcovers := hfails.covers later hlater
    have hstands : (lexer.after later.succ).cursor.offset = _ := hfails.stands later hlater
    have hoffset := hcovers.offset_le
    have hstart := hcovers.start_le
    exact Nat.le_trans (ih (Nat.le_of_succ_le hlater)) (by omega)

end Lexer

/-! ## Token sequences -/

namespace Tokens

/-- A token sequence fails at an index: the token there is invalid, those in front of it can be read
and follow each other in the source, and those behind it are ends of input. The failure is known to
whoever has looked at the invalid token. -/
structure FailsAt (tokens : Tokens) (index : Nat) (failure : SyntaxError) : Prop where
  readable : ∀ earlier < index, (tokens.get earlier).kind.IsReadable
  covers : ∀ earlier < index, ∃ offset, Lexer.Covers tokens.source offset (tokens.get earlier)
  stop_le : ∀ earlier later, earlier < later → later < index →
    (tokens.get earlier).span.stop ≤ (tokens.get later).span.start
  get_eq : tokens.get index = ⟨.invalid, failure.span, ""⟩
  ended : ∀ later, index < later → tokens.get later = .endOfInput tokens.size
  failureWithin_eq : ∀ seen, tokens.failureWithin seen = if index < seen then some failure else none
  /-- A failure that names no opening bracket lies behind the tokens in front of it. -/
  stop_le_failure : (∀ kind ∈ failure.token, ¬kind.isOpenBracket) → ∀ earlier < index,
    (tokens.get earlier).span.stop ≤ failure.span.start
  token_ne : failure.token ≠ some .invalid

/-- The tokens that are made of text stand in front of the invalid one, so they are in order. -/
theorem FailsAt.inOrder {tokens : Tokens} {index : Nat} {failure : SyntaxError}
    (hfails : tokens.FailsAt index failure) : tokens.InOrder := by
  have hbefore : ∀ {place}, (tokens.get place).kind.IsSolid → place < index := by
    intro place hsolid
    rcases Nat.lt_trichotomy place index with hlt | rfl | hlt
    · exact hlt
    · rw [hfails.get_eq] at hsolid
      exact absurd rfl hsolid.2.2
    · rw [hfails.ended place hlt] at hsolid
      exact absurd rfl hsolid.2.1
  refine ⟨fun place hsolid => ?_, fun place hsolid => ?_, fun place hsolid => ?_,
    fun earlier later hlt _ hlater => hfails.stop_le earlier later hlt (hbefore hlater)⟩
  · obtain ⟨offset, hcovers⟩ := hfails.covers place (hbefore hsolid)
    exact hcovers.start_lt hsolid
  · obtain ⟨offset, hcovers⟩ := hfails.covers place (hbefore hsolid)
    exact hcovers.start_isBoundary
  · obtain ⟨offset, hcovers⟩ := hfails.covers place (hbefore hsolid)
    exact hcovers.stop_isBoundary

/-- A source whose token sequence has a failure fails at some index. -/
theorem failsAt_ofSource {source : String} {failure : SyntaxError}
    (hfailure : (ofSource source).failure = some failure) :
    ∃ index, (ofSource source).FailsAt index failure := by
  have hreading := Lexer.ofSource_reading source
  have hopen : (Lexer.ofSource source).KeepsOpen := by
    simp [Lexer.KeepsOpen, Lexer.ofSource, Lexer.start]
  rw [failure_ofSource] at hfailure
  obtain ⟨count, hlt, lexFailure, rfl, hfails⟩ := hreading.failsAfter hopen hfailure
  have hnext : ((Lexer.ofSource source).after count).next =
      (⟨.invalid, lexFailure.error.span, ""⟩, { (Lexer.ofSource source).after count with
        cursor := lexFailure.stop, failure := some lexFailure.error }) := by
    rw [Lexer.next, hfails.unfailed, hfails.read_eq]
    rfl
  have hbehind : ((Lexer.ofSource source).after (count + 1)).failure = some lexFailure.error := by
    rw [Lexer.after_succ, hnext]
  refine ⟨count, ?_, ?_, ?_, ?_, ?_, ?_, ?_, ?_⟩
  · intro earlier hearlier
    rw [get_ofSource_eq_next]
    exact hfails.readable earlier hearlier
  · intro earlier hearlier
    rw [get_ofSource_eq_next]
    exact ⟨_, hfails.covers earlier hearlier⟩
  · intro earlier later hearlier hlater
    rw [get_ofSource_eq_next, get_ofSource_eq_next,
      ← hfails.stands earlier (Nat.lt_trans hearlier hlater)]
    exact Nat.le_trans (hfails.offset_le hearlier (Nat.le_of_lt hlater))
      (hfails.covers later hlater).offset_le
  · rw [get_ofSource_eq_next, hnext]
  · intro later hlater
    obtain ⟨rest, rfl⟩ := Nat.exists_eq_add_of_le hlater
    have hended := Lexer.ended_of_failure hbehind
    rw [get_ofSource_eq_next, Lexer.after_add, hended.after, hended, Lexer.after_succ, hnext]
    exact congrArg Token.endOfInput hfails.size_eq
  · intro seen
    rw [failureWithin_ofSource]
    split
    · rename_i hseen
      exact Lexer.failure_after hseen hbehind
    · rename_i hseen
      rw [Option.eq_none_iff_forall_not_mem]
      intro error herror
      obtain ⟨earlier, hearlier, hinvalid⟩ := (hreading.failure_after_iff seen).mp ⟨error, herror⟩
      exact (hfails.readable earlier (by omega)).1 hinvalid
  · intro hnames earlier hearlier
    rw [get_ofSource_eq_next, ← hfails.stands earlier hearlier]
    rcases hfails.failsFrom with ⟨opened, span, herror, hopened⟩ | ⟨hstart, -⟩
    · rw [herror] at hnames
      exact absurd hopened (hnames opened rfl)
    · exact Nat.le_trans (hfails.offset_le hearlier (Nat.le_refl _)) hstart
  · intro hinvalid
    rcases hfails.failsFrom with ⟨opened, span, herror, hopened⟩ | ⟨-, hnames⟩
    · rw [herror] at hinvalid
      cases hinvalid
      cases hopened
    · cases hnames .invalid hinvalid

end Tokens

end PythonOutline
