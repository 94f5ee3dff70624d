import PythonOutline.Proofs.Lexer.Failure
import PythonOutline.Proofs.Lexer.Layout
import PythonOutline.Proofs.Lexer.LineBreak

/-! # Brackets between the tokens of a source

`BracketStep` says which token may follow while some brackets are open: a closing bracket only if it
matches the innermost of them, and line structure only if there are none. Every call of the lexer that
answers a readable token takes such a step, and the brackets that the lexer keeps are the tokens that
opened them. At the end of the source the lexer therefore fails exactly if some are left, and it blames
the innermost.
-/

namespace PythonOutline

/-- What a token does to the opening brackets that are not closed yet, innermost first. -/
inductive BracketStep : List Token → Token → List Token → Prop where
  | opening {opened : List Token} {token : Token} (hkind : token.kind.isOpenBracket) :
      BracketStep opened token (token :: opened)
  | closing {opened : List Token} {opener token : Token}
      (hmatch : opener.kind.closingBracket? = some token.kind) :
      BracketStep (opener :: opened) token opened
  | text {opened : List Token} {token : Token} (hsolid : token.kind.IsSolid)
      (hopen : ¬token.kind.isOpenBracket) (hclose : ¬token.kind.isCloseBracket) :
      BracketStep opened token opened
  /-- A newline, an indent or a dedent, which stand outside of all brackets. -/
  | structural {token : Token} (hkind : ¬token.kind.isSignificant) : BracketStep [] token []

/-- What tokens do to the open brackets, one after the other. -/
inductive BracketRun : List Token → List Token → List Token → Prop where
  | nil {opened : List Token} : BracketRun opened [] opened
  | cons {opened middle opened' : List Token} {token : Token} {tokens : List Token}
      (hstep : BracketStep opened token middle) (hrest : BracketRun middle tokens opened') :
      BracketRun opened (token :: tokens) opened'

/-- Only opening brackets are kept open. -/
theorem BracketRun.isOpenBracket {opened opened' tokens : List Token}
    (hrun : BracketRun opened tokens opened')
    (hopened : ∀ token ∈ opened, token.kind.isOpenBracket) :
    ∀ token ∈ opened', token.kind.isOpenBracket := by
  induction hrun with
  | nil => exact hopened
  | cons hstep _ ih =>
    apply ih
    cases hstep with
    | opening hkind => exact List.forall_mem_cons.mpr ⟨hkind, hopened⟩
    | closing => exact (List.forall_mem_cons.mp hopened).2
    | text | structural => exact hopened

/-! ## The end of the source within brackets -/

/-- Within brackets a separator is passed, and the text behind it is looked at as before. -/
theorem skipTriviaFrom_separator {piece after : List Char} (hseparator : Separator piece after)
    (offset : Nat) :
    skipTriviaFrom true false (piece ++ after) offset =
      skipTriviaFrom true false after (offset + Text.byteLength piece) := by
  have hbreak : ∀ {text : List Char} {offset : Nat}, text ∈ lineBreaks →
      skipTriviaFrom true false (text ++ after) offset =
        skipTriviaFrom true false after (offset + Text.byteLength text) := by
    intro text offset htext
    simp only [lineBreaks, List.mem_cons, List.not_mem_nil, or_false] at htext
    rcases htext with rfl | rfl | rfl
    · exact skipTriviaFrom_lineEnd (.inl rfl)
    · exact skipTriviaFrom_lineEnd (.inr rfl)
    · exact (skipTriviaFrom_lineEnd (.inr rfl)).trans (skipTriviaFrom_lineEnd (.inl rfl))
  cases hseparator with
  | @blank c _ hblank =>
    have hline : ¬EndsLine c := by rcases hblank with rfl | rfl | rfl <;> decide
    exact skipTriviaFrom_blank hline (Text.blanks_contains_iff.mpr hblank)
  | lineBreak htext => exact hbreak htext
  | @lineJoin text _ htext =>
    simp only [lineBreaks, List.mem_cons, List.not_mem_nil, or_false] at htext
    rcases htext with rfl | rfl | rfl
    · rfl
    · -- A line feed behind the carriage return is passed with it, or as a line break of its own.
      cases after with
      | nil => rfl
      | cons c after =>
        by_cases hc : c = '\n'
        · subst hc
          have hfeed : skipTriviaFrom true false ('\n' :: after) (offset + 2) =
              skipTriviaFrom true false after (offset + 3) := skipTriviaFrom_lineEnd (.inl rfl)
          exact hfeed.symm
        · have hblank : Text.blanks.contains '\\' = false := by decide
          conv_lhs => unfold skipTriviaFrom
          simp [hblank, hc]
          rfl
    · rfl
  | @comment body _ hbody hafter =>
    have hrest : ∀ {offset : Nat}, skipTriviaFrom true true (body ++ after) offset =
        skipTriviaFrom true false after (offset + Text.byteLength body) := by
      induction body with
      | nil =>
        intro offset
        cases after with
        | nil => rfl
        | cons c after =>
          have hc : EndsLine c := hafter c rfl
          exact (skipTriviaFrom_lineEnd hc).trans (skipTriviaFrom_lineEnd hc).symm
      | cons c body ih =>
        intro offset
        obtain ⟨hc, hbody⟩ := List.forall_mem_cons.mp hbody
        rw [List.cons_append, skipTriviaFrom_comment hc, ih hbody, Text.byteLength_cons,
          Nat.add_assoc]
    rw [List.cons_append, skipTriviaFrom_sign, hrest, Text.byteLength_cons, Nat.add_assoc]
    rfl

/-- Separators that lead to the end of a source are passed within brackets. -/
theorem Cursor.Separates.skipTrivia_end {cursor later : Cursor} (hseparates : cursor.Separates later)
    (hend : later.rest = []) : skipTrivia true cursor = .ok later := by
  induction hseparates with
  | refl cursor =>
    obtain ⟨rest, offset⟩ := cursor
    obtain rfl : rest = [] := hend
    rfl
  | step hpasses hseparator _ ih =>
    rw [skipTrivia, hpasses.rest_eq, skipTriviaFrom_separator hseparator, ← hpasses.offset_eq]
    exact ih hend

/-- A failure that is known behind some tokens is that of the source. -/
theorem Tokens.failure_of_failureWithin {tokens : Tokens} {seen : Nat} {error : SyntaxError}
    (hknown : tokens.failureWithin seen = some error) : tokens.failure = some error := by
  unfold failureWithin at hknown
  split at hknown
  · cases hknown
  · rename_i failure hfailure
    split at hknown
    · rw [hfailure, hknown]
    · cases hknown

namespace Lexer

variable {source : List Char} {lexer behind : Lexer} {token : Token} {opened : List Token}

/-! ## One call -/

/-- The brackets that a lexer keeps are those that some tokens opened, and where dedents are due
there are none. -/
structure Tracks (lexer : Lexer) (opened : List Token) : Prop where
  brackets_eq : lexer.brackets = opened.map fun token => (token.kind, token.span)
  opened_of_pendingDedents : lexer.pendingDedents ≠ 0 → opened = []

/-- No bracket is open at the start of a source. -/
theorem ofSource_tracks (source : String) : (ofSource source).Tracks [] where
  brackets_eq := rfl
  opened_of_pendingDedents _ := rfl

/-- One more token keeps the stack of brackets that the tokens so far leave open. -/
private theorem trackBrackets_step {stop : Cursor} {brackets : List (TokenKind × Span)}
    (hsolid : token.kind.IsSolid)
    (htrack : trackBrackets (opened.map fun token => (token.kind, token.span)) token.kind token.span
      stop = .ok brackets) :
    ∃ opened', BracketStep opened token opened' ∧
      brackets = opened'.map fun token => (token.kind, token.span) := by
  unfold trackBrackets at htrack
  split at htrack
  · rename_i hopen
    cases htrack
    exact ⟨_, .opening hopen, rfl⟩
  split at htrack
  · cases opened with
    | nil => cases htrack
    | cons opener outer =>
      rw [List.map_cons] at htrack
      dsimp only at htrack
      split at htrack
      · rename_i hmatch
        cases htrack
        exact ⟨_, .closing hmatch, rfl⟩
      · cases htrack
  · rename_i hopen hclose
    cases htrack
    exact ⟨_, .text hsolid hopen hclose, rfl⟩

/-- A change of level is looked for outside of brackets only. -/
theorem Tracks.readLineStart_some (htracks : lexer.Tracks opened)
    (hstart : lexer.readLineStart = .ok (some token, behind)) :
    opened = [] ∧ ¬token.kind.isSignificant ∧ behind.brackets = [] := by
  have hbrackets : lexer.brackets = [] := by
    unfold readLineStart at hstart
    split at hstart
    · rename_i hline
      rw [Bool.and_eq_true, List.isEmpty_iff] at hline
      exact hline.2
    · cases hstart
  obtain ⟨-, hbehind, hchange⟩ := Lexer.readLineStart_some hstart
  refine ⟨by simpa [htracks.brackets_eq] using hbrackets, ?_, by rw [hbehind, hbrackets]⟩
  rcases hchange with ⟨rfl, -⟩ | ⟨rfl, -⟩
  · exact Bool.false_ne_true
  · exact Bool.false_ne_true

/-- The start of a line opens and closes no bracket. -/
theorem Tracks.readLineStart_none (htracks : lexer.Tracks opened)
    (hstart : lexer.readLineStart = .ok (none, behind)) : behind.Tracks opened := by
  obtain ⟨-, -, hbehind⟩ := Lexer.readLineStart_none hstart
  rw [hbehind]
  exact ⟨htracks.brackets_eq, htracks.opened_of_pendingDedents⟩

/-- Within a line a token takes a step, and a line without tokens changes no bracket. -/
theorem Tracks.readWithin {token? : Option Token} (htracks : lexer.Tracks opened)
    (hpending : lexer.pendingDedents = 0) (hread : lexer.readWithin = .ok (token?, behind)) :
    (∀ token, token? = some token → token.kind ≠ .endOfInput →
        ∃ opened', BracketStep opened token opened' ∧ behind.Tracks opened') ∧
      (token? = none → behind.Tracks opened ∧ behind.pendingDedents = 0) := by
  have hstructural : ∀ {token : Token}, opened = [] → ¬token.kind.isSignificant →
      BracketStep opened token opened := by
    rintro token rfl hkind
    exact .structural hkind
  obtain ⟨cursor, htrivia, -, hcases⟩ := readWithin_ok hread
  rcases hcases with ⟨-, token, rfl, hend⟩ | ⟨hbreak, hbehind, htoken⟩ |
    ⟨-, c, token, hpeek, rfl, hsignificant⟩
  · refine ⟨fun _ htoken hkind => ?_, fun hnone => by cases hnone⟩
    cases htoken
    obtain ⟨hbrackets, hcases⟩ := readEnd_ok hend
    have hopened : opened = [] := by simpa [htracks.brackets_eq] using hbrackets
    rcases hcases with ⟨-, rfl, rfl⟩ | ⟨-, -, rfl, hbehind⟩ | ⟨-, -, rfl, -⟩
    · exact ⟨opened, hstructural hopened Bool.false_ne_true, htracks.1, htracks.2⟩
    · refine ⟨opened, hstructural hopened Bool.false_ne_true, ?_⟩
      rw [hbehind]
      exact ⟨htracks.1, htracks.2⟩
    · exact absurd rfl hkind
  · have hopened : opened = [] := by
      cases opened with
      | nil => rfl
      | cons =>
        rw [htracks.brackets_eq] at htrivia
        rw [skipTriviaFrom_inBrackets htrivia] at hbreak
        cases hbreak
    have hbehind : behind.Tracks opened ∧ behind.pendingDedents = 0 := by
      rw [hbehind]
      exact ⟨⟨htracks.1, htracks.2⟩, hpending⟩
    refine ⟨fun token hsome _ => ?_, fun _ => hbehind⟩
    rw [hsome] at htoken
    split at htoken <;> cases htoken
    exact ⟨opened, hstructural hopened Bool.false_ne_true, hbehind.1⟩
  · refine ⟨fun _ htoken _ => ?_, fun hnone => by cases hnone⟩
    cases htoken
    obtain ⟨hsolid, -, -, -, -, htrack, hbehind⟩ := readSignificant_ok hpeek hsignificant
    dsimp only at htrack
    rw [htracks.brackets_eq] at htrack
    obtain ⟨opened', hstep, hbrackets⟩ := trackBrackets_step hsolid htrack
    refine ⟨opened', hstep, hbrackets, fun hdedents => ?_⟩
    rw [hbehind] at hdedents
    exact absurd hpending hdedents

/-- Each token opens or closes a bracket, or leaves them as they are. -/
theorem Tracks.finds (htracks : lexer.Tracks opened) (hpending : lexer.pendingDedents = 0)
    (hfinds : lexer.Finds (.ok (token, behind))) (hkind : token.kind ≠ .endOfInput) :
    ∃ opened', BracketStep opened token opened' ∧ behind.Tracks opened' := by
  generalize hresult : Except.ok (token, behind) = result at hfinds
  induction hfinds with
  | indentation | failing => cases hresult
  | level hstart =>
    cases hresult
    obtain ⟨rfl, hstructural, hbrackets⟩ := htracks.readLineStart_some hstart
    exact ⟨[], .structural hstructural, hbrackets, fun _ => rfl⟩
  | token hstart hwithin =>
    cases hresult
    have hdedents := (readLineStart_weight hstart).2.trans hpending
    exact ((htracks.readLineStart_none hstart).readWithin hdedents hwithin).1 _ rfl hkind
  | line hstart hwithin _ ih =>
    have hdedents := (readLineStart_weight hstart).2.trans hpending
    obtain ⟨hskipped, hdedents⟩ :=
      ((htracks.readLineStart_none hstart).readWithin hdedents hwithin).2 rfl
    exact ih hskipped hdedents hresult

/-- A readable token takes a step from the brackets that are open. -/
theorem Tracks.next (htracks : lexer.Tracks opened) (hreading : lexer.Reading source)
    (hreadable : lexer.next.1.kind.IsReadable) :
    ∃ opened', BracketStep opened lexer.next.1 opened' ∧ lexer.next.2.Tracks opened' := by
  rcases hreading.next_finds hreadable.1 with ⟨pendingDedents, hpending, hdedent⟩ | ⟨hpending, hfinds⟩
  · obtain rfl := htracks.opened_of_pendingDedents (by omega)
    rw [hdedent]
    exact ⟨[], .structural Bool.false_ne_true, htracks.brackets_eq, fun _ => rfl⟩
  · exact htracks.finds hpending hfinds hreadable.2

/-! ## The end of the tokens -/

/-- A lexer comes to the end of the input outside of brackets only. -/
theorem Finds.brackets_of_endOfInput (hfinds : lexer.Finds (.ok (token, behind)))
    (hkind : token.kind = .endOfInput) : lexer.brackets = [] := by
  generalize hresult : Except.ok (token, behind) = result at hfinds
  induction hfinds with
  | indentation | failing => cases hresult
  | level hstart =>
    cases hresult
    obtain ⟨-, -, ⟨rfl, -⟩ | ⟨rfl, -⟩⟩ := readLineStart_some hstart <;> cases hkind
  | token hstart hwithin =>
    cases hresult
    have hentered := congrArg brackets (readLineStart_none hstart).2.2
    obtain ⟨cursor, -, -, hcases⟩ := readWithin_ok hwithin
    rcases hcases with ⟨-, token, htoken, hend⟩ | ⟨-, -, htoken⟩ |
      ⟨-, c, token, hpeek, htoken, hsignificant⟩
    · exact hentered.symm.trans (readEnd_ok hend).1
    · split at htoken <;> cases htoken
      cases hkind
    · cases htoken
      exact absurd hkind (readSignificant_ok hpeek hsignificant).1.2.1
  | line hstart hwithin _ ih =>
    have hentered := congrArg brackets (readLineStart_none hstart).2.2
    obtain ⟨cursor, htrivia, -, hcases⟩ := readWithin_ok hwithin
    rcases hcases with ⟨-, _, htoken, -⟩ | ⟨-, hbehind, -⟩ | ⟨-, _, _, -, htoken, -⟩
    · cases htoken
    · have hbrackets := ih hresult
      rw [hbehind] at hbrackets
      exact hentered.symm.trans hbrackets
    · cases htoken

private theorem NamesNone.not_isOpenBracket {failure : LexFailure} {kind : TokenKind}
    (hnames : NamesNone failure) (htoken : failure.error.token = some kind) :
    ¬kind.isOpenBracket := by
  have hclose := hnames kind htoken
  revert hclose
  cases kind <;> decide

/-- A failure within a line that names an opening bracket is one of the end of the source. -/
theorem readWithin_open {failure : LexFailure} {kind : TokenKind}
    (hread : lexer.readWithin = .error failure) (htoken : failure.error.token = some kind)
    (hkind : kind.isOpenBracket) :
    ∃ span outer stop, lexer.brackets = (kind, span) :: outer ∧
      failure.error = ⟨.unmatchedBracket, span, some kind⟩ ∧ lexer.cursor.Separates stop ∧
      stop.rest = [] := by
  obtain ⟨later, hseparates, hskip⟩ := skipTrivia_separates (!lexer.brackets.isEmpty) lexer.cursor
  unfold readWithin at hread
  cases htrivia : skipTrivia (!lexer.brackets.isEmpty) lexer.cursor with
  | error other =>
    rw [htrivia] at hread
    cases hread
    rw [skipTriviaFrom_token htrivia] at htoken
    cases htoken
  | ok cursor =>
    rw [htrivia] at hread hskip
    subst hskip
    simp only [bind, Except.bind] at hread
    split at hread
    · rename_i hrest
      split at hread
      · rename_i other hend
        cases hread
        unfold readEnd at hend
        dsimp only at hend
        split at hend
        · rename_i opened span outer hbrackets
          cases hend
          cases htoken
          exact ⟨span, outer, cursor, hbrackets, rfl, hseparates, hrest⟩
        · split at hend
          · cases hend
          · split at hend <;> cases hend
      · cases hread
    · rename_i c cs hrest
      split at hread
      · split at hread <;> cases hread
      · split at hread
        · rename_i other hsignificant
          cases hread
          have hfails := readSignificant_fails (by simp [Cursor.peek?, hrest]) hsignificant
          exact absurd hkind (hfails.2.not_isOpenBracket htoken)
        · cases hread

/-- A failure that names an opening bracket blames the innermost that is open, behind which only
separators follow. -/
theorem Finds.failure_open {failure : LexFailure} {kind : TokenKind} (hreading : lexer.Reading source)
    (hfinds : lexer.Finds (.error failure)) (htoken : failure.error.token = some kind)
    (hkind : kind.isOpenBracket) :
    ∃ span outer stop, lexer.brackets = (kind, span) :: outer ∧
      failure.error = ⟨.unmatchedBracket, span, some kind⟩ ∧ lexer.cursor.Separates stop ∧
      stop.rest = [] := by
  generalize hresult : Except.error failure = result at hfinds
  induction hfinds with
  | level | token => cases hresult
  | indentation hstart =>
    cases hresult
    exact absurd hkind ((readLineStart_fails hstart).2.not_isOpenBracket htoken)
  | failing hstart hwithin =>
    cases hresult
    have hattempt := readLineStart_attempt hreading
    rw [hstart] at hattempt
    have hentered := congrArg brackets (readLineStart_none hstart).2.2
    obtain ⟨span, outer, stop, hbrackets, herror, hseparates, hend⟩ :=
      readWithin_open hwithin htoken hkind
    exact ⟨span, outer, stop, hentered.symm.trans hbrackets, herror, hattempt.1.trans hseparates, hend⟩
  | line hstart hwithin _ ih =>
    have hattempt := readLineStart_attempt hreading
    rw [hstart] at hattempt
    have hbehind := (readWithin_attempt hattempt.2).1
    rw [hwithin] at hbehind
    have hentered := congrArg brackets (readLineStart_none hstart).2.2
    obtain ⟨cursor, -, -, ⟨-, _, hsome, -⟩ | ⟨-, hskipped, -⟩ | ⟨-, _, _, -, hsome, -⟩⟩ :=
      readWithin_ok hwithin
    · cases hsome
    · obtain ⟨span, outer, stop, hbrackets, herror, hseparates, hend⟩ := ih hbehind.2 hresult
      rw [hskipped] at hbrackets
      exact ⟨span, outer, stop, hentered.symm.trans hbrackets, herror,
        (hattempt.1.trans hbehind.1).trans hseparates, hend⟩
    · cases hsome

/-- Where only separators follow to the end of the source, the lexer blames the innermost open
bracket. -/
theorem Tracks.read_end {innermost : Token} {outer : List Token} {stop : Cursor}
    (htracks : lexer.Tracks (innermost :: outer)) (hseparates : lexer.cursor.Separates stop)
    (hend : stop.rest = []) :
    ∃ failure, lexer.read = .error failure ∧
      failure.error = ⟨.unmatchedBracket, innermost.span, some innermost.kind⟩ := by
  have hbrackets : lexer.brackets = (innermost.kind, innermost.span) ::
      outer.map fun token => (token.kind, token.span) := htracks.brackets_eq
  have hpending : lexer.pendingDedents = 0 := by
    by_contra hpending
    cases htracks.opened_of_pendingDedents hpending
  have hstart : lexer.readLineStart = .ok (none, lexer) := by
    simp [Lexer.readLineStart, hbrackets]
  refine ⟨⟨⟨.unmatchedBracket, innermost.span, some innermost.kind⟩, stop⟩, ?_, rfl⟩
  have hwithin : lexer.readWithin = .error
      ⟨⟨.unmatchedBracket, innermost.span, some innermost.kind⟩, stop⟩ := by
    unfold Lexer.readWithin
    simp only [hbrackets, List.isEmpty_cons, Bool.not_false, hseparates.skipTrivia_end hend, bind,
      Except.bind, hend, readEnd]
  unfold read
  simp only [hpending, readLines_succ, hstart, hwithin, bind, Except.bind]

/-! ## A whole run -/

/-- The readable tokens of a run take steps one after the other, up to the lexer behind them. -/
theorem Tracks.runFor (htracks : lexer.Tracks opened) (hreading : lexer.Reading source) (fuel : Nat) :
    ∃ opened', BracketRun opened ((readable (runFor fuel lexer)).map Prod.fst) opened' ∧
      (lexer.after (readable (runFor fuel lexer)).length).Tracks opened' ∧
      (lexer.after (readable (runFor fuel lexer)).length).Reading source := by
  induction fuel generalizing lexer opened with
  | zero => exact ⟨opened, .nil, htracks, hreading⟩
  | succ fuel ih =>
    rw [Lexer.runFor]
    dsimp only
    by_cases hreadable : lexer.next.1.kind.IsReadable
    · obtain ⟨middle, hstep, hbehind⟩ := htracks.next hreading hreadable
      obtain ⟨opened', hrun, hafter⟩ := ih hbehind (next_covers hreading hreadable).2.2
      rw [if_neg hreadable.2]
      simp only [readable, hreadable, decide_true, List.takeWhile_cons_of_pos, List.map_cons,
        List.length_cons]
      exact ⟨opened', .cons hstep hrun, hafter⟩
    · refine ⟨opened, ?_, ?_⟩
      · split <;> simpa [readable, hreadable] using .nil
      · split <;> simpa [readable, hreadable] using ⟨htracks, hreading⟩

/-- A token that is not readable stands behind the readable ones of a run that comes to its end. -/
theorem Reading.not_isReadable (hreading : lexer.Reading source) {fuel : Nat}
    (hfuel : lexer.weight + 2 ≤ fuel) :
    ¬(lexer.after (readable (runFor fuel lexer)).length).next.1.kind.IsReadable := by
  induction fuel generalizing lexer with
  | zero => omega
  | succ fuel ih =>
    have hnone : ¬lexer.next.1.kind.IsReadable → readable (Lexer.runFor (fuel + 1) lexer) = [] := by
      intro hkind
      rw [Lexer.runFor]
      dsimp only
      split <;> simp [readable, hkind]
    rcases hreading.next_ended with ⟨hreadable, hbehind, hweight⟩ | ⟨htoken, -⟩ | ⟨hinvalid, -⟩
    · rw [Lexer.runFor]
      dsimp only
      rw [if_neg hreadable.2]
      simp only [readable, hreadable, decide_true, List.takeWhile_cons_of_pos, List.length_cons]
      exact ih hbehind (by omega)
    · have hkind : ¬lexer.next.1.kind.IsReadable := by
        rw [htoken]
        exact fun hreadable => hreadable.2 rfl
      rw [hnone hkind]
      exact hkind
    · have hkind : ¬lexer.next.1.kind.IsReadable := fun hreadable => hreadable.1 hinvalid
      rw [hnone hkind]
      exact hkind

/-- Behind the readable tokens of a source the lexer comes to the end of the input, outside of all
brackets, or fails. -/
theorem run_end {source : String}
    (htracks : ((ofSource source).after (readable (run source)).length).Tracks opened)
    (hlast : ((ofSource source).after (readable (run source)).length).Reading source.toList) :
    opened = [] ∨ ∃ failure,
      ((ofSource source).after (readable (run source)).length).read = .error failure ∧
        ((ofSource source).after (readable (run source)).length).Finds (.error failure) ∧
        (Tokens.ofSource source).failure = some failure.error := by
  have hend : ¬((ofSource source).after (readable (run source)).length).next.1.kind.IsReadable :=
    (ofSource_reading source).not_isReadable (ofSource_weight_le source)
  have hbehind := after_succ (ofSource source) (readable (run source)).length
  generalize (readable (run source)).length = count at htracks hlast hend hbehind ⊢
  have hcases := read_cases hlast
  have hlexer : ¬((ofSource source).after count).failure.isSome := by simp [hlast.failure_eq]
  rw [next, if_neg hlexer] at hend hbehind
  cases hread : ((ofSource source).after count).read with
  | error failure =>
    rw [hread] at hbehind hcases
    have hknown : (Tokens.ofSource source).failureWithin (count + 1) = some failure.error := by
      rw [Tokens.failureWithin_ofSource, hbehind]
    refine .inr ⟨failure, rfl, ?_, Tokens.failure_of_failureWithin hknown⟩
    rcases hcases with ⟨_, -, hdedent⟩ | ⟨-, hfinds⟩
    · cases hdedent
    · exact hfinds
  | ok result =>
    rw [hread] at hend hcases
    rcases hcases with ⟨_, -, hdedent⟩ | ⟨-, hfinds⟩
    · cases hdedent
      exact absurd (show TokenKind.dedent.IsReadable by decide) hend
    · have hvalid := read_outcome hlast
      rw [hread] at hvalid
      obtain ⟨-, -, -, -, -, -, -, hvalid, -⟩ := hvalid
      have hbrackets := hfinds.brackets_of_endOfInput (by
        by_contra hkind
        exact hend ⟨hvalid, hkind⟩)
      rw [htracks.brackets_eq, List.map_eq_nil_iff] at hbrackets
      exact .inl hbrackets

/-- In front of the first token that is invalid or the end of the input every closing bracket
matches the innermost bracket that is open, and line structure stands outside of all brackets. If
the lexer does not fail, all brackets are closed in the end. If some are open, the lexer blames the
innermost of them exactly if only separators follow to the end of the source. -/
theorem run_brackets (source : String) :
    ∃ opened, BracketRun [] ((readable (run source)).map Prod.fst) opened ∧
      ((Tokens.ofSource source).failure = none → opened = []) ∧
      ∀ innermost outer, opened = innermost :: outer →
        ((∃ stop, ((ofSource source).after (readable (run source)).length).cursor.Separates stop ∧
            stop.rest = []) ↔
          (Tokens.ofSource source).failure =
            some ⟨.unmatchedBracket, innermost.span, some innermost.kind⟩) := by
  obtain ⟨opened, hrun, htracks, hlast⟩ := (ofSource_tracks source).runFor
    (ofSource_reading source) (2 * source.utf8ByteSize + 3)
  have hend := run_end htracks hlast
  refine ⟨opened, hrun, fun hclean => ?_, ?_⟩
  · rcases hend with hclosed | ⟨failure, -, -, hfailure⟩
    · exact hclosed
    · rw [hclean] at hfailure
      cases hfailure
  · rintro innermost outer rfl
    have hopen := hrun.isOpenBracket (List.forall_mem_nil _) innermost List.mem_cons_self
    obtain hclosed | ⟨failure, hread, hfinds, hfailure⟩ := hend
    · cases hclosed
    constructor
    · rintro ⟨stop, hseparates, hstop⟩
      obtain ⟨blamed, hblamed, herror⟩ := htracks.read_end hseparates hstop
      cases hread.symm.trans hblamed
      rw [hfailure, herror]
    · intro hblamed
      rw [hfailure, Option.some.injEq] at hblamed
      obtain ⟨-, -, stop, -, -, hseparates, hstop⟩ :=
        hfinds.failure_open hlast (by rw [hblamed]) hopen
      exact ⟨stop, hseparates, hstop⟩

/-- Brackets in a replacement field of a literal are none of the source. -/
example : (Tokens.ofSource "[f'\x7b(]\x7d'\n").failure =
    some ⟨.unmatchedBracket, ⟨0, 1⟩, some .bracketOpen⟩ := by
  decide +kernel

end Lexer

end PythonOutline
