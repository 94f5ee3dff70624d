import PythonOutline.Proofs.Lexer.Brackets

/-! # Where tokens and failures stand

Whatever the lexer reports lies in the source and can be cut out of it. The failures of the scanners
lie between two cursors, of which the scanner has passed the first one on its way to the second. The
only failure that lies elsewhere is about a bracket that is still open at the end of the source, and
that one has the span of the token that opened it. -/

namespace PythonOutline

/-- A span that can be cut out of a source. It may be empty. -/
structure Span.IsIn (source : List Char) (span : Span) : Prop where
  start_le : span.start ≤ span.stop
  start_isBoundary : Text.IsBoundary source span.start
  stop_isBoundary : Text.IsBoundary source span.stop

/-- A span of the text from a cursor on. -/
def Cursor.Spans (cursor : Cursor) (span : Span) : Prop :=
  ∃ start stop, cursor.Reaches start ∧ start.Reaches stop ∧ span = ⟨start.offset, stop.offset⟩

variable {source : List Char} {cursor later stop : Cursor} {span : Span} {failure : LexFailure}

/-- What has been passed is a span. -/
theorem Cursor.Reaches.spans (hreaches : cursor.Reaches stop) :
    cursor.Spans ⟨cursor.offset, stop.offset⟩ :=
  ⟨cursor, stop, .refl cursor, hreaches, rfl⟩

/-- A span behind a later cursor is behind an earlier one. -/
theorem Cursor.Spans.after (hreaches : cursor.Reaches later) (hspans : later.Spans span) :
    cursor.Spans span := by
  obtain ⟨start, stop, hstart, hspan⟩ := hspans
  exact ⟨start, stop, hreaches.trans hstart, hspan⟩

/-- A span behind a cursor in the source is in the source. -/
theorem Cursor.Spans.isIn (hin : cursor.IsIn source) (hspans : cursor.Spans span) :
    span.IsIn source := by
  obtain ⟨start, stop, ⟨_, hstart⟩, ⟨_, hstop⟩, rfl⟩ := hspans
  have hstartIn := hin.passes hstart
  exact ⟨hstop.offset_le, hstartIn.isBoundary, (hstartIn.passes hstop).isBoundary⟩

private theorem Span.isIn_point {offset : Nat} (hoffset : Text.IsBoundary source offset) :
    (Span.point offset).IsIn source :=
  ⟨Nat.le_refl _, hoffset, hoffset⟩

/-! ## Scanners -/

/-- Where a scanner stops, whether it has passed the text or given it up. -/
def scanEnd : Except Cursor Cursor → Cursor
  | .ok stop => stop
  | .error stop => stop

/-- One scanner after another. -/
theorem reaches_bind {first : Except Cursor Cursor} {others : Cursor → Except Cursor Cursor}
    (hfirst : cursor.Reaches (scanEnd first))
    (hothers : ∀ middle : Cursor, middle.Reaches (scanEnd (others middle))) :
    cursor.Reaches (scanEnd (first >>= others)) := by
  cases first with
  | error => exact hfirst
  | ok middle => exact hfirst.trans (hothers middle)

/-- A choice between two scanners that both start here. -/
theorem reaches_ite {choice : Prop} [Decidable choice] {first second : Except Cursor Cursor}
    (hfirst : cursor.Reaches (scanEnd first)) (hsecond : cursor.Reaches (scanEnd second)) :
    cursor.Reaches (scanEnd (if choice then first else second)) := by
  split
  · exact hfirst
  · exact hsecond

private theorem reaches_ite_bind {choice : Prop} [Decidable choice]
    {first second : Except Cursor Cursor} {others : Cursor → Except Cursor Cursor}
    (hfirst : cursor.Reaches (scanEnd first)) (hsecond : cursor.Reaches (scanEnd second))
    (hothers : ∀ middle : Cursor, middle.Reaches (scanEnd (others middle))) :
    cursor.Reaches (scanEnd (if choice then first >>= others else second >>= others)) :=
  reaches_ite (reaches_bind hfirst hothers) (reaches_bind hsecond hothers)

private theorem reaches_advance_if (choice : Prop) [Decidable choice] (cursor : Cursor) :
    cursor.Reaches (if choice then cursor.advance else cursor) := by
  split
  · exact cursor.reaches_advance
  · exact .refl cursor

private theorem reaches_scanDigits (digits : Text.CharSet) (cursor : Cursor) :
    cursor.Reaches (scanEnd (scanDigits digits cursor)) := by
  have hreaches := scanDigitsFrom_reaches digits false false cursor.rest cursor.offset
  exact reaches_ite hreaches hreaches

private theorem reaches_scanRadixDigits (digits : Text.CharSet) (cursor : Cursor) :
    cursor.Reaches (scanEnd (scanRadixDigits digits cursor)) := by
  obtain ⟨rest, offset⟩ := cursor
  simp only [scanRadixDigits]
  split
  · rename_i cs
    have hreaches : (⟨'_' :: cs, offset⟩ : Cursor).Reaches
        (scanDigitsFrom digits false true cs (offset + 1)).2 :=
      .cons (scanDigitsFrom_reaches digits false true cs _)
    exact reaches_ite hreaches hreaches
  · have hreaches := scanDigitsFrom_reaches digits false false rest offset
    exact reaches_ite hreaches hreaches

private theorem reaches_scanOptionalDigits (cursor : Cursor) :
    cursor.Reaches (scanEnd (scanOptionalDigits cursor)) :=
  reaches_ite (reaches_scanDigits _ cursor) (.refl cursor)

private theorem reaches_scanExponent (cursor : Cursor) :
    cursor.Reaches (scanEnd (scanExponent cursor)) :=
  (cursor.reaches_advance.trans (reaches_advance_if _ _)).trans (reaches_scanDigits _ _)

private theorem reaches_scanDecimalNumber (cursor : Cursor) :
    cursor.Reaches (scanEnd (scanDecimalNumber cursor)) := by
  refine reaches_bind (reaches_scanOptionalDigits cursor) fun integer => ?_
  refine reaches_ite_bind (integer.reaches_advance.trans (reaches_scanOptionalDigits _))
    (.refl integer) fun fraction => ?_
  refine reaches_ite_bind (reaches_scanExponent fraction) (.refl fraction) fun exponent => ?_
  exact reaches_ite (reaches_advance_if _ exponent) (reaches_advance_if _ exponent)

private theorem reaches_scanNumber (cursor : Cursor) :
    cursor.Reaches (scanEnd (scanNumber cursor)) := by
  unfold scanNumber
  split
  · refine reaches_bind ?_ fun behind => ?_
    · exact (cursor.reaches_advanceBy 2).trans (reaches_scanRadixDigits _ _)
    · exact reaches_ite behind.reaches_advance (.refl behind)
  · exact reaches_scanDecimalNumber cursor

private theorem reaches_unterminated {skip : Nat} {modes : List StringMode} {cs : List Char}
    {offset : Nat} (hscan : scanStringFrom skip modes cs offset = .unterminated stop) :
    (⟨cs, offset⟩ : Cursor).Reaches stop := by
  fun_induction scanStringFrom skip modes cs offset with
  | case1 => cases hscan
  | case2 =>
    cases hscan
    exact .refl _
  | case3 skip modes c cs offset ih => exact .cons (ih hscan)
  | case4 mode outer c cs offset hstep =>
    cases hscan
    exact .refl _
  | case5 mode outer c cs offset skip modes hstep ih => exact .cons (ih hscan)

private theorem reaches_scanString_unterminated {formatted : Bool}
    (hscan : scanString formatted cursor = .unterminated stop) : cursor.Reaches stop := by
  obtain ⟨rest, offset⟩ := cursor
  cases rest with
  | nil =>
    cases hscan
    exact .refl _
  | cons c cs => exact .cons (reaches_unterminated hscan)

/-! ## The failures of the lexer -/

/-- A computation fails if its first step does or the others do behind it. -/
theorem bind_eq_error_iff {ε α β : Type} {first : Except ε α} {others : α → Except ε β} {error : ε} :
    first >>= others = .error error ↔
      first = .error error ∨ ∃ value, first = .ok value ∧ others value = .error error := by
  cases first with
  | error => simp [bind, Except.bind]
  | ok value => simp [bind, Except.bind]

namespace Lexer

variable {lexer behind : Lexer} {opened : List Token} {token : Token}

private theorem string_spans {quote : Cursor} {formatted : Bool} (hquote : cursor.Reaches quote)
    (hstring : string cursor.offset formatted quote = .error failure) :
    cursor.Spans failure.error.span := by
  rw [string_eq] at hstring
  split at hstring
  · cases hstring
  · rename_i stop hscan
    cases hstring
    exact (hquote.trans (reaches_scanString_unterminated hscan)).spans

/-- A token that cannot be read is reported in the text from where it starts. -/
private theorem significant_spans {c : Char}
    (hsignificant : significant c cursor = .error failure) :
    cursor.Spans failure.error.span := by
  unfold significant at hsignificant
  split at hsignificant
  · simp only [word] at hsignificant
    split at hsignificant
    · exact string_spans ⟨_, cursor.passes_skipWhile _⟩ hsignificant
    · cases hsignificant
  split at hsignificant
  · have hreaches := reaches_scanNumber cursor
    unfold number at hsignificant
    split at hsignificant
    · cases hsignificant
    · rename_i stop hscan
      rw [hscan] at hreaches
      cases hsignificant
      exact hreaches.spans
  split at hsignificant
  · exact string_spans (.refl cursor) hsignificant
  · unfold operator at hsignificant
    split at hsignificant
    · cases hsignificant
    · cases hsignificant
      exact cursor.reaches_advance.spans

/-- A backslash in front of no line break fails at its own byte. -/
theorem skipTriviaFrom_spans {inBrackets inComment : Bool} {cs : List Char} {offset : Nat}
    (hskip : skipTriviaFrom inBrackets inComment cs offset = .error failure) :
    (⟨cs, offset⟩ : Cursor).Spans failure.error.span := by
  have hpass : ∀ (text : List Char) {cs : List Char} {offset : Nat} {span : Span},
      (⟨cs, offset + Text.byteLength text⟩ : Cursor).Spans span →
      (⟨text ++ cs, offset⟩ : Cursor).Spans span :=
    fun text _ _ _ hspans => hspans.after ⟨text, rfl, rfl⟩
  fun_induction skipTriviaFrom inBrackets inComment cs offset with
  | case1 => cases hskip
  | case2 inComment c cs offset hline _ ih =>
    have hsize : Text.byteLength [c] = 1 := by rcases hline with rfl | rfl <;> rfl
    exact hpass [c] (hsize ▸ ih hskip)
  | case3 => cases hskip
  | case4 c cs offset hline ih => exact hpass [c] (ih hskip)
  | case5 inComment c cs offset _ hcomment hblank ih => exact hpass [c] (ih hskip)
  | case6 inComment cs offset hcomment _ _ ih => exact hpass ['#'] (ih hskip)
  | case7 inComment offset hcomment after _ _ _ ih => exact hpass ['\\', '\r', '\n'] (ih hskip)
  | case8 inComment offset hcomment after _ _ _ _ ih => exact hpass ['\\', '\r'] (ih hskip)
  | case9 inComment offset hcomment after _ _ _ ih => exact hpass ['\\', '\n'] (ih hskip)
  | case10 inComment offset hcomment =>
    cases hskip
    exact (Cursor.reaches_advance ⟨['\\'], offset⟩).spans
  | case11 inComment cs offset hcomment =>
    cases hskip
    exact (Cursor.reaches_advance ⟨'\\' :: cs, offset⟩).spans
  | case12 => cases hskip

/-- A failure lies in the text from where the lexer stands on, or it is about an open bracket. -/
def FailsInside (lexer : Lexer) (failure : LexFailure) : Prop :=
  lexer.cursor.Spans failure.error.span ∨
    ∃ bracket ∈ lexer.brackets, bracket.2 = failure.error.span

private theorem readSignificant_failsInside {c : Char} (hpeek : lexer.cursor.peek? = some c)
    (hread : lexer.readSignificant c = .error failure) :
    lexer.cursor.Spans failure.error.span := by
  have hextent := significant_extent hpeek
  rcases bind_eq_error_iff.mp hread with hsignificant | ⟨⟨kind, stop⟩, hsignificant, hread⟩
  · exact significant_spans hsignificant
  · rw [hsignificant] at hextent
    rcases bind_eq_error_iff.mp hread with htrack | ⟨brackets, -, hread⟩
    · rw [trackBrackets_error htrack]
      exact hextent.2.1.spans
    · cases hread

private theorem readEnd_failsInside (hread : lexer.readEnd = .error failure) :
    ∃ bracket ∈ lexer.brackets, bracket.2 = failure.error.span := by
  unfold readEnd at hread
  dsimp only at hread
  split at hread
  · rename_i opened span outer hbrackets
    cases hread
    exact ⟨(opened, span), by simp [hbrackets], rfl⟩
  · split at hread
    · cases hread
    · split at hread <;> cases hread

/-- Behind the start of a line only the text ahead and the open brackets are reported. -/
private theorem readWithin_failsInside (hread : lexer.readWithin = .error failure) :
    lexer.FailsInside failure := by
  rcases bind_eq_error_iff.mp hread with htrivia | ⟨cursor, htrivia, hread⟩
  · exact .inl (skipTriviaFrom_spans htrivia)
  obtain ⟨later, hseparates, hskip⟩ := skipTrivia_separates (!lexer.brackets.isEmpty) lexer.cursor
  rw [htrivia] at hskip
  subst hskip
  dsimp only at hread
  split at hread
  · rcases bind_eq_error_iff.mp hread with hend | ⟨result, -, hread⟩
    · obtain ⟨bracket, hbracket, hspan⟩ := readEnd_failsInside hend
      exact .inr ⟨bracket, hbracket, hspan⟩
    · cases hread
  · rename_i c cs hrest
    split at hread
    · split at hread <;> cases hread
    · rcases bind_eq_error_iff.mp hread with hsignificant | ⟨result, -, hread⟩
      · have hpeek : cursor.peek? = some c := by simp [Cursor.peek?, hrest]
        exact .inl ((readSignificant_failsInside hpeek hsignificant).after hseparates.reaches)
      · cases hread

/-- The indentation of a line is blamed as a whole. -/
theorem readLineStart_failsInside (hstart : lexer.readLineStart = .error failure) :
    lexer.cursor.Spans failure.error.span := by
  have hfind := LineStart.find_separatedFrom lexer.cursor
  unfold readLineStart at hstart
  split at hstart
  · unfold readIndentation at hstart
    split at hstart
    · cases hstart
    · rename_i start width stop hline
      rw [hline] at hfind
      obtain ⟨lineStart, hbefore, rfl, hblanks⟩ := hfind
      dsimp only at hstart
      split at hstart <;> cases hstart
      exact ⟨lineStart, stop, hbefore.reaches, hblanks.reaches, rfl⟩
  · cases hstart

/-- A failure behind some text that changed no bracket. -/
theorem FailsInside.after (hreaches : lexer.cursor.Reaches behind.cursor)
    (hbrackets : behind.brackets = lexer.brackets) (hfails : behind.FailsInside failure) :
    lexer.FailsInside failure := by
  rw [FailsInside, hbrackets] at hfails
  exact hfails.imp_left (·.after hreaches)

/-- However many lines without tokens come first, a failure lies behind them or at an open
bracket. -/
private theorem Finds.failsInside (hfinds : lexer.Finds (.error failure)) :
    lexer.FailsInside failure := by
  generalize hresult : Except.error failure = result at hfinds
  induction hfinds with
  | level | token => cases hresult
  | indentation hstart =>
    cases hresult
    exact .inl (readLineStart_failsInside hstart)
  | failing hstart hwithin =>
    cases hresult
    obtain ⟨hreaches, -, hentered⟩ := readLineStart_none hstart
    exact (readWithin_failsInside hwithin).after hreaches (congrArg brackets hentered :)
  | line hstart hwithin _ ih =>
    obtain ⟨hreaches, -, hentered⟩ := readLineStart_none hstart
    obtain ⟨cursor, -, hskipped, ⟨-, token, htoken, -⟩ | ⟨hbreak, hbehind, -⟩ |
      ⟨-, c, token, -, htoken, -⟩⟩ := readWithin_ok hwithin
    · cases htoken
    · obtain ⟨text, hpasses, -⟩ := skipLineBreak?_passes hbreak
      exact ((ih hresult).after (hskipped.trans ⟨text, hpasses⟩) (congrArg brackets hbehind :)).after
        hreaches (congrArg brackets hentered :)
    · cases htoken

private theorem read_failsInside (hreading : lexer.Reading source)
    (hread : lexer.read = .error failure) :
    lexer.FailsInside failure := by
  rcases read_cases hreading with ⟨pendingDedents, -, hdedent⟩ | ⟨-, hfinds⟩
  · rw [hdedent] at hread
    cases hread
  · rw [hread] at hfinds
    exact hfinds.failsInside

/-! ## The run of the lexer -/

/-- A lexer in a source that has not failed. The tokens whose brackets it keeps lie in
the source. -/
structure Inside (source : List Char) (lexer : Lexer) (opened : List Token) : Prop where
  reading : lexer.Reading source
  tracks : lexer.Tracks opened
  isIn_opened : ∀ token ∈ opened, token.span.IsIn source

/-- A call that answers a readable token keeps everything inside. -/
theorem Inside.next (hinside : lexer.Inside source opened) (hreadable : lexer.next.1.kind.IsReadable) :
    ∃ opened', lexer.next.2.Inside source opened' := by
  obtain ⟨hcovers, -, hreading⟩ := next_covers hinside.reading hreadable
  obtain ⟨opened', hstep, htracks⟩ := hinside.tracks.next hinside.reading hreadable
  refine ⟨opened', hreading, htracks, ?_⟩
  have htoken : lexer.next.1.span.IsIn source :=
    ⟨hcovers.start_le, hcovers.start_isBoundary, hcovers.stop_isBoundary⟩
  have hopened := hinside.isIn_opened
  cases hstep with
  | opening => exact List.forall_mem_cons.mpr ⟨htoken, hopened⟩
  | closing => exact (List.forall_mem_cons.mp hopened).2
  | text | structural => exact hopened

/-- Whatever the lexer answers lies in the source. -/
theorem Inside.isIn_next (hinside : lexer.Inside source opened) : lexer.next.1.span.IsIn source := by
  have houtcome := read_outcome hinside.reading
  rw [Lexer.next, if_neg (by simp [hinside.reading.failure_eq])]
  cases hread : lexer.read with
  | ok result =>
    rw [hread] at houtcome
    obtain ⟨start, text, hseparates, hpasses, hspan, -⟩ := houtcome
    have hspans : lexer.cursor.Spans result.1.span :=
      ⟨start, result.2.cursor, hseparates.reaches, ⟨text, hpasses⟩, hspan⟩
    exact hspans.isIn hinside.reading.isIn
  | error failure =>
    rcases read_failsInside hinside.reading hread with hspans | ⟨bracket, hbracket, hspan⟩
    · exact hspans.isIn hinside.reading.isIn
    · rw [hinside.tracks.brackets_eq] at hbracket
      obtain ⟨token, htoken, rfl⟩ := List.mem_map.mp hbracket
      have hspan : token.span = failure.error.span := hspan
      have hisIn := hinside.isIn_opened token htoken
      rwa [hspan] at hisIn

/-- Every token of a run lies in the source. -/
theorem Inside.isIn_after (hinside : lexer.Inside source opened) (index : Nat) :
    (lexer.after index).next.1.span.IsIn source := by
  induction index generalizing lexer opened with
  | zero => exact hinside.isIn_next
  | succ index ih =>
    have hended : lexer.next.2.size = lexer.size → lexer.next.2.Ended →
        (lexer.after (index + 1)).next.1.span.IsIn source := by
      intro hsize hended
      rw [after, hended.after, hended, hsize, hinside.reading.size_eq]
      exact Span.isIn_point ⟨source, [], (List.append_nil source).symm, rfl⟩
    rcases hinside.reading.next_ended with ⟨hreadable, -⟩ | ⟨-, hsize, hlast⟩ | ⟨-, hsize, hlast⟩
    · obtain ⟨opened', hbehind⟩ := hinside.next hreadable
      exact ih hbehind
    · exact hended hsize hlast
    · exact hended hsize hlast

end Lexer

/-! ## Token sequences -/

namespace Tokens

/-- Every token of a source lies in it, an invalid one and the ends of input included. -/
theorem isIn_ofSource (source : String) (index : Nat) :
    ((ofSource source).get index).span.IsIn source.toList := by
  have hinside : (Lexer.ofSource source).Inside source.toList [] :=
    ⟨(Lexer.ofSource_reading source), Lexer.ofSource_tracks source, nofun⟩
  rw [get_ofSource_eq_next]
  exact hinside.isIn_after index

/-- The failure of a source lies in it. -/
theorem isIn_failure {source : String} {failure : SyntaxError}
    (hfailure : (ofSource source).failure = some failure) : failure.span.IsIn source.toList := by
  obtain ⟨index, hfails⟩ := failsAt_ofSource hfailure
  have hisIn := isIn_ofSource source index
  rwa [hfails.get_eq] at hisIn

end Tokens

end PythonOutline
