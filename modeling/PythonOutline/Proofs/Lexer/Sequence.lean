import PythonOutline.Proofs.Lexer.Brackets
import PythonOutline.Proofs.Lexer.Locality

/-! # Token sequences

What the tokens of a source have in common says enough about them to read them again from their
texts alone. A token with text is read wherever its text stands in front of a space or a line feed
(`Token.IsLexeme`). Levels, lines and brackets change as `LayoutStep` and `BracketStep` tell. And a
change of level stands in front of text or of another change in the same direction, unless a
backslash joins the line that changes the level with another one. -/

namespace PythonOutline

/-- Whether text between two tokens holds a backslash line join outside of comments. -/
def joinsLines (inComment : Bool) : List Char → Bool
  | [] => false
  | c :: cs =>
    if EndsLine c then joinsLines false cs
    else if inComment then joinsLines true cs
    else if c = '#' then joinsLines true cs
    else c = '\\' && cs.head?.any (EndsLine ·) || joinsLines false cs

/-- A token that is read from its text in front of any character that ends tokens. -/
def Token.IsLexeme (token : Token) : Prop :=
  ∃ first others, token.text.toList = first :: others ∧ StartsLexeme first ∧
    ∀ (c : Char) (tail : List Char) (offset : Nat), EndsLexeme c →
      Lexer.significant first ⟨token.text.toList ++ c :: tail, offset⟩ =
        .ok (token.kind, ⟨c :: tail, offset + Text.byteLength token.text.toList⟩)

/-- The tokens from a place of a layout on, behind some opening brackets, up to the end of the
input. -/
inductive TokenSequence : Layout → List Token → List Token → Prop where
  | last {token : Token} (hkind : token.kind = .endOfInput) : TokenSequence ⟨false, 0⟩ [] [token]
  | cons {before after : Layout} {opened opened' tokens : List Token} {token : Token}
      (hstep : LayoutStep before token.kind after) (hbrackets : BracketStep opened token opened')
      (hlexeme : token.kind.IsSolid → token.IsLexeme)
      (hindent : token.kind = .indent → ∀ next ∈ tokens.head?, next.kind.IsSolid)
      (hdedent : token.kind = .dedent → ∀ next ∈ tokens.head?, next.kind ≠ .indent)
      (hrest : TokenSequence after opened' tokens) : TokenSequence before opened (token :: tokens)

/-- A text that is passed in a source is a slice of it. -/
theorem Cursor.IsIn.slice_eq {source text : List Char} {cursor stop : Cursor}
    (hin : cursor.IsIn source) (hpasses : cursor.Passes text stop) :
    Text.slice source cursor.offset stop.offset = text := by
  obtain ⟨passed, hrest, hoffset⟩ := hin
  obtain rfl : source = passed ++ cursor.rest := hrest
  rw [Text.slice, Text.slice?, if_pos hpasses.offset_le, hoffset, Nat.zero_add,
    Text.dropBytes?_append, hpasses.offset_eq, hoffset, Nat.zero_add, Nat.add_sub_cancel_left,
    Option.bind_some, hpasses.rest_eq, Text.takeBytes?_append, Option.getD_some]

namespace Lexer

variable {source : List Char} {lexer behind : Lexer} {token : Token} {opened : List Token}

/-! ## Tokens with text -/

/-- A character that a significant token was read from may start one. -/
theorem startsLexeme_of_significant {c : Char} {cursor stop : Cursor} {kind : TokenKind}
    (hpeek : cursor.peek? = some c) (hread : significant c cursor = .ok (kind, stop)) :
    StartsLexeme c := by
  have hclass : ∀ inClass : Char → Bool, inClass c → inClass '\n' = false → inClass '\r' = false →
      inClass ' ' = false → inClass '\t' = false → inClass '\x0c' = false → inClass '#' = false →
      inClass '\\' = false → inClass byteOrderMark = false → StartsLexeme c := by
    intro inClass hc hfeed hreturn hspace htab hform hsign hjoin hmark
    have hne : ∀ other, inClass other = false → c ≠ other := by
      rintro other hother rfl
      rw [hc] at hother
      cases hother
    refine ⟨hne _ hfeed, hne _ hreturn, ?_, hne _ hsign, hne _ hjoin, hne _ hmark⟩
    refine Bool.eq_false_iff.mpr fun hblank => ?_
    rcases Text.blanks_contains_iff.mp hblank with rfl | rfl | rfl
    · exact hne _ hspace rfl
    · exact hne _ htab rfl
    · exact hne _ hform rfl
  unfold significant at hread
  split at hread
  · rename_i hstart
    exact startsLexeme_of_isIdentifierStart hstart
  split at hread
  · rename_i hnumber
    rw [Bool.or_eq_true, Bool.and_eq_true, decide_eq_true_eq] at hnumber
    apply hclass fun c => c.isDigit || c = '.'
    · simp only [Bool.or_eq_true, decide_eq_true_eq]
      exact hnumber.imp_right And.left
    all_goals decide
  split at hread
  · rename_i hquote
    apply hclass isQuote hquote <;> decide
  · unfold operator at hread
    split at hread
    · rename_i kind spelling hlongest
      obtain ⟨hentry, tail, htail⟩ := TokenKind.longestOperator?_eq_some hlongest
      obtain ⟨first, others, htext, hfirst, -⟩ := @significant_operator ' ' [] 0 _ hentry (.inl rfl)
      dsimp only at htext htail
      rw [Cursor.peek?, ← htail, htext] at hpeek
      cases hpeek
      exact hfirst
    · cases hread

/-- A significant token has a kind and a text that belong together. -/
private theorem isLexeme_of_significant {c : Char} {cursor stop : Cursor} {kind : TokenKind}
    (span : Span) (hpeek : cursor.peek? = some c)
    (hread : significant c cursor = .ok (kind, stop)) :
    (⟨kind, span, String.ofList (cursor.textTo stop)⟩ : Token).IsLexeme := by
  have hextent := significant_extent hpeek
  rw [hread] at hextent
  obtain ⟨-, ⟨text, hpasses⟩, hlt⟩ := hextent
  obtain ⟨rest, offset⟩ := cursor
  obtain ⟨after, stopOffset⟩ := stop
  obtain rfl : rest = text ++ after := hpasses.rest_eq
  obtain rfl : stopOffset = offset + Text.byteLength text := hpasses.offset_eq
  rw [hpasses.textTo_eq]
  cases text with
  | nil => exact absurd hlt (Nat.lt_irrefl _)
  | cons first others =>
    obtain rfl : first = c := by simpa [Cursor.peek?] using hpeek
    refine ⟨first, others, String.toList_ofList, startsLexeme_of_significant hpeek hread, ?_⟩
    intro d tail offset' hend
    rw [String.toList_ofList]
    exact significant_stopsLike offset' (.ends hend _ tail) rfl hread

/-- A token with text is read from a place that the lexer reaches. -/
theorem Finds.exists_significant (hfinds : lexer.Finds (.ok (token, behind)))
    (hsolid : token.kind.IsSolid) :
    ∃ c cursor, lexer.cursor.Reaches cursor ∧ cursor.peek? = some c ∧
      cursor.Reaches behind.cursor ∧
      token = ⟨token.kind, ⟨cursor.offset, behind.cursor.offset⟩,
        String.ofList (cursor.textTo behind.cursor)⟩ ∧
      significant c cursor = .ok (token.kind, behind.cursor) := by
  generalize hresult : Except.ok (token, behind) = result at hfinds
  induction hfinds with
  | indentation | failing => cases hresult
  | level hstart =>
    cases hresult
    obtain ⟨-, -, ⟨rfl, -⟩ | ⟨rfl, -⟩⟩ := readLineStart_some hstart <;>
      exact absurd hsolid.1 Bool.false_ne_true
  | token hstart hwithin =>
    cases hresult
    obtain ⟨cursor, -, hreaches, hcases⟩ := readWithin_ok hwithin
    rcases hcases with ⟨-, _, htoken, hend⟩ | ⟨-, -, htoken⟩ | ⟨-, c, _, hpeek, htoken, hread⟩
    · cases htoken
      obtain ⟨-, ⟨-, rfl, -⟩ | ⟨-, -, rfl, -⟩ | ⟨-, -, rfl, -⟩⟩ := readEnd_ok hend
      · exact absurd hsolid.1 Bool.false_ne_true
      · exact absurd hsolid.1 Bool.false_ne_true
      · exact absurd rfl hsolid.2.1
    · split at htoken <;> cases htoken
      exact absurd hsolid.1 Bool.false_ne_true
    · cases htoken
      obtain ⟨-, hstop, -, htoken, hsignificant, -⟩ := readSignificant_ok hpeek hread
      exact ⟨c, cursor, (readLineStart_reaches hstart).trans hreaches, hpeek, hstop, htoken,
        hsignificant⟩
  | line hstart hwithin _ ih =>
    obtain ⟨c, cursor, hreaches, hrest⟩ := ih hresult
    exact ⟨c, cursor, ((readLineStart_reaches hstart).trans (readWithin_reaches hwithin)).trans
      hreaches, hrest⟩

private theorem Finds.isLexeme (hfinds : lexer.Finds (.ok (token, behind)))
    (hsolid : token.kind.IsSolid) :
    token.IsLexeme := by
  obtain ⟨c, cursor, -, hpeek, -, htoken, hsignificant⟩ := hfinds.exists_significant hsolid
  rw [htoken]
  exact isLexeme_of_significant _ hpeek hsignificant

/-- The text of a token is enough to read it again. -/
theorem Reading.next_isLexeme (hreading : lexer.Reading source) (hsolid : lexer.next.1.kind.IsSolid) :
    lexer.next.1.IsLexeme := by
  rcases hreading.next_finds hsolid.2.2 with ⟨pendingDedents, -, hdedent⟩ | ⟨-, hfinds⟩
  · rw [hdedent] at hsolid
    exact absurd hsolid.1 Bool.false_ne_true
  · exact hfinds.isLexeme hsolid

/-! ## Changes of level -/

/-- A lexer in front of text, or at the end of the source, within a line. -/
def Settled (lexer : Lexer) : Prop :=
  lexer.atLineStart = false ∧
    (lexer.cursor.rest = [] ∨ ∃ c, lexer.cursor.peek? = some c ∧ StartsText c)

/-- Where dedents are due the indentation of the line has been looked at. -/
def Poised (lexer : Lexer) : Prop :=
  lexer.pendingDedents ≠ 0 → lexer.Settled

private theorem readLineStart_settled (hstart : lexer.readLineStart = .ok (some token, behind)) :
    behind.Settled := by
  unfold readLineStart at hstart
  split at hstart
  · unfold readIndentation at hstart
    split at hstart
    · cases hstart
    · rename_i start width stop hfind
      dsimp only at hstart
      split at hstart
      · cases hstart
      · cases hstart
      · cases hstart
        exact ⟨rfl, .inr (findFrom_startsText hfind)⟩
      · cases hstart
        exact ⟨rfl, .inr (findFrom_startsText hfind)⟩
  · cases hstart

/-- Behind a change of the level the lexer stands in front of text, or at the end. -/
theorem Finds.settled (hfinds : lexer.Finds (.ok (token, behind)))
    (hkind : token.kind.ChangesLevel) : behind.Settled := by
  generalize hresult : Except.ok (token, behind) = result at hfinds
  induction hfinds with
  | indentation | failing => cases hresult
  | level hstart =>
    cases hresult
    exact readLineStart_settled hstart
  | token hstart hwithin =>
    cases hresult
    obtain ⟨-, hline, -⟩ := readLineStart_none hstart
    obtain ⟨cursor, -, -, hcases⟩ := readWithin_ok hwithin
    rcases hcases with ⟨hrest, _, htoken, hend⟩ | ⟨-, -, htoken⟩ | ⟨-, c, _, hpeek, htoken, hread⟩
    · cases htoken
      obtain ⟨hbrackets, ⟨-, rfl, -⟩ | ⟨-, -, -, hbehind⟩ | ⟨-, -, rfl, -⟩⟩ := readEnd_ok hend
      · rcases hkind with hkind | hkind <;> cases hkind
      · dsimp only at hbrackets
        rw [hbehind]
        exact ⟨by simpa [hbrackets] using hline, .inl hrest⟩
      · rcases hkind with hkind | hkind <;> cases hkind
    · split at htoken <;> cases htoken
      rcases hkind with hkind | hkind <;> cases hkind
    · cases htoken
      exact absurd (readSignificant_ok hpeek hread).1.1 hkind.not_isSignificant
  | line _ _ _ ih => exact ih hresult

private theorem Reading.next_settled (hreading : lexer.Reading source) (hpoised : lexer.Poised)
    (hkind : lexer.next.1.kind.ChangesLevel) : lexer.next.2.Settled := by
  have hvalid : lexer.next.1.kind ≠ .invalid := fun hinvalid =>
    hkind.not_isSignificant (by rw [hinvalid]; rfl)
  rcases hreading.next_finds hvalid with ⟨pendingDedents, hdedents, hdedent⟩ | ⟨-, hfinds⟩
  · rw [hdedent]
    exact hpoised (by omega)
  · exact hfinds.settled hkind

private theorem Finds.poised (hfinds : lexer.Finds (.ok (token, behind)))
    (hpending : lexer.pendingDedents = 0) : behind.Poised := by
  generalize hresult : Except.ok (token, behind) = result at hfinds
  induction hfinds with
  | indentation | failing => cases hresult
  | level hstart =>
    cases hresult
    exact fun _ => readLineStart_settled hstart
  | token hstart hwithin =>
    cases hresult
    have hdedents := (readLineStart_weight hstart).2.trans hpending
    exact fun hdue => absurd ((readWithin_pendingDedents hwithin).trans hdedents) hdue
  | line hstart hwithin _ ih =>
    have hdedents := (readLineStart_weight hstart).2.trans hpending
    exact ih ((readWithin_pendingDedents hwithin).trans hdedents) hresult

private theorem Reading.next_poised (hreading : lexer.Reading source) (hpoised : lexer.Poised)
    (hvalid : lexer.next.1.kind ≠ .invalid) : lexer.next.2.Poised := by
  rcases hreading.next_finds hvalid with ⟨pendingDedents, hdedents, hdedent⟩ | ⟨hpending, hfinds⟩
  · rw [hdedent]
    exact fun _ => hpoised (by omega)
  · exact hfinds.poised hpending

/-- No indent is found with nothing left to read. -/
private theorem Finds.ne_indent (hfinds : lexer.Finds (.ok (token, behind)))
    (hline : lexer.atLineStart = false) (hrest : lexer.cursor.rest = []) : token.kind ≠ .indent := by
  have hstart : lexer.readLineStart = .ok (none, lexer) := by simp [readLineStart, hline]
  generalize hresult : Except.ok (token, behind) = result at hfinds
  cases hfinds with
  | indentation | failing => cases hresult
  | level hlevel =>
    rw [hstart] at hlevel
    cases hlevel
  | token _ hread =>
    cases hresult
    exact readWithin_ne_indent hread
  | line hnone hread =>
    rw [hstart] at hnone
    cases hnone
    have hlength : Text.byteLength lexer.cursor.rest = 0 := by rw [hrest, Text.byteLength_nil]
    obtain ⟨cursor, -, hreaches, ⟨-, _, hsome, -⟩ | ⟨hbreak, -, -⟩ | ⟨-, _, _, -, hsome, -⟩⟩ :=
      readWithin_ok hread
    · cases hsome
    · obtain ⟨text, hpasses, hmem⟩ := skipLineBreak?_passes hbreak
      have hlt := hpasses.offset_lt (by rintro rfl; exact absurd hmem (by decide))
      have hcursor := hreaches.offset_add
      have hstop := Cursor.Reaches.offset_add ⟨text, hpasses⟩
      have hle := hreaches.offset_le
      omega
    · cases hsome

/-! ## Line joins -/

/-- Where a backslash joins lines, the lexer reads on behind the line break. -/
theorem Finds.behind_join {result : Token × Lexer} (hfinds : lexer.Finds (.ok result))
    (hline : lexer.atLineStart = false) (hpeek : lexer.cursor.peek? = some '\\') :
    ∃ next, ∃ text ∈ lineBreaks, lexer.cursor.Passes ('\\' :: text) next ∧
      ({ lexer with cursor := next } : Lexer).Finds (.ok result) := by
  have hstart : lexer.readLineStart = .ok (none, lexer) := by simp [readLineStart, hline]
  have hwithin : ∀ {result : Option Token × Lexer}, lexer.readWithin = .ok result →
      ∃ next, ∃ text ∈ lineBreaks, lexer.cursor.Passes ('\\' :: text) next ∧
        ({ lexer with cursor := next } : Lexer).readWithin = .ok result := by
    intro result hread
    obtain ⟨⟨rest, offset⟩, size, levels, pendingDedents, brackets, atLineStart, lineHasTokens,
      failure⟩ := lexer
    cases rest with
    | nil => cases hpeek
    | cons c cs =>
      obtain rfl : c = '\\' := by simpa [Cursor.peek?] using hpeek
      have hskip := skipTriviaFrom_backslash (!brackets.isEmpty) cs offset
      cases hbreak : (⟨cs, offset + 1⟩ : Cursor).skipLineBreak? with
      | none =>
        rw [hbreak] at hskip
        rw [Lexer.readWithin, skipTrivia, hskip] at hread
        cases hread
      | some next =>
        rw [hbreak] at hskip
        obtain ⟨text, hpasses, hmem⟩ := skipLineBreak?_passes hbreak
        refine ⟨next, text, hmem, hpasses.cons, ?_⟩
        rw [← hread, Lexer.readWithin, Lexer.readWithin, skipTrivia, skipTrivia, hskip]
  generalize hresult : Except.ok result = found at hfinds
  cases hfinds with
  | indentation | failing => cases hresult
  | level hlevel =>
    rw [hstart] at hlevel
    cases hlevel
  | token hnone hread =>
    rw [hstart] at hnone
    cases hnone
    obtain ⟨next, text, hmem, hpasses, hread⟩ := hwithin hread
    exact ⟨next, text, hmem, hpasses, .token (by simp [readLineStart, hline]) hread⟩
  | line hnone hread hrest =>
    rw [hstart] at hnone
    cases hnone
    obtain ⟨next, text, hmem, hpasses, hread⟩ := hwithin hread
    exact ⟨next, text, hmem, hpasses, .line (by simp [readLineStart, hline]) hread hrest⟩

/-- The text that stands between a place of the source and the next token. -/
def gap (source : List Char) (lexer : Lexer) : List Char :=
  Text.slice source lexer.cursor.offset lexer.next.1.span.start

/-- A backslash that the lexer stands in front of within a line joins lines. -/
theorem Reading.joinsLines_gap (hreading : lexer.Reading source)
    (hvalid : lexer.next.1.kind ≠ .invalid) (hpending : lexer.pendingDedents = 0)
    (hline : lexer.atLineStart = false) (hpeek : lexer.cursor.peek? = some '\\') :
    joinsLines false (lexer.gap source) := by
  obtain ⟨_, hdedents, -⟩ | ⟨-, hfinds⟩ := hreading.next_finds hvalid
  · omega
  obtain ⟨next, text, hmem, hpasses, hfinds⟩ := hfinds.behind_join hline hpeek
  have hbehind : ({ lexer with cursor := next } : Lexer).Reading source := by
    refine ⟨hreading.isIn.passes hpasses, hreading.size_eq, fun bracket hbracket => ?_,
      hreading.failure_eq⟩
    exact (hreading.brackets_le bracket hbracket).trans hpasses.offset_le
  obtain ⟨start, _, hseparates, -, hspan, -⟩ := hfinds.outcome hbehind
  obtain ⟨more, hmore⟩ := hseparates.passes
  rw [gap, hspan, hreading.isIn.slice_eq (hpasses.trans hmore)]
  obtain ⟨c, others, rfl, hc⟩ : ∃ c others, text = c :: others ∧ EndsLine c := by
    simp only [lineBreaks, List.mem_cons, List.not_mem_nil, or_false] at hmem
    rcases hmem with rfl | rfl | rfl
    · exact ⟨_, _, rfl, .inl rfl⟩
    · exact ⟨_, _, rfl, .inr rfl⟩
    · exact ⟨_, _, rfl, .inr rfl⟩
  have hbackslash : ¬EndsLine '\\' := by decide
  simp [joinsLines, hc, hbackslash]

/-- Behind the start of a level stands text, unless a backslash joins the line with another one. -/
theorem Reading.next_isSolid (hreading : lexer.Reading source) (hindent : lexer.next.1.kind = .indent)
    (hbehind : lexer.next.2.Reading source) (hvalid : lexer.next.2.next.1.kind ≠ .invalid)
    (hjoins : ¬joinsLines false (lexer.next.2.gap source)) : lexer.next.2.next.1.kind.IsSolid := by
  obtain ⟨_, -, hdedent⟩ | ⟨hpending, hfinds⟩ := hreading.next_finds (by rw [hindent]; decide)
  · rw [hdedent] at hindent
    cases hindent
  obtain ⟨hpending, hline, -⟩ := hfinds.atText hpending hindent
  refine (hreading.next_of_indent hindent fun hpeek => ?_).resolve_left hvalid
  exact hjoins (hbehind.joinsLines_gap hvalid hpending hline hpeek)

/-- Behind a dedent no level is opened, unless a backslash joins the line with another one. -/
theorem Settled.next_ne_indent (hsettled : lexer.Settled) (hreading : lexer.Reading source)
    (hvalid : lexer.next.1.kind ≠ .invalid) (hjoins : ¬joinsLines false (lexer.gap source)) :
    lexer.next.1.kind ≠ .indent := by
  intro hkind
  obtain ⟨hline, hplace⟩ := hsettled
  obtain ⟨_, -, hdedent⟩ | ⟨hpending, hfinds⟩ := hreading.next_finds hvalid
  · rw [hdedent] at hkind
    cases hkind
  rcases hplace with hrest | htext
  · exact hfinds.ne_indent hline hrest hkind
  · have hsolid := hfinds.isSolid ⟨hpending, hline, htext⟩
      fun hpeek => hjoins (hreading.joinsLines_gap hvalid hpending hline hpeek)
    exact hsolid.ne (by decide) hkind

/-! ## A whole run -/

/-- At the end of the input no bracket is open. -/
theorem Reading.opened_eq_nil (hreading : lexer.Reading source) (htracks : lexer.Tracks opened)
    (hend : lexer.next.1.kind = .endOfInput) : opened = [] := by
  obtain ⟨_, -, hdedent⟩ | ⟨-, hfinds⟩ := hreading.next_finds (by rw [hend]; decide)
  · rw [hdedent] at hend
    cases hend
  · have hbrackets := hfinds.brackets_of_endOfInput hend
    rwa [htracks.brackets_eq, List.map_eq_nil_iff] at hbrackets

/-- A run starts with what the lexer answers next. -/
theorem head?_runFor {fuel : Nat} (hvalid : ∀ step ∈ runFor fuel lexer, step.1.kind ≠ .invalid)
    (hhead : token ∈ ((runFor fuel lexer).map Prod.fst).head?) :
    token = lexer.next.1 ∧ lexer.next.1.kind ≠ .invalid ∧ 0 < (runFor fuel lexer).length := by
  cases fuel with
  | zero => simp [runFor] at hhead
  | succ fuel =>
    rw [runFor] at hvalid hhead ⊢
    dsimp only at hvalid hhead ⊢
    split
    · rename_i hend
      rw [if_pos hend] at hvalid hhead
      exact ⟨(Option.some.inj hhead).symm, hvalid _ List.mem_cons_self, Nat.succ_pos _⟩
    · rename_i hend
      rw [if_neg hend] at hvalid hhead
      exact ⟨(Option.some.inj hhead).symm, hvalid _ List.mem_cons_self, Nat.succ_pos _⟩

/-- A run that ends, meets no invalid token and joins no lines answers a sequence of tokens that are
read again from their texts. -/
theorem Layered.runFor_sequence (hlayered : lexer.Layered) (htracks : lexer.Tracks opened)
    (hreading : lexer.Reading source) (hpoised : lexer.Poised) {fuel : Nat}
    (hfuel : lexer.weight + 2 ≤ fuel) (hvalid : ∀ step ∈ runFor fuel lexer, step.1.kind ≠ .invalid)
    (hjoins : ∀ index, index + 1 < (runFor fuel lexer).length →
      ¬joinsLines false ((lexer.after (index + 1)).gap source)) :
    TokenSequence lexer.layout opened ((runFor fuel lexer).map Prod.fst) := by
  induction fuel generalizing lexer opened with
  | zero => omega
  | succ fuel ih =>
    rw [runFor] at hvalid hjoins ⊢
    dsimp only at hvalid hjoins ⊢
    have hnext : lexer.next.1.kind ≠ .invalid := by
      split at hvalid <;> exact hvalid _ List.mem_cons_self
    obtain ⟨hstep, hbehind⟩ := hlayered.next_advances hreading hnext
    split
    · rename_i hend
      obtain ⟨-, hlayout⟩ := hstep.resolve_left fun hstep => hstep.ne_endOfInput hend
      obtain rfl : opened = [] := hreading.opened_eq_nil htracks hend
      rw [hlayout]
      exact .last hend
    · rename_i hend
      rw [if_neg hend] at hvalid hjoins
      rw [List.length_cons] at hjoins
      have hvalid := (List.forall_mem_cons.mp hvalid).2
      have hstep := hstep.resolve_right fun hlast => hend hlast.1
      obtain ⟨opened', hbrackets, hkept⟩ := htracks.next hreading ⟨hnext, hend⟩
      rcases hreading.next_ended with ⟨-, hreads, hweight⟩ | ⟨hlast, -⟩ | ⟨hinvalid, -⟩
      · have hrest := ih hbehind hkept hreads (hreading.next_poised hpoised hnext) (by omega) hvalid
          fun index hindex => hjoins (index + 1) (Nat.succ_lt_succ hindex)
        refine .cons hstep hbrackets hreading.next_isLexeme ?_ ?_ hrest
        · intro hindent next hnext
          obtain ⟨rfl, hvalid, hlength⟩ := head?_runFor hvalid hnext
          exact hreading.next_isSolid hindent hreads hvalid (hjoins 0 (Nat.succ_lt_succ hlength))
        · intro hdedent next hnext
          obtain ⟨rfl, hvalid, hlength⟩ := head?_runFor hvalid hnext
          have hsettled := hreading.next_settled hpoised (.inr hdedent)
          exact hsettled.next_ne_indent hreads hvalid (hjoins 0 (Nat.succ_lt_succ hlength))
      · exact absurd (congrArg Token.kind hlast) hend
      · exact absurd hinvalid hnext

end Lexer

namespace Tokens

/-- The text of the source between the token in front of an index and the token with the index. -/
def gap (tokens : Tokens) : (index : Nat) → List Char
  | 0 => Text.slice tokens.source 0 (tokens.get 0).span.start
  | index + 1 =>
    Text.slice tokens.source (tokens.get index).span.stop (tokens.get (index + 1)).span.start

/-- Whether no backslash joins lines, outside of tokens and comments. -/
def Unjoined (tokens : Tokens) : Prop :=
  ∀ index < tokens.tokens.size, ¬joinsLines false (tokens.gap index)

instance (tokens : Tokens) : Decidable tokens.Unjoined :=
  inferInstanceAs (Decidable (∀ index < _, _))

variable {source : String}

/-- The text in front of a token is what the lexer passes on its way to it. -/
theorem gap_ofSource (hclean : (ofSource source).failure = none) {index : Nat}
    (hindex : index + 1 < (ofSource source).tokens.size) :
    (ofSource source).gap (index + 1) =
      ((Lexer.ofSource source).after (index + 1)).gap source.toList := by
  have hreadable : ((Lexer.ofSource source).after index).next.1.kind.IsReadable := by
    refine ⟨next_ne_invalid hclean index, fun hend => ?_⟩
    rw [← get_ofSource_eq_next, kind_ofSource_eq_endOfInput_iff] at hend
    omega
  have hstands := (Lexer.next_covers (reading_after hclean index) hreadable).2.1
  rw [gap, Lexer.gap, get_ofSource_eq_next, get_ofSource_eq_next, ← hstands, ← Lexer.after_succ]
  rfl

/-- The tokens of a source without lexical errors and line joins are read again from their texts. -/
theorem ofSource_sequence (hclean : (ofSource source).failure = none)
    (hjoins : (ofSource source).Unjoined) :
    TokenSequence ⟨false, 0⟩ [] (ofSource source).tokens.toList := by
  have hvalid : ∀ step ∈ Lexer.run source, step.1.kind ≠ .invalid := by
    intro step hstep
    obtain ⟨index, hindex⟩ := List.getElem?_of_mem hstep
    rw [Lexer.runFor_getElem? hindex]
    exact next_ne_invalid hclean index
  have hsize : (ofSource source).tokens.size = (Lexer.run source).length := by simp [ofSource]
  have hsequence := (Lexer.ofSource_layered source).runFor_sequence (Lexer.ofSource_tracks source)
    (reading_after hclean 0) (fun hdedents => absurd rfl hdedents)
    (Lexer.ofSource_weight_le source) hvalid fun index hindex => by
      have hindex : index + 1 < (ofSource source).tokens.size := hsize ▸ hindex
      rw [← gap_ofSource hclean hindex]
      exact hjoins _ hindex
  exact hsequence

end Tokens

end PythonOutline
