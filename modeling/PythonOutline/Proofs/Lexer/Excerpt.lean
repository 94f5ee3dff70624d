import PythonOutline.Proofs.Import.Place
import PythonOutline.Proofs.Lexer.CommonStart
import PythonOutline.Proofs.Lexer.FinalBreak
import PythonOutline.Proofs.Lexer.Levels
import PythonOutline.Proofs.Lexer.OpenBrackets
import PythonOutline.Proofs.Lexer.Shift

/-! # Excerpts of a source

An excerpt is the text of a source from one token to another. If the first one stands outside of all
levels and brackets, and a line ends behind the last one, then the excerpt is a source of its own
with the same tokens (`Tokens.ofSource_excerpt`). Neither what stands in front of them nor what
stands behind them has a part in reading them. Behind the last token the excerpt ends in the middle
of a line, so the lexer makes up what is missing: the line break, a dedent for each level that is
open, and the end of the input. -/

namespace PythonOutline

/-- The kinds of the tokens that are made up at the end of a source in the middle of a line, where a
number of levels is open. -/
def closingKind (depth : Nat) : (index : Nat) → TokenKind
  | 0 => .newline
  | index + 1 => if index < depth then .dedent else .endOfInput

/-- Text starts a line or goes on with it. -/
theorem LayoutStep.inLine_eq {before after : Layout} {kind : TokenKind}
    (hstep : LayoutStep before kind after) (hsolid : kind.IsSolid) : after.inLine = true := by
  cases hstep with
  | text => rfl
  | indent | dedent | newline => exact absurd hsolid.1 Bool.false_ne_true

namespace Lexer

variable {source source' : List Char} {lexer lexer' next : Lexer} {token : Token}

/-! ## Behind text -/

/-- Behind text the lexer stands within a line, and no dedents are due. -/
theorem Layered.next_isSolid (hlayered : lexer.Layered) (hreading : lexer.Reading source)
    (hsolid : lexer.next.1.kind.IsSolid) :
    lexer.next.2.lineHasTokens = true ∧ lexer.next.2.atLineStart = false ∧
      lexer.next.2.pendingDedents = 0 := by
  obtain ⟨hstep, hbehind⟩ := hlayered.next_advances hreading hsolid.2.2
  have hline : lexer.next.2.layout.inLine = true := by
    rcases hstep with hstep | ⟨hend, -⟩
    · exact hstep.inLine_eq hsolid
    · exact absurd hend hsolid.2.1
  refine ⟨hline, Bool.eq_false_iff.mpr fun hstart => ?_, by_contra fun hpending => ?_⟩
  · exact Bool.false_ne_true ((hbehind.line_of_atLineStart hstart).1.symm.trans hline)
  · exact Bool.false_ne_true ((hbehind.line_of_pendingDedents hpending).symm.trans hline)

/-! ## The first token -/

/-- A source that starts with the text of a token starts with the token. -/
theorem ofSource_next_of_significant {excerpt : String} {text rest : List Char} {first : Char}
    {kind : TokenKind}
    (hexcerpt : excerpt.toList = text ++ rest) (hhead : text.head? = some first)
    (hread : significant first ⟨text ++ rest, 0⟩ = .ok (kind, ⟨rest, 0 + Text.byteLength text⟩))
    (hplain : kind.IsPlain) :
    (ofSource excerpt).next = (⟨kind, ⟨0, 0 + Text.byteLength text⟩, String.ofList text⟩,
      { ofSource excerpt with
        cursor := ⟨rest, 0 + Text.byteLength text⟩, atLineStart := false, lineHasTokens := true }) := by
  obtain ⟨others, rfl⟩ : ∃ others, text = first :: others := by
    cases text with
    | nil => cases hhead
    | cons c others => exact ⟨others, by rw [Option.some.inj hhead]⟩
  have hstart : StartsLexeme first := startsLexeme_of_significant rfl hread
  have hcursor : (ofSource excerpt).cursor = ⟨first :: others ++ rest, 0⟩ := by
    rw [ofSource, hexcerpt]
    exact if_neg hstart.ne_byteOrderMark
  have hentry : (ofSource excerpt).readLineStart =
      .ok (none, { ofSource excerpt with atLineStart := false }) :=
    readIndentation_startsLexeme hstart (congrArg Cursor.rest hcursor) rfl
  have hskip : skipTrivia (!(ofSource excerpt).brackets.isEmpty) (ofSource excerpt).cursor =
      .ok ⟨first :: others ++ rest, 0⟩ := by
    rw [hcursor]
    exact skipTriviaFrom_startsLexeme hstart
  have hbreak : (⟨first :: others ++ rest, 0⟩ : Cursor).skipLineBreak? = none := by
    simp [Cursor.skipLineBreak?, hstart.ne_lineFeed, hstart.ne_carriageReturn]
  refine (ofSource_reading excerpt).next_of_finds rfl (.token hentry ?_)
  refine readWithin_of_significant hskip rfl hbreak ?_
  refine bind_eq_ok_iff.mpr ⟨_, hread, bind_eq_ok_iff.mpr ⟨[], trackBrackets_plain hplain _ _ _, ?_⟩⟩
  rw [Cursor.Passes.textTo_eq ⟨rfl, rfl⟩]
  rfl

/-! ## The last token -/

section

variable {mark : Char} {place : Nat} {more behind behind' : List Char}
  (hstops : StopsLike behind behind')

include hstops

/-- The token that starts at the mark is read alike by both lexers, and each stands behind it. -/
private theorem readWithin_last
    (halong : lexer.Alongside mark place (more ++ behind) (more ++ behind') lexer')
    (hread : lexer.readWithin = .ok (some token, next)) (hsolid : token.kind.IsSolid)
    (hstart : token.span.start = place)
    (hnext : next.cursor = ⟨behind, place + Text.byteLength (mark :: more)⟩) :
    ∃ size, lexer'.readWithin = .ok (some token,
      { next with cursor := ⟨behind', place + Text.byteLength (mark :: more)⟩, size }) := by
  obtain ⟨cursor', size, hcursor, rfl⟩ := halong
  obtain ⟨text, hgoal, -⟩ := id hcursor
  obtain ⟨cursor, htrivia, hreaches, hcases⟩ := readWithin_ok hread
  rcases hcases with ⟨-, _, htoken, hend⟩ | ⟨-, -, htoken⟩ | ⟨hbreak, c, _, hpeek, htoken, hread⟩
  · cases htoken
    obtain ⟨-, ⟨-, rfl, -⟩ | ⟨-, -, rfl, -⟩ | ⟨-, -, rfl, -⟩⟩ := readEnd_ok hend
    · exact absurd hsolid.1 Bool.false_ne_true
    · exact absurd hsolid.1 Bool.false_ne_true
    · exact absurd rfl hsolid.2.1
  · split at htoken <;> cases htoken
    exact absurd hsolid.1 Bool.false_ne_true
  cases htoken
  obtain ⟨-, -, -, htoken, hsignificant, htrack, hlexer⟩ := readSignificant_ok hpeek hread
  -- The separators in front of the token end at the mark.
  obtain rfl : cursor = ⟨mark :: (more ++ behind), place⟩ := by
    obtain ⟨passed, hpassed⟩ := hreaches
    refine (hgoal.eq_of_offset_eq hpassed ?_).2
    rw [htoken] at hstart
    exact hstart
  obtain ⟨stop', htrivia', hstop'⟩ := skipTriviaFrom_alongside hcursor htrivia (.refl _)
  obtain rfl := Cursor.Beside.eq_goal hstop'
  obtain rfl : mark = c := Option.some.inj hpeek
  have hsignificant' : significant mark ⟨mark :: more ++ behind', place⟩ =
      .ok (token.kind, ⟨behind', place + Text.byteLength (mark :: more)⟩) := by
    rw [hnext] at hsignificant
    exact significant_stopsLike place hstops rfl hsignificant
  have hbreak' : (⟨mark :: (more ++ behind'), place⟩ : Cursor).skipLineBreak? = none := by
    rwa [Cursor.skipLineBreak?_eq_none_iff rfl] at hbreak ⊢
  have htext : Cursor.textTo ⟨mark :: (more ++ behind'), place⟩
      ⟨behind', place + Text.byteLength (mark :: more)⟩ = mark :: more :=
    Cursor.Passes.textTo_eq ⟨rfl, rfl⟩
  have htext' : Cursor.textTo ⟨mark :: (more ++ behind), place⟩ next.cursor = mark :: more := by
    rw [hnext]
    exact Cursor.Passes.textTo_eq ⟨rfl, rfl⟩
  refine ⟨size, readWithin_of_significant htrivia' rfl hbreak' ?_⟩
  refine bind_eq_ok_iff.mpr ⟨_, hsignificant', bind_eq_ok_iff.mpr ⟨next.brackets, ?_, ?_⟩⟩
  · rw [htoken, hnext] at htrack
    exact trackBrackets_of_ok htrack _
  · dsimp only
    rw [htext, hlexer, htoken, htext', hnext]
    rfl

/-- The token that starts at the mark is found alike if it ends there as well. -/
theorem Finds.last (hfinds : lexer.Finds (.ok (token, next))) (hreading : lexer.Reading source)
    (halong : lexer.Alongside mark place (more ++ behind) (more ++ behind') lexer')
    (hsolid : token.kind.IsSolid) (hstart : token.span.start = place)
    (hnext : next.cursor = ⟨behind, place + Text.byteLength (mark :: more)⟩) :
    ∃ size, lexer'.Finds (.ok (token,
      { next with cursor := ⟨behind', place + Text.byteLength (mark :: more)⟩, size })) := by
  have hmark : StopsLike (mark :: (more ++ behind)) (mark :: (more ++ behind')) :=
    hstops.append (mark :: more)
  generalize hresult : Except.ok (token, next) = result at hfinds
  induction hfinds generalizing lexer' with
  | indentation | failing => cases hresult
  | level hlevel =>
    cases hresult
    obtain ⟨-, -, ⟨rfl, -⟩ | ⟨rfl, -⟩⟩ := readLineStart_some hlevel <;>
      exact absurd hsolid.1 Bool.false_ne_true
  | @token lexer entered next token hentry hwithin =>
    cases hresult
    have hentered := readLineStart_attempt hreading
    rw [hentry] at hentered
    have hreads := (readWithin_attempt hentered.2).1
    rw [hwithin] at hreads
    have hle := ReadsToken.offset_le_start hreads
    obtain ⟨entered', hentry', halong'⟩ := readLineStart_alongside halong hentry
      (halong.reaches (readLineStart_reaches hentry) (by omega))
    obtain ⟨size, hwithin'⟩ := readWithin_last hstops halong' hwithin hsolid hstart hnext
    exact ⟨size, .token hentry' hwithin'⟩
  | @line lexer entered middle result hentry hwithin hrest ih =>
    subst hresult
    have hentered := readLineStart_attempt hreading
    rw [hentry] at hentered
    have hmiddle := (readWithin_attempt hentered.2).1
    rw [hwithin] at hmiddle
    have hle := ReadsToken.offset_le_start (hrest.outcome hmiddle.2)
    have hbefore := (readWithin_reaches hwithin).offset_le
    obtain ⟨entered', hentry', halong'⟩ := readLineStart_alongside halong hentry
      (halong.reaches (readLineStart_reaches hentry) (by omega))
    obtain ⟨middle', hwithin', halong'⟩ := readWithin_alongside hmark halong' hwithin
      (halong'.reaches (readWithin_reaches hwithin) (by omega))
    obtain ⟨size, hrest'⟩ := ih hmiddle.2 halong' rfl
    exact ⟨size, .line hentry' hwithin' hrest'⟩

/-- The token that starts at the mark is read alike, if what stands behind it stops a
token alike. -/
theorem next_last (hreading : lexer.Reading source) (hreading' : lexer'.Reading source')
    (halong : lexer.Alongside mark place (more ++ behind) (more ++ behind') lexer')
    (hsolid : lexer.next.1.kind.IsSolid) (hstart : lexer.next.1.span.start = place)
    (hnext : lexer.next.2.cursor = ⟨behind, place + Text.byteLength (mark :: more)⟩) :
    ∃ size, lexer'.next = (lexer.next.1, { lexer.next.2 with
      cursor := ⟨behind', place + Text.byteLength (mark :: more)⟩, size }) := by
  rcases hreading.next_finds hsolid.2.2 with ⟨pendingDedents, -, hdedent⟩ | ⟨hpending, hfinds⟩
  · rw [hdedent] at hsolid
    exact absurd hsolid.1 Bool.false_ne_true
  · obtain ⟨size, hfinds'⟩ := hfinds.last hstops hreading halong hsolid hstart hnext
    refine ⟨size, hreading'.next_of_finds ?_ hfinds'⟩
    obtain ⟨cursor, size, -, rfl⟩ := halong
    exact hpending

end

/-! ## The end of the excerpt -/

/-- A lexer at the end of its source, outside of all brackets. -/
structure AtEnd (lexer : Lexer) (offset : Nat) (levels : List IndentWidth) (inLine : Bool) : Prop where
  cursor_eq : lexer.cursor = ⟨[], offset⟩
  brackets_eq : lexer.brackets = []
  pendingDedents_eq : lexer.pendingDedents = 0
  levels_eq : lexer.levels = levels
  lineHasTokens_eq : lexer.lineHasTokens = inLine

namespace AtEnd

variable {offset : Nat} {level : IndentWidth} {levels : List IndentWidth} {inLine : Bool}

/-- Nothing but the end of the source is found. -/
theorem exists_entered (hend : lexer.AtEnd offset levels inLine) :
    ∃ entered : Lexer, entered.AtEnd offset levels inLine ∧ entered.size = lexer.size ∧
      ∀ {token next}, entered.readEnd = .ok (token, next) → lexer.Finds (.ok (token, next)) := by
  by_cases hline : lexer.atLineStart = true
  · have hfind : LineStart.find lexer.cursor = .none lexer.cursor := by
      rw [hend.cursor_eq]
      rfl
    have hentry : lexer.readLineStart = .ok (none, { lexer with atLineStart := false }) := by
      simp [readLineStart, readIndentation, hline, hend.brackets_eq, hfind]
    exact ⟨{ lexer with atLineStart := false }, { hend with }, rfl,
      fun hread => .token hentry (readWithin_of_end (congrArg Cursor.rest hend.cursor_eq) hread)⟩
  · have hentry : lexer.readLineStart = .ok (none, lexer) := if_neg (by simp [hline])
    exact ⟨lexer, hend, rfl,
      fun hread => .token hentry (readWithin_of_end (congrArg Cursor.rest hend.cursor_eq) hread)⟩

/-- At the end of an excerpt, the next token is a token of the end. -/
theorem next_eq (hend : lexer.AtEnd offset levels inLine) (hreading : lexer.Reading source) :
    ∃ entered : Lexer, entered.AtEnd offset levels inLine ∧ entered.size = offset ∧
      ∀ {token next}, entered.readEnd = .ok (token, next) → lexer.next = (token, next) := by
  obtain ⟨entered, hentered, hsize, hfinds⟩ := hend.exists_entered
  refine ⟨entered, hentered, ?_, fun hread =>
    hreading.next_of_finds hend.pendingDedents_eq (hfinds hread)⟩
  have hoffset := hreading.isIn.offset_add
  rw [hend.cursor_eq, Text.byteLength_nil] at hoffset
  rw [hsize, hreading.size_eq]
  exact hoffset.symm

/-- The line that is not ended yet ends. -/
theorem next_line (hend : lexer.AtEnd offset levels true) (hreading : lexer.Reading source) :
    lexer.next.1 = .empty .newline offset ∧ lexer.next.2.AtEnd offset levels false := by
  obtain ⟨entered, hentered, -, hnext⟩ := hend.next_eq hreading
  rw [hnext (readEnd_of_line hentered.brackets_eq hentered.lineHasTokens_eq)]
  exact ⟨congrArg (fun cursor => Token.empty .newline cursor.offset) hentered.cursor_eq,
    { hentered with lineHasTokens_eq := rfl }⟩

/-- Then the innermost level ends. -/
theorem next_level (hend : lexer.AtEnd offset (level :: levels) false)
    (hreading : lexer.Reading source) :
    lexer.next.1 = .empty .dedent offset ∧ lexer.next.2.AtEnd offset levels false := by
  obtain ⟨entered, hentered, -, hnext⟩ := hend.next_eq hreading
  rw [hnext (readEnd_of_level hentered.brackets_eq hentered.lineHasTokens_eq hentered.levels_eq)]
  exact ⟨congrArg (fun cursor => Token.empty .dedent cursor.offset) hentered.cursor_eq,
    { hentered with levels_eq := rfl }⟩

/-- And in the end the input does. -/
theorem next_noLevel (hend : lexer.AtEnd offset [] false) (hreading : lexer.Reading source) :
    lexer.next.1 = .empty .endOfInput offset ∧ lexer.next.2.AtEnd offset [] false := by
  obtain ⟨entered, hentered, hsize, hnext⟩ := hend.next_eq hreading
  rw [hnext (readEnd_of_noLevel hentered.brackets_eq hentered.lineHasTokens_eq hentered.levels_eq),
    hsize]
  exact ⟨rfl, hentered⟩

/-- At the end of the source each open level is closed in turn; from there on the end is read. -/
private theorem after_levels (hend : lexer.AtEnd offset levels false)
    (hreading : lexer.Reading source) (index : Nat) :
    (lexer.after index).next.1 = .empty (closingKind levels.length (index + 1)) offset := by
  induction index generalizing lexer levels with
  | zero =>
    cases levels with
    | nil => exact (hend.next_noLevel hreading).1
    | cons level levels => exact (hend.next_level hreading).1
  | succ index ih =>
    cases levels with
    | nil =>
      obtain ⟨htoken, hnext⟩ := hend.next_noLevel hreading
      have hvalid : lexer.next.1.kind ≠ .invalid := by simp [htoken, Token.empty]
      rw [after, ih hnext (hreading.next_reading hvalid)]
      simp [closingKind]
    | cons level levels =>
      obtain ⟨htoken, hnext⟩ := hend.next_level hreading
      have hvalid : lexer.next.1.kind ≠ .invalid := by simp [htoken, Token.empty]
      rw [after, ih hnext (hreading.next_reading hvalid)]
      simp [closingKind]

/-- In the middle of a line the line ends, then the levels do, and then the input. -/
theorem after_line (hend : lexer.AtEnd offset levels true) (hreading : lexer.Reading source)
    (index : Nat) :
    (lexer.after index).next.1 = .empty (closingKind levels.length index) offset := by
  obtain ⟨htoken, hnext⟩ := hend.next_line hreading
  cases index with
  | zero => exact htoken
  | succ index =>
    exact hnext.after_levels (hreading.next_reading (by simp [htoken, Token.empty])) index

end AtEnd

/-! ## The excerpt -/

variable {mark : Char} {place : Nat} {more behind : List Char}

/-- A lexer further on reads what stands behind some other text. -/
theorem Reading.shift {excerpt before : List Char} (hreading : lexer.Reading excerpt) :
    (lexer.shift (Text.byteLength before)).Reading (before ++ excerpt) where
  isIn := by
    obtain ⟨passed, hrest, hoffset⟩ := hreading.isIn
    obtain rfl : excerpt = passed ++ lexer.cursor.rest := hrest
    refine ⟨before ++ passed, (List.append_assoc ..).symm, ?_⟩
    change lexer.cursor.offset + Text.byteLength before = 0 + Text.byteLength (before ++ passed)
    rw [hoffset, Text.byteLength_append]
    dsimp only
    omega
  size_eq := by
    change lexer.size + Text.byteLength before = _
    rw [hreading.size_eq, Text.byteLength_append, Nat.add_comm]
  brackets_le := by
    intro bracket hbracket
    obtain ⟨bracket, hmem, rfl⟩ := List.mem_map.mp hbracket
    exact Nat.add_le_add_right (hreading.brackets_le bracket hmem) _
  failure_eq := congrArg (Option.map _) hreading.failure_eq

/-- Behind its first token the excerpt is read like the source, as long as the source goes on with
the text of the excerpt. -/
theorem alongside_shift {excerpt : String} {middle : List Char} {offset distance : Nat}
    {first : Token} (hfirst : (ofSource excerpt).next = (first, { ofSource excerpt with
      cursor := ⟨middle ++ mark :: more, offset⟩, atLineStart := false, lineHasTokens := true }))
    (hcursor : lexer.cursor.Passes middle ⟨mark :: (more ++ behind), place⟩)
    (hoffset : lexer.cursor.offset = offset + distance) (hline : lexer.lineHasTokens = true)
    (hstart : lexer.atLineStart = false) (hpending : lexer.pendingDedents = 0)
    (hlevels : lexer.levels = []) (hbrackets : lexer.brackets = []) (hfailure : lexer.failure = none) :
    lexer.Alongside mark place (more ++ behind) (more ++ [])
      ((ofSource excerpt).next.2.shift distance) := by
  obtain ⟨cursor, size, levels, pendingDedents, brackets, atLineStart, lineHasTokens, failure⟩ := lexer
  dsimp only at hcursor hoffset hline hstart hpending hlevels hbrackets hfailure
  subst hline hstart hpending hlevels hbrackets hfailure
  refine ⟨⟨middle ++ mark :: (more ++ []), cursor.offset⟩, (ofSource excerpt).size + distance,
    ⟨middle, hcursor, rfl, hcursor.offset_eq⟩, ?_⟩
  rw [hfirst, hoffset, List.append_nil]
  rfl

/-- Up to the end of the excerpt the same tokens are read. Then the excerpt ends a line and the
levels that are open. -/
theorem after_excerpt (hreading : lexer.Reading source) (hreading' : lexer'.Reading source')
    (halong : lexer.Alongside mark place (more ++ behind) (more ++ []) lexer') {count : Nat}
    (hafter : (lexer.after count).Reading source)
    (hsolid : (lexer.after count).next.1.kind.IsSolid)
    (hstart : (lexer.after count).next.1.span.start = place)
    (hnext : (lexer.after count).next.2.cursor =
      ⟨behind, place + Text.byteLength (mark :: more)⟩)
    (hline : (lexer.after count).next.2.lineHasTokens = true)
    (hpending : (lexer.after count).next.2.pendingDedents = 0)
    (hbrackets : (lexer.after count).next.2.brackets = []) :
    (∀ index ≤ count, (lexer'.after index).next.1 = (lexer.after index).next.1) ∧
      ∀ index, (lexer'.after (count + 1 + index)).next.1 =
        .empty (closingKind (lexer.after count).next.2.levels.length index)
          (place + Text.byteLength (mark :: more)) := by
  have hstops : StopsLike behind [] := .nil behind
  have hle : (lexer.after count).cursor.offset ≤ place :=
    hstart ▸ hafter.offset_le_start hsolid.2.2
  obtain ⟨hsame, hafter', halong⟩ :=
    alongside_after (hstops.append (mark :: more)) hreading hreading' halong hafter hle
  obtain ⟨size, hlast⟩ := next_last hstops hafter hafter' halong hsolid hstart hnext
  have htoken : (lexer'.after count).next.1 = (lexer.after count).next.1 := by rw [hlast]
  have hend : (lexer'.after (count + 1)).AtEnd (place + Text.byteLength (mark :: more))
      (lexer.after count).next.2.levels true := by
    rw [after_succ, hlast]
    exact ⟨rfl, hbrackets, hpending, rfl, hline⟩
  have hreads : (lexer'.after (count + 1)).Reading source' := by
    rw [after_succ]
    exact hafter'.next_reading (htoken ▸ hsolid.2.2)
  refine ⟨fun index hindex => ?_, fun index => ?_⟩
  · rcases Nat.lt_or_eq_of_le hindex with hlt | rfl
    · exact hsame index hlt
    · exact htoken
  · rw [after_add]
    exact hend.after_line hreads index

end Lexer

namespace Tokens

variable {source excerpt : String} {index first last : Nat}

/-- Behind a token with text the lexer stands within a line, and it keeps the levels and the
brackets that are open there. -/
theorem behind_isSolid (hclean : (ofSource source).failure = none)
    (hsolid : ((ofSource source).get index).kind.IsSolid) :
    ((Lexer.ofSource source).after (index + 1)).lineHasTokens = true ∧
      ((Lexer.ofSource source).after (index + 1)).atLineStart = false ∧
      ((Lexer.ofSource source).after (index + 1)).pendingDedents = 0 ∧
      (((Lexer.ofSource source).after (index + 1)).levels.length : Int) =
        (ofSource source).levelAt (index + 1) ∧
      ((Lexer.ofSource source).after (index + 1)).brackets =
        ((ofSource source).openers (index + 1)).map fun token => (token.kind, token.span) := by
  have hreading := reading_after hclean index
  have hended : ¬((Lexer.ofSource source).after index).Ended := by
    intro hended
    rw [get_ofSource_eq_next, show ((Lexer.ofSource source).after index).next = _ from hended] at hsolid
    exact hsolid.2.1 rfl
  obtain ⟨hlayered, -, hdepth⟩ := (keepsLevel_ofSource source index).2.resolve_right hended
  obtain ⟨htracks, -⟩ := (keepsBrackets_ofSource source index).resolve_right hended
  rw [levelAt, openers, get_ofSource_eq_next, Lexer.after_succ]
  rw [get_ofSource_eq_next] at hsolid
  generalize (Lexer.ofSource source).after index = lexer at *
  obtain ⟨hline, hstart, hpending⟩ := hlayered.next_isSolid hreading hsolid
  obtain ⟨opened, hstep, htracked⟩ := htracks.next hreading ⟨hsolid.2.2, hsolid.2.1⟩
  have hlayout := ((hlayered.next_advances hreading hsolid.2.2).1.resolve_right
    fun hend => hsolid.2.1 hend.1).depth_eq
  rw [Lexer.layout, hpending, Nat.add_zero] at hlayout
  exact ⟨hline, hstart, hpending, by rw [hlayout, hdepth],
    by rw [← hstep.eq_openersBehind, htracked.brackets_eq]⟩

/-- Where a source is cut from one token to another: the texts of both of them, and the text between
them. The lexer goes on behind each of them. -/
structure Cut (source : String) (first last : Nat) where
  start : Cursor
  letter : Char
  text : List Char
  middle : List Char
  mark : Char
  more : List Char
  place : Nat
  isIn : start.IsIn source.toList
  head_eq : text.head? = some letter
  token_eq : (ofSource source).get first = ⟨((ofSource source).get first).kind,
    ⟨start.offset, start.offset + Text.byteLength text⟩, String.ofList text⟩
  significant_eq : Lexer.significant letter start =
    .ok (((ofSource source).get first).kind, ((Lexer.ofSource source).after (first + 1)).cursor)
  passes_text : start.Passes text ((Lexer.ofSource source).after (first + 1)).cursor
  passes_middle : ((Lexer.ofSource source).after (first + 1)).cursor.Passes middle
    ⟨mark :: (more ++ ((Lexer.ofSource source).after (last + 1)).cursor.rest), place⟩
  stop_eq : ((Lexer.ofSource source).after (last + 1)).cursor.offset =
    place + Text.byteLength (mark :: more)
  span_eq : ((ofSource source).get last).span =
    ⟨place, ((Lexer.ofSource source).after (last + 1)).cursor.offset⟩

/-- The source can be cut from one solid token to another. -/
theorem Ordered.exists_cut (hordered : (ofSource source).Ordered) (hlt : first < last)
    (hfirst : ((ofSource source).get first).kind.IsSolid)
    (hlast : ((ofSource source).get last).kind.IsSolid) : Nonempty (Cut source first last) := by
  obtain ⟨letter, start, hin, hpeek, ⟨text, htext⟩, htoken, hread⟩ :=
    hordered.exists_significant hfirst
  obtain ⟨_, ⟨rest, place⟩, hin', -, ⟨final, hfinal⟩, htoken', -⟩ :=
    hordered.exists_significant hlast
  have hspan' := congrArg Token.span htoken'
  dsimp only at hspan'
  have hle := hordered.stop_le first last hlt hfirst hlast
  rw [hordered.stop_eq hfirst, hspan'] at hle
  obtain ⟨passed, hpassed⟩ := hin.passes htext
  obtain ⟨middle, hmiddle⟩ := Cursor.Reaches.of_offset_le ⟨passed, hpassed⟩ hin' hle
  rw [htext.textTo_eq, htext.offset_eq] at htoken
  have hfinalNonempty : final ≠ [] := by
    rintro rfl
    have hlt' := hordered.start_lt last hlast
    rw [hspan', hfinal.offset_eq] at hlt'
    exact absurd hlt' (Nat.lt_irrefl _)
  obtain ⟨mark, more, rfl⟩ := List.exists_cons_of_ne_nil hfinalNonempty
  have hhead : text.head? = some letter := by
    cases text with
    | nil =>
      have hpos := hordered.start_lt first hfirst
      rw [htoken] at hpos
      exact absurd hpos (Nat.lt_irrefl _)
    | cons c text =>
      rw [Cursor.peek?, htext.rest_eq] at hpeek
      exact hpeek
  obtain rfl := hfinal.rest_eq
  exact ⟨start, letter, text, middle, mark, more, place, hin, hhead, htoken, hread, htext, hmiddle,
    hfinal.offset_eq, hspan'⟩

namespace Cut

variable (cut : Cut source first last)

/-- The text that is cut out. -/
def written : List Char :=
  cut.text ++ (cut.middle ++ cut.mark :: cut.more)

private theorem start_eq : ((ofSource source).get first).span.start = cut.start.offset := by
  rw [cut.token_eq]

/-- What was cut out is the slice between its first and its last token. -/
theorem slice_eq : Text.slice source.toList ((ofSource source).get first).span.start
    ((ofSource source).get last).span.stop = cut.written := by
  have hfinal : Cursor.Passes
      ⟨cut.mark :: (cut.more ++ ((Lexer.ofSource source).after (last + 1)).cursor.rest), cut.place⟩
      (cut.mark :: cut.more) ((Lexer.ofSource source).after (last + 1)).cursor :=
    ⟨rfl, cut.stop_eq⟩
  rw [cut.start_eq, cut.span_eq,
    cut.isIn.slice_eq ((cut.passes_text.trans cut.passes_middle).trans hfinal), List.append_assoc]
  rfl

/-- What is cut out starts with the first token, and goes on like the source behind it. -/
theorem alongside (hordered : (ofSource source).Ordered)
    (hplain : ((ofSource source).get first).kind.IsPlain)
    (hlevel : (ofSource source).levelAt first = 0) (hopeners : (ofSource source).openers first = [])
    (hexcerpt : excerpt.toList = cut.written) :
    (Lexer.ofSource excerpt).next.1.shift cut.start.offset = (ofSource source).get first ∧
      (∃ source', ((Lexer.ofSource excerpt).next.2.shift cut.start.offset).Reading source') ∧
      ((Lexer.ofSource source).after (first + 1)).Alongside cut.mark cut.place
        (cut.more ++ ((Lexer.ofSource source).after (last + 1)).cursor.rest) (cut.more ++ [])
        ((Lexer.ofSource excerpt).next.2.shift cut.start.offset) := by
  have hclean := failure_eq_none hordered.ne_invalid
  obtain ⟨hline, hstart, hpending, hlevels, hbrackets⟩ := behind_isSolid hclean hplain.1
  rw [levelAt, hlevel, levelChange_of_isSolid hplain.1, Int.add_zero, Int.natCast_eq_zero,
    List.length_eq_zero_iff] at hlevels
  rw [openers, hopeners, Token.openersBehind_of_plain hplain.2.1 hplain.2.2, List.map_nil]
    at hbrackets
  have hstops : StopsLike ((Lexer.ofSource source).after (first + 1)).cursor.rest
      (cut.middle ++ cut.mark :: cut.more) := by
    have hend := (StopsLike.nil ((Lexer.ofSource source).after (last + 1)).cursor.rest).append
      (cut.middle ++ cut.mark :: cut.more)
    rw [List.append_nil, List.append_assoc] at hend
    rwa [cut.passes_middle.rest_eq]
  have hread : Lexer.significant cut.letter
      ⟨cut.text ++ ((Lexer.ofSource source).after (first + 1)).cursor.rest, cut.start.offset⟩ =
        .ok (((ofSource source).get first).kind,
          ⟨((Lexer.ofSource source).after (first + 1)).cursor.rest,
            cut.start.offset + Text.byteLength cut.text⟩) := by
    rw [← cut.passes_text.rest_eq, ← cut.passes_text.offset_eq]
    exact cut.significant_eq
  have hfirst := Lexer.ofSource_next_of_significant hexcerpt cut.head_eq
    (Lexer.significant_stopsLike 0 hstops cut.head_eq hread) hplain
  have hvalid : (Lexer.ofSource excerpt).next.1.kind ≠ .invalid := by
    rw [hfirst]
    exact hplain.1.2.2
  refine ⟨?_, ?_, Lexer.alongside_shift hfirst cut.passes_middle ?_ hline hstart hpending hlevels
    hbrackets (reading_after hclean (first + 1)).failure_eq⟩
  · rw [hfirst, cut.token_eq]
    simp [Token.shift, Span.shift, Nat.add_comm]
  · obtain ⟨passed, hpassed⟩ := cut.isIn
    obtain hoffset : cut.start.offset = Text.byteLength passed := by
      simpa using hpassed.offset_eq
    rw [hoffset]
    exact ⟨_, ((Lexer.ofSource_reading excerpt).next_reading hvalid).shift⟩
  · rw [cut.passes_text.offset_eq, Nat.zero_add, Nat.add_comm]

end Cut

private theorem get_ofSource_add (source : String) (start index : Nat) :
    (ofSource source).get (start + index) =
      (((Lexer.ofSource source).after start).after index).next.1 := by
  rw [get_ofSource_eq_next, Lexer.after_add _ start]

private theorem get_ofSource_succ_shift (source : String) (distance index : Nat) :
    ((ofSource source).get (index + 1)).shift distance =
      (((Lexer.ofSource source).next.2.shift distance).after index).next.1 := by
  rw [get_ofSource_eq_next, Lexer.after_shift, Lexer.next_shift]
  rfl

/-- The excerpt of a source from one token to another has the same tokens, if the first one stands
outside of all levels and brackets and a line ends behind the last one. Behind them the excerpt ends
a line, and then the levels that are open there. -/
theorem ofSource_excerpt (hordered : (ofSource source).Ordered) (hlt : first < last)
    (hplain : ((ofSource source).get first).kind.IsPlain)
    (hlevel : (ofSource source).levelAt first = 0) (hopeners : (ofSource source).openers first = [])
    (hlast : ((ofSource source).get last).kind.IsSolid)
    (hline : ¬((ofSource source).get (last + 1)).kind.isSignificant)
    (hexcerpt : excerpt.toList = Text.slice source.toList ((ofSource source).get first).span.start
      ((ofSource source).get last).span.stop) :
    (∀ index ≤ last - first,
      ((ofSource excerpt).get index).shift ((ofSource source).get first).span.start =
        (ofSource source).get (first + index)) ∧
      ∃ depth : Nat, (ofSource source).levelAt (last + 1) = depth ∧ ∀ index,
        ((ofSource excerpt).get (last - first + 1 + index)).shift
            ((ofSource source).get first).span.start =
          .empty (closingKind depth index) ((ofSource source).get last).span.stop := by
  have hclean := failure_eq_none hordered.ne_invalid
  obtain ⟨cut⟩ := hordered.exists_cut hlt hplain.1 hlast
  rw [cut.slice_eq] at hexcerpt
  obtain ⟨hfirst, ⟨source', hreading'⟩, halong⟩ :=
    cut.alongside hordered hplain hlevel hopeners hexcerpt
  obtain ⟨hinLine, -, hpending, hlevels, hbrackets⟩ := behind_isSolid hclean hlast
  rw [((matched_ofSource source).openers_structural hline).1, List.map_nil] at hbrackets
  obtain ⟨count, rfl⟩ : ∃ count, last = first + 1 + count :=
    Nat.exists_eq_add_of_le (Nat.succ_le_of_lt hlt)
  -- The lexer that goes on behind the first token is the one that the excerpt is compared with.
  have hlast' := get_ofSource_add source (first + 1) count
  have hreads := reading_after hclean (first + 1 + count)
  have hbehind : (Lexer.ofSource source).after (first + 1 + count + 1) =
      (((Lexer.ofSource source).after (first + 1)).after count).next.2 := by
    rw [Lexer.after_succ, Lexer.after_add _ (first + 1)]
  rw [Lexer.after_add _ (first + 1)] at hreads
  have hnext : (((Lexer.ofSource source).after (first + 1)).after count).next.2.cursor =
      ⟨(((Lexer.ofSource source).after (first + 1)).after count).next.2.cursor.rest,
        cut.place + Text.byteLength (cut.mark :: cut.more)⟩ := by
    rw [← hbehind, ← cut.stop_eq]
  rw [hbehind] at hinLine hpending hlevels hbrackets halong
  obtain ⟨hsame, hend⟩ := Lexer.after_excerpt (reading_after hclean (first + 1)) hreading' halong
    hreads (hlast' ▸ hlast) (hlast' ▸ congrArg Span.start cut.span_eq) hnext hinLine hpending
    hbrackets
  have hcount : first + 1 + count - first = count + 1 := by omega
  rw [cut.start_eq, cut.span_eq, hcount, cut.stop_eq]
  refine ⟨fun index hindex => ?_, _, hlevels.symm, fun index => ?_⟩
  · cases index with
    | zero => exact (congrArg (Token.shift _) (get_ofSource_eq_next excerpt 0)).trans hfirst
    | succ index =>
      rw [get_ofSource_succ_shift, hsame index (by omega), ← get_ofSource_add, Nat.add_right_comm]
      rfl
  · rw [← hend, ← get_ofSource_succ_shift]
    congr 2
    omega

end Tokens

end PythonOutline
