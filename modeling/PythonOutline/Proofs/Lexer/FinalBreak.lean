import PythonOutline.Proofs.Lexer.TrailingLines

/-! # Sources with and without a final line break

A source and the same source with a line feed and trailing lines behind it are read alike up to the
end of the shorter one: the lexers are in the same state, and one has more text in front of it
(`Lexer.Followed`). Where the shorter source ends, one lexer makes up the end of the line and of the
open levels, and the other one reads the line break and finds no line behind it (`Lexer.Ending`).
From there on both answer tokens of the same kinds, none of them made of text, and those of the
longer source end behind the shorter one. -/

namespace PythonOutline

/-- A token that stands for another one and ends behind a place. Neither is made of text. -/
structure Token.Late (size : Nat) (token token' : Token) : Prop where
  kind_eq : token'.kind = token.kind
  not_isSolid : ¬token.kind.IsSolid
  lt_stop : size < token'.span.stop

namespace Lexer

variable {size : Nat} {source source' lines : List Char} {lexer lexer' entered entered' next : Lexer}
  {token : Token}

/-! ## What is found at the end of a source -/

/-- Within a line it only matters what is left when the separators have been passed. -/
theorem readWithin_of_skipTrivia_eq {cursor : Cursor}
    (hskip : skipTrivia (!lexer.brackets.isEmpty) cursor =
      skipTrivia (!lexer.brackets.isEmpty) lexer.cursor) :
    ({ lexer with cursor } : Lexer).readWithin = lexer.readWithin := by
  unfold readWithin
  dsimp only
  rw [hskip]

/-- At the end of the source, a line with tokens is ended first. -/
theorem readEnd_of_line (hbrackets : lexer.brackets = []) (hline : lexer.lineHasTokens = true) :
    lexer.readEnd =
      .ok (.empty .newline lexer.cursor.offset, { lexer with lineHasTokens := false }) := by
  simp [readEnd, hbrackets, hline]

/-- At the end of the source, each open level is closed. -/
theorem readEnd_of_level (hbrackets : lexer.brackets = []) (hline : lexer.lineHasTokens = false)
    {level : IndentWidth} {levels : List IndentWidth} (hlevels : lexer.levels = level :: levels) :
    lexer.readEnd = .ok (.empty .dedent lexer.cursor.offset, { lexer with levels }) := by
  simp [readEnd, hbrackets, hline, hlevels]

/-- At the end of the source, the input ends once no level is open. -/
theorem readEnd_of_noLevel (hbrackets : lexer.brackets = []) (hline : lexer.lineHasTokens = false)
    (hlevels : lexer.levels = []) : lexer.readEnd = .ok (.endOfInput lexer.size, lexer) := by
  simp [readEnd, hbrackets, hline, hlevels]

/-- What the lexer finds is what there is at the end of the source. -/
def FindsEnd (lexer : Lexer) : Prop :=
  ∃ stop atLineStart, stop.rest = [] ∧ lexer.cursor.Reaches stop ∧
    ∀ {token next}, ({ lexer with cursor := stop, atLineStart } : Lexer).readEnd = .ok (token, next) →
      lexer.Finds (.ok (token, next))

private theorem findsEnd_of_atLineStart (hstart : lexer.atLineStart = true)
    (hbrackets : lexer.brackets = []) (hnone : HoldsNoLine false lexer.cursor.rest) :
    lexer.FindsEnd := by
  obtain ⟨stop, hfind⟩ : ∃ stop, LineStart.find lexer.cursor = .none stop :=
    LineStart.findFrom_holdsNoLine hnone _ _ _
  have hseparated := LineStart.find_separatedFrom lexer.cursor
  rw [hfind] at hseparated
  have hentry : lexer.readLineStart =
      .ok (none, { lexer with cursor := stop, atLineStart := false }) := by
    simp [readLineStart, readIndentation, hstart, hbrackets, hfind]
  exact ⟨stop, false, hseparated.1, hseparated.2.reaches,
    fun hend => .token hentry (readWithin_of_end hseparated.1 hend)⟩

/-- In front of lines that start nothing, the lexer finds the line break that ends its line, or what
there is at the end of the source. -/
theorem finds_of_holdsNoLine (hbrackets : lexer.brackets = [])
    (hnone : HoldsNoLine false lexer.cursor.rest) :
    lexer.FindsEnd ∨
      lexer.lineHasTokens = true ∧ ∃ start stop text,
        lexer.cursor.Reaches stop ∧ lexer.cursor.offset < stop.offset ∧
        HoldsNoLine false stop.rest ∧
        lexer.Finds (.ok (⟨.newline, ⟨start, stop.offset⟩, text⟩,
          { lexer with cursor := stop, atLineStart := true, lineHasTokens := false })) := by
  by_cases hstart : lexer.atLineStart = true
  · exact .inl (findsEnd_of_atLineStart hstart hbrackets hnone)
  have hentry : lexer.readLineStart = .ok (none, lexer) := if_neg (by simp [hstart])
  obtain ⟨cursor, htrivia, hcursor⟩ := skipTriviaFrom_holdsNoLine hnone lexer.cursor.offset
  have hskip : skipTrivia (!lexer.brackets.isEmpty) lexer.cursor = .ok cursor := by
    rw [hbrackets]
    exact htrivia
  have hreaches : lexer.cursor.Reaches cursor := skipTriviaFrom_reaches htrivia
  rcases hcursor with hrest | ⟨stop, hbreak, hbehind⟩
  · obtain ⟨rest, offset⟩ := cursor
    obtain rfl : rest = [] := hrest
    refine .inl ⟨⟨[], offset⟩, lexer.atLineStart, rfl, hreaches, fun hend => .token hentry ?_⟩
    have hsame : skipTrivia (!lexer.brackets.isEmpty) ⟨[], offset⟩ =
        skipTrivia (!lexer.brackets.isEmpty) lexer.cursor := hskip.symm
    rw [← readWithin_of_skipTrivia_eq hsame]
    exact readWithin_of_end rfl hend
  · have hwithin := readWithin_of_lineBreak hskip hbreak
    obtain ⟨text, hpasses, hmem⟩ := skipLineBreak?_passes hbreak
    have hstop : lexer.cursor.Reaches stop := hreaches.trans ⟨text, hpasses⟩
    have hne : text ≠ [] := by
      rintro rfl
      exact absurd hmem (by decide)
    have hlt := Nat.lt_of_le_of_lt hreaches.offset_le (hpasses.offset_lt hne)
    cases hline : lexer.lineHasTokens with
    | true =>
      rw [hline] at hwithin
      exact .inr ⟨rfl, _, stop, _, hstop, hlt, hbehind, .token hentry hwithin⟩
    | false =>
      -- The line has no tokens, and no line follows it.
      rw [hline] at hwithin
      have hends : FindsEnd { lexer with
          cursor := stop, atLineStart := true, lineHasTokens := false } :=
        findsEnd_of_atLineStart rfl hbrackets hbehind
      obtain ⟨final, atLineStart, hfinal, hreachesEnd, hfinds⟩ := hends
      refine .inl ⟨final, atLineStart, hfinal, hstop.trans hreachesEnd, fun hend => ?_⟩
      refine .line hentry hwithin (hfinds ?_)
      rw [← hend, ← hline]

/-! ## Behind the end of the shorter source -/

/-- A lexer at the end of a source of some size and one in the same state in a longer source, that
has only lines in front of it that start nothing. -/
structure Ending (size : Nat) (lexer lexer' : Lexer) : Prop where
  rest_eq : lexer.cursor.rest = []
  brackets_eq : lexer.brackets = []
  pendingDedents_eq : lexer.pendingDedents = 0
  holdsNoLine : HoldsNoLine false lexer'.cursor.rest
  offset_add : lexer'.cursor.offset + Text.byteLength lexer'.cursor.rest = lexer'.size
  le_offset : size ≤ lexer'.cursor.offset
  lt_size : size < lexer'.size
  state_eq : lexer' = { lexer with
    cursor := lexer'.cursor, size := lexer'.size, atLineStart := lexer'.atLineStart }

namespace Ending

/-- Both lexers still end alike where the lines behind the source hold nothing. -/
theorem moves (hending : lexer.Ending size lexer') {stop stop' : Cursor}
    (hstop : lexer.cursor.Reaches stop) (hstop' : lexer'.cursor.Reaches stop')
    (hnone : HoldsNoLine false stop'.rest) (atLineStart atLineStart' : Bool) :
    ({ lexer with cursor := stop, atLineStart } : Lexer).Ending size
      { lexer' with cursor := stop', atLineStart := atLineStart' } where
  rest_eq := by
    obtain ⟨text, hrest, -⟩ := hstop
    rw [hending.rest_eq] at hrest
    exact (List.append_eq_nil_iff.mp hrest.symm).2
  brackets_eq := hending.brackets_eq
  pendingDedents_eq := hending.pendingDedents_eq
  holdsNoLine := hnone
  offset_add := hstop'.offset_add.trans hending.offset_add
  le_offset := Nat.le_trans hending.le_offset hstop'.offset_le
  lt_size := hending.lt_size
  state_eq := congrArg
    (fun lexer : Lexer => { lexer with cursor := stop', atLineStart := atLineStart' }) hending.state_eq

private theorem closeLine (hending : lexer.Ending size lexer') :
    ({ lexer with lineHasTokens := false } : Lexer).Ending size
      { lexer' with lineHasTokens := false } :=
  { hending with
    state_eq := congrArg (fun lexer : Lexer => { lexer with lineHasTokens := false })
      hending.state_eq }

private theorem closeLevel (hending : lexer.Ending size lexer') (levels : List IndentWidth) :
    ({ lexer with levels } : Lexer).Ending size { lexer' with levels } :=
  { hending with
    state_eq := congrArg (fun lexer : Lexer => { lexer with levels }) hending.state_eq }

/-- At the ends of the two sources the same is made up. -/
theorem readEnd (hending : lexer.Ending size lexer') (hrest : lexer'.cursor.rest = []) :
    ∃ token next token' next', lexer.readEnd = .ok (token, next) ∧
      lexer'.readEnd = .ok (token', next') ∧ token.Late size token' ∧ next.Ending size next' := by
  have hbrackets := hending.brackets_eq
  have hbrackets' := (congrArg Lexer.brackets hending.state_eq).trans hbrackets
  have hlineEq := congrArg Lexer.lineHasTokens hending.state_eq
  have hlevelsEq := congrArg Lexer.levels hending.state_eq
  have hoffset : lexer'.cursor.offset = lexer'.size := by
    simpa [hrest] using hending.offset_add
  have hlate : ∀ kind : TokenKind, ¬kind.IsSolid → ∀ offset,
      (Token.empty kind offset).Late size (.empty kind lexer'.size) :=
    fun kind hkind _ => ⟨rfl, hkind, hending.lt_size⟩
  cases hline : lexer.lineHasTokens with
  | true =>
    refine ⟨_, _, _, _, readEnd_of_line hbrackets hline,
      readEnd_of_line hbrackets' (hlineEq.trans hline), ?_, hending.closeLine⟩
    rw [hoffset]
    exact hlate .newline (by decide) _
  | false =>
    cases hlevels : lexer.levels with
    | cons level levels =>
      refine ⟨_, _, _, _, readEnd_of_level hbrackets hline hlevels,
        readEnd_of_level hbrackets' (hlineEq.trans hline) (hlevelsEq.trans hlevels), ?_,
        hending.closeLevel levels⟩
      rw [hoffset]
      exact hlate .dedent (by decide) _
    | nil =>
      exact ⟨_, _, _, _, readEnd_of_noLevel hbrackets hline hlevels,
        readEnd_of_noLevel hbrackets' (hlineEq.trans hline) (hlevelsEq.trans hlevels),
        hlate .endOfInput (by decide) _, hending⟩

/-- Both lexers find tokens of one kind. -/
theorem finds (hending : lexer.Ending size lexer') :
    ∃ token next token' next', lexer.Finds (.ok (token, next)) ∧
      lexer'.Finds (.ok (token', next')) ∧ token.Late size token' ∧ next.Ending size next' := by
  have hbrackets' := (congrArg Lexer.brackets hending.state_eq).trans hending.brackets_eq
  have hnone : HoldsNoLine false lexer.cursor.rest := by
    rw [hending.rest_eq]
    exact .nil
  obtain ⟨stop, atLineStart, hrest, hstop, hfinds⟩ : lexer.FindsEnd := by
    rcases finds_of_holdsNoLine hending.brackets_eq hnone with hends | ⟨-, _, stop, _, hstop, hlt, -⟩
    · exact hends
    · have hoffset := hstop.offset_add
      rw [hending.rest_eq, Text.byteLength_nil] at hoffset
      omega
  rcases finds_of_holdsNoLine hbrackets' hending.holdsNoLine with
    ⟨stop', atLineStart', hrest', hstop', hfinds'⟩ |
    ⟨hline', start, stop', text, hstop', hlt, hbehind, hfinds'⟩
  · have hnone : HoldsNoLine false stop'.rest := by
      rw [hrest']
      exact .nil
    obtain ⟨token, next, token', next', hend, hend', hlate, hnext⟩ :=
      (hending.moves hstop hstop' hnone atLineStart atLineStart').readEnd hrest'
    exact ⟨token, next, token', next', hfinds hend, hfinds' hend', hlate, hnext⟩
  · have hline : lexer.lineHasTokens = true :=
      (congrArg Lexer.lineHasTokens hending.state_eq).symm.trans hline'
    have hmoves := hending.moves hstop hstop' hbehind atLineStart true
    have hsolid : ¬TokenKind.newline.IsSolid := by decide
    exact ⟨_, _, _, _, hfinds (readEnd_of_line hending.brackets_eq hline), hfinds',
      ⟨rfl, hsolid, Nat.lt_of_le_of_lt hending.le_offset hlt⟩, hmoves.closeLine⟩

end Ending

/-! ## In front of the end of the shorter source -/

/-- A lexer in a source of some size, and one in the same state in the source that has a line feed
and lines behind it. -/
structure Followed (size : Nat) (lines : List Char) (lexer lexer' : Lexer) : Prop where
  offset_add : lexer.cursor.offset + Text.byteLength lexer.cursor.rest = size
  state_eq : lexer' = { lexer with
    cursor := ⟨lexer.cursor.rest ++ '\n' :: lines, lexer.cursor.offset⟩
    size := size + Text.byteLength ('\n' :: lines) }

namespace Followed

variable {cursor stop stop' : Cursor}

/-- What is left of the longer source goes on behind what is left of the shorter one. -/
theorem offset_le (hfollowed : lexer.Followed size lines lexer') (hstop : lexer.cursor.Reaches stop)
    (hstop' : lexer'.cursor.Reaches stop') (hrest : stop.rest = []) (hrest' : stop'.rest = []) :
    stop.offset ≤ stop'.offset := by
  have hoffset := hstop.offset_add
  have hoffset' := hstop'.offset_add
  obtain ⟨-, rfl⟩ := hfollowed
  rw [hrest, Text.byteLength_nil] at hoffset
  rw [hrest', Text.byteLength_nil] at hoffset'
  dsimp only at hoffset'
  rw [Text.byteLength_append] at hoffset'
  omega

/-- The shorter source ends, and what is left of the longer one starts nothing. -/
theorem ending (hfollowed : lexer.Followed size lines lexer') (hbrackets : lexer.brackets = [])
    (hpending : lexer.pendingDedents = 0) (hstop : lexer.cursor.Reaches stop)
    (hrest : stop.rest = []) (hstop' : lexer'.cursor.Reaches stop')
    (hnone : HoldsNoLine false stop'.rest) (hle : stop.offset ≤ stop'.offset) :
    ({ lexer with cursor := stop } : Lexer).Ending size { lexer' with cursor := stop' } := by
  obtain ⟨hoffset, rfl⟩ := hfollowed
  have hsize : stop.offset = size := by
    have hstop := hstop.offset_add
    rw [hrest, Text.byteLength_nil] at hstop
    omega
  have hfeed : 0 < Text.byteLength ('\n' :: lines) := Text.byteLength_pos (List.cons_ne_nil _ _)
  refine ⟨hrest, hbrackets, hpending, hnone, ?_, hsize ▸ hle, ?_, rfl⟩
  · rw [hstop'.offset_add, Text.byteLength_append, ← hoffset, Nat.add_assoc]
  · dsimp only
    omega

/-- Indentation is read alike with lines behind the source that hold nothing. -/
theorem readIndentation (hfollowed : lexer.Followed size lines lexer')
    (hlines : HoldsNoLine false lines) (hbrackets : lexer.brackets = [])
    (hpending : lexer.pendingDedents = 0) {change : Option Token}
    (hread : lexer.readIndentation = .ok (change, entered)) :
    ∃ entered', lexer'.readIndentation = .ok (change, entered') ∧
      (entered.Followed size lines entered' ∨ change = none ∧ entered.Ending size entered') := by
  have hseparated := LineStart.find_separatedFrom lexer.cursor
  unfold Lexer.readIndentation at hread
  split at hread
  · rename_i stop hfind
    cases hread
    rw [hfind] at hseparated
    obtain ⟨stop', hfind'⟩ : ∃ stop', LineStart.find lexer'.cursor = .none stop' := by
      rw [hfollowed.state_eq]
      exact LineStart.findFrom_trailing hlines hfind
    have hseparated' := LineStart.find_separatedFrom lexer'.cursor
    rw [hfind'] at hseparated'
    have hnone : HoldsNoLine false stop'.rest := by
      rw [hseparated'.1]
      exact .nil
    have hreaches := hseparated.2.reaches
    have hreaches' := hseparated'.2.reaches
    have hending := hfollowed.ending hbrackets hpending hreaches hseparated.1 hreaches' hnone
      (hfollowed.offset_le hreaches hreaches' hseparated.1 hseparated'.1)
    refine ⟨{ lexer' with cursor := stop', atLineStart := false }, ?_, .inr ⟨rfl, ?_⟩⟩
    · simp only [Lexer.readIndentation, hfind']
    · exact hending.moves (.refl _) (.refl _) hnone false false
  · rename_i start width stop hfind
    rw [hfind] at hseparated
    obtain ⟨lineStart, hbefore, -, hblanks⟩ := hseparated
    have hoffset := (hbefore.trans hblanks).reaches.offset_add.trans hfollowed.offset_add
    dsimp only at hread
    have hfind' : LineStart.find lexer'.cursor =
        .line start width ⟨stop.rest ++ '\n' :: lines, stop.offset⟩ := by
      rw [hfollowed.state_eq]
      exact LineStart.findFrom_append _ hfind
    obtain ⟨-, rfl⟩ := hfollowed
    unfold Lexer.readIndentation
    split at hread
    · cases hread
    all_goals
      rename_i hchange
      cases hread
      rw [hfind']
      dsimp only
      rw [hchange]
      exact ⟨_, rfl, .inl ⟨hoffset, rfl⟩⟩

/-- The start of a line is read alike with lines behind the source that hold nothing. -/
theorem readLineStart (hfollowed : lexer.Followed size lines lexer')
    (hlines : HoldsNoLine false lines) (hpending : lexer.pendingDedents = 0)
    {change : Option Token} (hstart : lexer.readLineStart = .ok (change, entered)) :
    ∃ entered', lexer'.readLineStart = .ok (change, entered') ∧
      (entered.Followed size lines entered' ∨ change = none ∧ entered.Ending size entered') := by
  have hreaches := readLineStart_reaches hstart
  have hguard : (lexer'.atLineStart && lexer'.brackets.isEmpty) =
      (lexer.atLineStart && lexer.brackets.isEmpty) := by
    rw [hfollowed.state_eq]
  unfold Lexer.readLineStart at hstart ⊢
  rw [hguard]
  split at hstart
  · rename_i hline
    rw [if_pos hline]
    have hbrackets : lexer.brackets = [] := by
      rw [Bool.and_eq_true, List.isEmpty_iff] at hline
      exact hline.2
    exact hfollowed.readIndentation hlines hbrackets hpending hstart
  · rename_i hline
    cases hstart
    rw [if_neg hline]
    exact ⟨lexer', rfl, .inl hfollowed⟩

/-- A token of the text is the same one. -/
theorem readSignificant (hfollowed : lexer.Followed size lines lexer') {c : Char}
    (hpeek : lexer.cursor.peek? = some c) (hread : lexer.readSignificant c = .ok (token, next)) :
    ∃ next', lexer'.readSignificant c = .ok (token, next') ∧ next.Followed size lines next' := by
  obtain ⟨-, ⟨text, hpasses⟩, -, htoken, hsignificant, htrack, hnext⟩ :=
    readSignificant_ok hpeek hread
  have hoffset := (Cursor.Reaches.offset_add ⟨text, hpasses⟩).trans hfollowed.offset_add
  obtain ⟨-, rfl⟩ := hfollowed
  have hpasses' := hpasses.append ('\n' :: lines)
  have hstops : StopsLike next.cursor.rest (next.cursor.rest ++ '\n' :: lines) := by
    have hends := (StopsLike.ends (.inr rfl) [] lines).append next.cursor.rest
    rwa [List.append_nil] at hends
  have hsignificant' := significant_beside hstops ⟨text, hpasses, hpasses'⟩ hpeek hsignificant
  have htext := hpasses'.textTo_eq.trans hpasses.textTo_eq.symm
  refine ⟨{ next with
    cursor := ⟨next.cursor.rest ++ '\n' :: lines, next.cursor.offset⟩
    size := size + Text.byteLength ('\n' :: lines) }, ?_, hoffset, rfl⟩
  refine bind_eq_ok_iff.mpr ⟨(token.kind, _), hsignificant', ?_⟩
  refine bind_eq_ok_iff.mpr ⟨next.brackets, ?_, ?_⟩
  · rw [htoken] at htrack
    exact trackBrackets_of_ok htrack _
  · dsimp only
    rw [htext, hnext, htoken]
    rfl

/-- A line break is the same one, or a carriage return at the end of the shorter source is a line
break together with the line feed behind it. -/
theorem lineBreak (hfollowed : lexer.Followed size lines lexer') (hlines : HoldsNoLine false lines)
    (hpending : lexer.pendingDedents = 0)
    (htrivia : skipTrivia (!lexer.brackets.isEmpty) lexer.cursor = .ok cursor)
    (hbreak : cursor.skipLineBreak? = some stop) {token? : Option Token}
    (hread : lexer.readWithin = .ok (token?, next)) :
    (∃ next', lexer'.readWithin = .ok (token?, next') ∧ next.Followed size lines next') ∨
      ∃ token'? next', lexer'.readWithin = .ok (token'?, next') ∧
        Option.Rel (Token.Late size) token? token'? ∧ next.Ending size next' := by
  have hbrackets : lexer.brackets = [] := by
    rcases hopen : lexer.brackets with _ | ⟨bracket, outer⟩
    · rfl
    · rw [hopen] at htrivia
      rw [skipTriviaFrom_inBrackets htrivia] at hbreak
      cases hbreak
  have hrest : cursor.rest ≠ [] := by
    intro hrest
    obtain ⟨rest, offset⟩ := cursor
    obtain rfl : rest = [] := hrest
    cases hbreak
  have htrivia' : skipTrivia (!lexer'.brackets.isEmpty) lexer'.cursor =
      .ok ⟨cursor.rest ++ '\n' :: lines, cursor.offset⟩ := by
    rw [hfollowed.state_eq]
    exact skipTriviaFrom_append _ htrivia hrest
  have hwithin := readWithin_of_lineBreak htrivia hbreak
  rw [hread] at hwithin
  cases hwithin
  have hstop : lexer.cursor.Reaches stop := readWithin_reaches hread
  have hline : lexer'.lineHasTokens = lexer.lineHasTokens := by rw [hfollowed.state_eq]
  rcases Cursor.skipLineBreak?_lineFeed lines hbreak with hbreak' | ⟨hend, hbreak'⟩
  · have hwithin' := readWithin_of_lineBreak htrivia' hbreak'
    obtain ⟨text, hpasses, -⟩ := skipLineBreak?_passes hbreak
    have htext := (hpasses.append ('\n' :: lines)).textTo_eq.trans hpasses.textTo_eq.symm
    refine .inl ⟨_, hwithin'.trans ?_, hstop.offset_add.trans hfollowed.offset_add, rfl⟩
    obtain ⟨-, rfl⟩ := hfollowed
    dsimp only
    rw [htext]
  · have hwithin' := readWithin_of_lineBreak htrivia' hbreak'
    have hstop' : lexer'.cursor.Reaches ⟨lines, stop.offset + 1⟩ := readWithin_reaches hwithin'
    have hending := hfollowed.ending hbrackets hpending hstop hend hstop' hlines (Nat.le_succ _)
    have hsize : stop.offset = size := by
      have hoffset := hstop.offset_add.trans hfollowed.offset_add
      rwa [hend, Text.byteLength_nil] at hoffset
    refine .inr ⟨_, _, hwithin', ?_, (hending.moves (.refl _) (.refl _) hlines true true).closeLine⟩
    rw [hline]
    split
    · have hsolid : ¬TokenKind.newline.IsSolid := by decide
      exact .some ⟨rfl, hsolid, hsize ▸ Nat.lt_succ_self _⟩
    · exact .none

/-- What is read within a line is the same token or line break, or is read where the shorter source
has come to its end, or stands for what the shorter source ends with. -/
theorem readWithin (hfollowed : lexer.Followed size lines lexer')
    (hlines : HoldsNoLine false lines) (hpending : lexer.pendingDedents = 0) {token? : Option Token}
    (hread : lexer.readWithin = .ok (token?, next)) :
    (∃ next', lexer'.readWithin = .ok (token?, next') ∧ next.Followed size lines next') ∨
      (∃ token'? next', lexer'.readWithin = .ok (token'?, next') ∧
        Option.Rel (Token.Late size) token? token'? ∧ next.Ending size next') ∨
      ∃ cursor cursor', ({ lexer with cursor } : Lexer).Ending size { lexer' with cursor := cursor' } ∧
        ({ lexer with cursor } : Lexer).readWithin = lexer.readWithin ∧
        ({ lexer' with cursor := cursor' } : Lexer).readWithin = lexer'.readWithin := by
  obtain ⟨cursor, htrivia, hcursor, hcases⟩ := readWithin_ok hread
  rcases hcases with ⟨hrest, token, -, hend⟩ | ⟨hbreak, -, -⟩ |
    ⟨hbreak, c, token, hpeek, rfl, hsignificant⟩
  · -- Both lexers go on behind the text that belongs to no token.
    obtain ⟨hbrackets, -⟩ := readEnd_ok hend
    obtain ⟨middle, hnone, hle, hreaches, hsame⟩ := skipTriviaFrom_trailing hlines htrivia hrest
    have hending := hfollowed.ending hbrackets hpending hcursor hrest
      (by rw [hfollowed.state_eq]; exact hreaches) hnone hle
    refine .inr (.inr ⟨cursor, middle, hending, ?_, ?_⟩)
    · refine readWithin_of_skipTrivia_eq ?_
      obtain ⟨rest, offset⟩ := cursor
      obtain rfl : rest = [] := hrest
      exact htrivia.symm
    · refine readWithin_of_skipTrivia_eq ?_
      rw [hfollowed.state_eq]
      exact hsame.symm
  · rcases hfollowed.lineBreak hlines hpending htrivia hbreak hread with hsame | hlate
    · exact .inl hsame
    · exact .inr (.inl hlate)
  · have hrest : cursor.rest ≠ [] := by
      intro hrest
      rw [Cursor.peek?, hrest] at hpeek
      cases hpeek
    have htrivia' : skipTrivia (!lexer'.brackets.isEmpty) lexer'.cursor =
        .ok ⟨cursor.rest ++ '\n' :: lines, cursor.offset⟩ := by
      rw [hfollowed.state_eq]
      exact skipTriviaFrom_append _ htrivia hrest
    have hpeek' : (⟨cursor.rest ++ '\n' :: lines, cursor.offset⟩ : Cursor).peek? = some c := by
      rw [Cursor.peek?, List.head?_append_of_ne_nil _ hrest]
      exact hpeek
    have hfollowed' : ({ lexer with cursor } : Lexer).Followed size lines
        { lexer' with cursor := ⟨cursor.rest ++ '\n' :: lines, cursor.offset⟩ } := by
      refine ⟨hcursor.offset_add.trans hfollowed.offset_add, ?_⟩
      rw [hfollowed.state_eq]
    obtain ⟨next', hsignificant', hnext⟩ := hfollowed'.readSignificant hpeek hsignificant
    refine .inl ⟨next', readWithin_of_significant htrivia' hpeek' ?_ hsignificant', hnext⟩
    rw [Cursor.skipLineBreak?_eq_none_iff hpeek] at hbreak
    rwa [Cursor.skipLineBreak?_eq_none_iff hpeek']

end Followed

/-! ## Calls -/

/-- A lexer that has entered a line finds what any lexer finds that reads the same within
the line. -/
theorem Finds.of_readWithin_eq {other : Lexer} {result : Except LexFailure (Token × Lexer)}
    (hfinds : other.Finds result) (hother : (other.atLineStart && other.brackets.isEmpty) = false)
    (hstart : lexer.readLineStart = .ok (none, entered))
    (hwithin : other.readWithin = entered.readWithin) : lexer.Finds result := by
  have hentry : other.readLineStart = .ok (none, other) := if_neg (by simp [hother])
  cases hfinds with
  | indentation hfailed =>
    rw [hentry] at hfailed
    cases hfailed
  | level hlevel =>
    rw [hentry] at hlevel
    cases hlevel
  | failing hentry' hfailed =>
    rw [hentry] at hentry'
    cases hentry'
    exact .failing hstart (hwithin.symm.trans hfailed)
  | token hentry' htoken =>
    rw [hentry] at hentry'
    cases hentry'
    exact .token hstart (hwithin.symm.trans htoken)
  | line hentry' hline hrest =>
    rw [hentry] at hentry'
    cases hentry'
    exact .line hstart (hwithin.symm.trans hline) hrest

/-- Where both lexers have entered their lines and the shorter source ends, they find tokens of one
kind. -/
theorem Ending.findsWithin {other other' : Lexer} (hending : other.Ending size other')
    (hother : (other.atLineStart && other.brackets.isEmpty) = false)
    (hother' : (other'.atLineStart && other'.brackets.isEmpty) = false)
    (hstart : lexer.readLineStart = .ok (none, entered))
    (hstart' : lexer'.readLineStart = .ok (none, entered'))
    (hwithin : other.readWithin = entered.readWithin)
    (hwithin' : other'.readWithin = entered'.readWithin)
    (hfinds : lexer.Finds (.ok (token, next))) :
    ∃ token' next', lexer'.Finds (.ok (token', next')) ∧ token.Late size token' ∧
      next.Ending size next' := by
  obtain ⟨_, _, token', next', hfound, hfound', hlate, hnext⟩ := hending.finds
  cases hfinds.unique (hfound.of_readWithin_eq hother hstart hwithin)
  exact ⟨token', next', hfound'.of_readWithin_eq hother' hstart' hwithin', hlate, hnext⟩

/-- A line is entered and read alike, or read alike up to what the shorter source ends with, or what
is found is found where the shorter source has come to its end. -/
theorem Followed.readLine (hfollowed : lexer.Followed size lines lexer')
    (hlines : HoldsNoLine false lines) (hpending : lexer.pendingDedents = 0) {token? : Option Token}
    (hstart : lexer.readLineStart = .ok (none, entered))
    (hwithin : entered.readWithin = .ok (token?, next)) :
    (∃ entered' next', lexer'.readLineStart = .ok (none, entered') ∧
        entered'.readWithin = .ok (token?, next') ∧ next.Followed size lines next') ∨
      (∃ entered' token'? next', lexer'.readLineStart = .ok (none, entered') ∧
        entered'.readWithin = .ok (token'?, next') ∧ Option.Rel (Token.Late size) token? token'? ∧
        next.Ending size next') ∨
      ∀ {token next}, lexer.Finds (.ok (token, next)) → ∃ token' next',
        lexer'.Finds (.ok (token', next')) ∧ token.Late size token' ∧ next.Ending size next' := by
  have hentered := (readLineStart_none hstart).2.1
  obtain ⟨entered', hstart', hentry⟩ := hfollowed.readLineStart hlines hpending hstart
  have hentered' := (readLineStart_none hstart').2.1
  rcases hentry with hentry | ⟨-, hending⟩
  · have hpending := (readLineStart_weight hstart).2.trans hpending
    rcases hentry.readWithin hlines hpending hwithin with ⟨next', hwithin', hnext⟩ |
      ⟨token'?, next', hwithin', hlate, hnext⟩ | ⟨cursor, cursor', hending, hsame, hsame'⟩
    · exact .inl ⟨entered', next', hstart', hwithin', hnext⟩
    · exact .inr (.inl ⟨entered', token'?, next', hstart', hwithin', hlate, hnext⟩)
    · exact .inr (.inr fun hfinds =>
        hending.findsWithin hentered hentered' hstart hstart' hsame hsame' hfinds)
  · exact .inr (.inr fun hfinds =>
      hending.findsWithin hentered hentered' hstart hstart' rfl rfl hfinds)

/-- A token is found alike with lines behind the source that hold nothing, or it ends the source. -/
theorem Followed.finds (hfollowed : lexer.Followed size lines lexer')
    (hlines : HoldsNoLine false lines) (hpending : lexer.pendingDedents = 0)
    (hfinds : lexer.Finds (.ok (token, next))) :
    ∃ token' next', lexer'.Finds (.ok (token', next')) ∧
      (token' = token ∧ next.Followed size lines next' ∨
        token.Late size token' ∧ next.Ending size next') := by
  generalize hresult : Except.ok (token, next) = result at hfinds
  induction hfinds generalizing lexer' with
  | indentation | failing => cases hresult
  | level hlevel =>
    cases hresult
    obtain ⟨next', hlevel', hnext | ⟨hnone, -⟩⟩ := hfollowed.readLineStart hlines hpending hlevel
    · exact ⟨token, next', .level hlevel', .inl ⟨rfl, hnext⟩⟩
    · cases hnone
  | token hstart hwithin =>
    cases hresult
    rcases hfollowed.readLine hlines hpending hstart hwithin with
      ⟨entered', next', hstart', hwithin', hnext⟩ |
      ⟨entered', token'?, next', hstart', hwithin', hlate, hnext⟩ | hends
    · exact ⟨token, next', .token hstart' hwithin', .inl ⟨rfl, hnext⟩⟩
    · cases hlate with
      | some hlate => exact ⟨_, next', .token hstart' hwithin', .inr ⟨hlate, hnext⟩⟩
    · obtain ⟨token', next', hfinds', hlate⟩ := hends (.token hstart hwithin)
      exact ⟨token', next', hfinds', .inr hlate⟩
  | line hstart hwithin hrest ih =>
    subst hresult
    have hpending' := (readWithin_pendingDedents hwithin).trans
      ((readLineStart_weight hstart).2.trans hpending)
    rcases hfollowed.readLine hlines hpending hstart hwithin with
      ⟨entered', middle', hstart', hwithin', hmiddle⟩ |
      ⟨entered', token'?, middle', hstart', hwithin', hnone, hmiddle⟩ | hends
    · obtain ⟨token', next', hfinds', hnext⟩ := ih hmiddle hpending' rfl
      exact ⟨token', next', .line hstart' hwithin' hfinds', hnext⟩
    · cases hnone
      obtain ⟨_, _, token', next', hfound, hfinds', hlate⟩ := hmiddle.finds
      cases hrest.unique hfound
      exact ⟨token', next', .line hstart' hwithin' hfinds', .inr hlate⟩
    · obtain ⟨token', next', hfinds', hlate⟩ := hends (.line hstart hwithin hrest)
      exact ⟨token', next', hfinds', .inr hlate⟩

/-- One call in front of the end of the shorter source answers the same token, or what the shorter
source ends with. -/
theorem Followed.next_cases (hfollowed : lexer.Followed size lines lexer')
    (hlines : HoldsNoLine false lines) (hreading : lexer.Reading source)
    (hreading' : lexer'.Reading source') (hvalid : lexer.next.1.kind ≠ .invalid) :
    lexer'.next.1 = lexer.next.1 ∧ lexer.next.2.Followed size lines lexer'.next.2 ∨
      lexer.next.1.Late size lexer'.next.1 ∧ lexer.next.2.Ending size lexer'.next.2 := by
  rcases hreading.next_finds hvalid with ⟨pendingDedents, hdedents, hnext⟩ | ⟨hpending, hfinds⟩
  · obtain ⟨hoffset, rfl⟩ := hfollowed
    rw [hreading'.next_eq (by rw [read, hdedents]), hnext]
    exact .inl ⟨rfl, hoffset, rfl⟩
  · obtain ⟨token', next', hfinds', hnext⟩ := hfollowed.finds hlines hpending hfinds
    have hpending' : lexer'.pendingDedents = 0 := by
      rw [hfollowed.state_eq]
      exact hpending
    rw [hreading'.next_of_finds hpending' hfinds']
    exact hnext

/-- One call behind the end of the shorter source. -/
theorem Ending.next_late (hending : lexer.Ending size lexer') (hreading : lexer.Reading source)
    (hreading' : lexer'.Reading source') :
    lexer.next.1.Late size lexer'.next.1 ∧ lexer.next.2.Ending size lexer'.next.2 := by
  obtain ⟨token, next, token', next', hfinds, hfinds', hlate⟩ := hending.finds
  have hpending' : lexer'.pendingDedents = 0 := by
    rw [hending.state_eq]
    exact hending.pendingDedents_eq
  rw [hreading.next_of_finds hending.pendingDedents_eq hfinds,
    hreading'.next_of_finds hpending' hfinds']
  exact hlate

/-- The tokens of a source, and those with a line break and more lines behind it. -/
private theorem ofSource_followed (source lines : String) :
    (ofSource source).Followed source.utf8ByteSize lines.toList
      (ofSource (source ++ "\n" ++ lines)) := by
  have hoffset := (ofSource_reading source).isIn.offset_add
  rw [← Text.utf8ByteSize_eq_byteLength] at hoffset
  refine ⟨hoffset, ?_⟩
  have hsource : (source ++ "\n" ++ lines).toList = source.toList ++ '\n' :: lines.toList := by simp
  have hsize : (source ++ "\n" ++ lines).utf8ByteSize =
      source.utf8ByteSize + Text.byteLength ('\n' :: lines.toList) := by
    simp [Text.utf8ByteSize_eq_byteLength]
  rw [ofSource, ofSource, hsource, hsize]
  cases source.toList with
  | nil => rfl
  | cons c cs =>
    dsimp only [start, List.cons_append]
    split <;> rfl

/-- Any number of calls. -/
theorem after_finalBreak {source lines : String} (hlines : TrailingLines lines.toList)
    (hclean : (Tokens.ofSource source).failure = none) (count : Nat) :
    ((ofSource (source ++ "\n" ++ lines)).after count).Reading (source ++ "\n" ++ lines).toList ∧
      (((ofSource source).after count).Followed source.utf8ByteSize lines.toList
          ((ofSource (source ++ "\n" ++ lines)).after count) ∨
        ((ofSource source).after count).Ending source.utf8ByteSize
          ((ofSource (source ++ "\n" ++ lines)).after count)) := by
  induction count with
  | zero => exact ⟨(ofSource_reading _), .inl (ofSource_followed source lines)⟩
  | succ count ih =>
    obtain ⟨hreading', hrelated⟩ := ih
    have hreading := Tokens.reading_after hclean count
    have hvalid := Tokens.next_ne_invalid hclean count
    rw [after_succ, after_succ]
    rcases hrelated with hfollowed | hending
    · rcases hfollowed.next_cases hlines.holdsNoLine hreading hreading' hvalid with
        ⟨htoken, hnext⟩ | ⟨hlate, hnext⟩
      · exact ⟨hreading'.next_reading (htoken ▸ hvalid), .inl hnext⟩
      · exact ⟨hreading'.next_reading (hlate.kind_eq ▸ hvalid), .inr hnext⟩
    · obtain ⟨hlate, hnext⟩ := hending.next_late hreading hreading'
      exact ⟨hreading'.next_reading (hlate.kind_eq ▸ hvalid), .inr hnext⟩

/-- Once the shorter source has come to its end, all tokens of the longer one stand for what the
shorter one ends with. -/
theorem late_after {source lines : String} (hlines : TrailingLines lines.toList)
    (hclean : (Tokens.ofSource source).failure = none) {count later : Nat} (hle : count ≤ later)
    (hending : ((ofSource source).after count).Ending source.utf8ByteSize
      ((ofSource (source ++ "\n" ++ lines)).after count)) :
    ((ofSource source).after later).next.1.Late source.utf8ByteSize
      ((ofSource (source ++ "\n" ++ lines)).after later).next.1 := by
  have hnext : ∀ later, ((ofSource source).after later).Ending source.utf8ByteSize
      ((ofSource (source ++ "\n" ++ lines)).after later) → _ := fun later hending =>
    hending.next_late (Tokens.reading_after hclean later) (after_finalBreak hlines hclean later).1
  refine (hnext later ?_).1
  induction later, hle using Nat.le_induction with
  | base => exact hending
  | succ later _ ih =>
    rw [after_succ, after_succ]
    exact (hnext later ih).2

end Lexer

/-! ## Tokens -/

namespace Tokens

/-- The tokens of a source and those of the source with a line feed and trailing lines behind it are
the same up to the end of the source. From there on they are of the same kinds, and not made of
text, and those of the longer source end behind the shorter one. -/
theorem ofSource_finalBreak {source lines : String} (hlines : TrailingLines lines.toList)
    (hclean : (ofSource source).failure = none) (index : Nat) :
    (ofSource (source ++ "\n" ++ lines)).get index = (ofSource source).get index ∨
      ((ofSource source).get index).Late source.utf8ByteSize
          ((ofSource (source ++ "\n" ++ lines)).get index) ∧
        ∀ later ≥ index, source.utf8ByteSize <
          ((ofSource (source ++ "\n" ++ lines)).get later).span.stop := by
  simp only [get_ofSource_eq_next]
  obtain ⟨hreading', hfollowed | hending⟩ := Lexer.after_finalBreak hlines hclean index
  · rcases hfollowed.next_cases hlines.holdsNoLine (reading_after hclean index) hreading'
      (next_ne_invalid hclean index) with ⟨htoken, -⟩ | ⟨hlate, hending⟩
    · exact .inl htoken
    · rw [← Lexer.after_succ, ← Lexer.after_succ] at hending
      refine .inr ⟨hlate, fun later hle => ?_⟩
      rcases Nat.eq_or_lt_of_le hle with rfl | hlt
      · exact hlate.lt_stop
      · exact (Lexer.late_after hlines hclean hlt hending).lt_stop
  · exact .inr ⟨Lexer.late_after hlines hclean (Nat.le_refl _) hending, fun later hle =>
      (Lexer.late_after hlines hclean hle hending).lt_stop⟩

end Tokens

end PythonOutline
