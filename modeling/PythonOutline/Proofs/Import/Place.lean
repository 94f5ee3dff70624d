import PythonOutline.Proofs.Import.Lexing
import PythonOutline.Proofs.Text.Slice
import PythonOutline.Proofs.Tree.Coverage

/-! # Places of statements and of their text

Every statement of a module is read at a place of its own, and a simple statement ends in front of a
semicolon or a line break. Where its text is known, the lexer reads the tokens of the text there,
whatever stands around it. -/

namespace PythonOutline

/-! ## Statements -/

namespace Parser

variable {tokens : Tokens} {before after : Place} {stmt : Stmt} {stmts : List Stmt}
  {block : Parser (List Stmt)}

/-- A simple statement is read at a place, up to a semicolon or the end of its line. -/
def ReadsSimple (tokens : Tokens) (before : Place) (stmt : Stmt) (after : Place) : Prop :=
  simpleStmt.Reads tokens before stmt after ∧
    (tokens.kindAt after = .semicolon ∨ tokens.kindAt after = .newline)

private theorem Continues.kindAt_before {starts : TokenKind → Bool} {item : Parser Stmt}
    (hcontinues : Continues .semicolon starts item tokens before stmts after)
    (hline : tokens.kindAt after = .newline) :
    tokens.kindAt before = .semicolon ∨ tokens.kindAt before = .newline := by
  cases hcontinues with
  | stop => exact .inr hline
  | trailing hsemicolon | item hsemicolon => exact .inl hsemicolon

/-- Each of the statements behind the first one on a line is read at some place. -/
theorem Continues.exists_reads {starts : TokenKind → Bool}
    (hcontinues : Continues .semicolon starts simpleStmt tokens before stmts after)
    (hline : tokens.kindAt after = .newline) (hstmt : stmt ∈ stmts) :
    ∃ start stop, ReadsSimple tokens start stmt stop := by
  induction hcontinues with
  | stop | trailing => cases hstmt
  | item _ _ hitem hrest ih =>
    rcases List.mem_cons.mp hstmt with rfl | hstmt
    · exact ⟨_, _, hitem, hrest.kindAt_before hline⟩
    · exact ih hline hstmt

/-- Every statement of a line of simple statements is read at some place. -/
theorem simpleStmts_exists_reads (hreads : simpleStmts.Reads tokens before stmts after)
    (hstmt : stmt ∈ stmts) : ∃ start stop, ReadsSimple tokens start stmt stop := by
  obtain ⟨first, middle, others, last, hfirst, hothers, hline, -, rfl⟩ := reads_simpleStmts hreads
  rcases List.mem_cons.mp hstmt with rfl | hstmt
  · exact ⟨before, middle, hfirst, hothers.kindAt_before hline⟩
  · exact hothers.exists_reads hline hstmt

/-- Every statement among lines is read at some place. -/
theorem Lines.exists_reads {stop : TokenKind}
    (hlines : Lines (stmtLineOver block) stop tokens before stmts after) (hstmt : stmt ∈ stmts) :
    ∃ start stop, ReadsCompound block tokens start stmt stop ∨ ReadsSimple tokens start stmt stop := by
  induction hlines with
  | stop => cases hstmt
  | line _ _ hline _ ih =>
    rcases List.mem_append.mp hstmt with hstmt | hstmt
    · rcases reads_stmtLineOver hline with ⟨_, rfl, hcompound⟩ | ⟨-, _, -, hsimple⟩
      · obtain rfl := List.mem_singleton.mp hstmt
        exact ⟨_, _, .inl hcompound⟩
      · obtain ⟨start, stop, hreads⟩ := simpleStmts_exists_reads hsimple hstmt
        exact ⟨start, stop, .inr hreads⟩
    · exact ih hstmt

/-- An import that starts with `from` is no compound statement. -/
theorem ReadsCompound.kindAt_ne_from (hcompound : ReadsCompound block tokens before stmt after) :
    tokens.kindAt before ≠ .keywordFrom := by
  intro hfrom
  have hopens := hcompound.opensCompound_or
  simp [hfrom, opensCompound] at hopens

end Parser

/-! ## Text -/

/-- A slice at a cursor is what is passed from there on. -/
theorem Cursor.IsIn.passes_of_slice {source text : List Char} {cursor : Cursor} {stop : Nat}
    (hin : cursor.IsIn source) (hslice : Text.slice source cursor.offset stop = text)
    (hne : text ≠ []) : ∃ behind, cursor.Passes text ⟨behind, stop⟩ := by
  subst hslice
  obtain ⟨piece, hpiece⟩ := Text.exists_slice?_of_ne_nil hne
  rw [Text.slice_of_slice? hpiece]
  obtain ⟨before, behind, hsource, hbefore, hstop⟩ := Text.slice?_eq_some_iff.mp hpiece
  obtain ⟨passed, hrest, hoffset⟩ := hin
  have hdrop : Text.dropBytes? cursor.offset source = some cursor.rest :=
    Text.dropBytes?_eq_some_iff.mpr ⟨passed, hrest, by simpa using hoffset.symm⟩
  have hdrop' : Text.dropBytes? cursor.offset source = some (piece ++ behind) :=
    Text.dropBytes?_eq_some_iff.mpr ⟨before, hsource, hbefore⟩
  rw [hdrop] at hdrop'
  exact ⟨behind, Option.some.inj hdrop', hstop⟩

/-- What is read from the text of a token and no further is the token, if that is read in front of a
line break too. -/
theorem Lexeme.StandsBefore.of_le {lexeme : Lexeme} {behind : List Char} {first : Char} {offset : Nat}
    {kind : TokenKind} {stop : Cursor} (hstands : lexeme.StandsBefore ['\n'])
    (hpeek : lexeme.text.toList.head? = some first)
    (hread : Lexer.significant first ⟨lexeme.text.toList ++ behind, offset⟩ = .ok (kind, stop))
    (hle : stop.offset ≤ offset + Text.byteLength lexeme.text.toList) :
    lexeme.StandsBefore behind := by
  obtain ⟨c, others, htext, hstart, hknown⟩ := hstands
  obtain rfl : first = c := by simpa [htext] using hpeek.symm
  have hextent := @Lexer.significant_extent ⟨lexeme.text.toList ++ behind, offset⟩ first
    (by rw [htext]; rfl)
  rw [hread] at hextent
  obtain ⟨-, ⟨passed, hpasses⟩, hlt⟩ := hextent
  -- What is read may end within the text at first, so that it would end there in front of the line break.
  obtain ⟨more, htext', hstop⟩ : ∃ more, lexeme.text.toList = passed ++ more ∧
      stop.rest = more ++ behind := by
    rcases List.append_eq_append_iff.mp hpasses.rest_eq with ⟨more, hpassed, hbehind⟩ |
      ⟨more, htext', hstop⟩
    · have hoffset : stop.offset = offset + Text.byteLength passed := hpasses.offset_eq
      rw [hpassed, Text.byteLength_append] at hoffset
      obtain rfl : more = [] := by
        by_contra hne
        have hpos := Text.byteLength_pos hne
        omega
      exact ⟨[], by simpa using hpassed.symm, by simpa using hbehind.symm⟩
    · exact ⟨more, htext', hstop⟩
  have hhead : passed.head? = some first := by
    cases passed with
    | nil =>
      rw [hpasses.offset_eq] at hlt
      exact absurd hlt (Nat.lt_irrefl _)
    | cons c passed =>
      rw [htext', List.cons_append] at hpeek
      exact hpeek
  have hread' : Lexer.significant first ⟨passed ++ (more ++ behind), offset⟩ =
      .ok (kind, ⟨more ++ behind, offset + Text.byteLength passed⟩) := by
    rw [← List.append_assoc, ← htext', hread, ← hstop, ← hpasses.offset_eq]
  have hline := Lexer.significant_stopsLike offset (.append more (.ends (.inr rfl) behind [])) hhead
    hread'
  rw [← List.append_assoc, ← htext', hknown] at hline
  simp only [Except.ok.injEq, Prod.mk.injEq, Cursor.mk.injEq, List.self_eq_append_left] at hline
  obtain ⟨rfl, rfl, -⟩ := hline
  refine ⟨first, others, htext, hstart, fun offset' => ?_⟩
  rw [List.append_nil] at htext'
  rw [htext']
  exact Lexer.significant_stopsLike offset' (.refl behind) hhead hread'

namespace Lexer

variable {lexer behind : Lexer} {token : Token}

/-- A token with text is read behind separators, and nothing else is read within a line then. -/
theorem readWithin_isSolid (hread : lexer.readWithin = .ok (some token, behind))
    (hsolid : token.kind.IsSolid) :
    ∃ c cursor, cursor.peek? = some c ∧
      ({ lexer with cursor } : Lexer).readSignificant c = .ok (token, behind) := by
  obtain ⟨cursor, -, -, ⟨-, _, htoken, hend⟩ | ⟨-, -, htoken⟩ | ⟨-, c, _, hpeek, htoken, hread⟩⟩ :=
    readWithin_ok hread
  · cases htoken
    obtain ⟨-, ⟨-, rfl, -⟩ | ⟨-, -, rfl, -⟩ | ⟨-, -, rfl, -⟩⟩ := readEnd_ok hend
    · exact absurd hsolid.1 Bool.false_ne_true
    · exact absurd hsolid.1 Bool.false_ne_true
    · exact absurd rfl hsolid.2.1
  · split at htoken <;> cases htoken
    exact absurd hsolid.1 Bool.false_ne_true
  · cases htoken
    exact ⟨c, cursor, hpeek, hread⟩

/-- Behind a token that is text and no bracket, the lexer stands within the line. -/
theorem Finds.amidLine (hfinds : lexer.Finds (.ok (token, behind)))
    (hpending : lexer.pendingDedents = 0) (hplain : token.kind.IsPlain) : behind.AmidLine := by
  generalize hresult : Except.ok (token, behind) = result at hfinds
  induction hfinds with
  | indentation | failing => cases hresult
  | level hstart =>
    cases hresult
    obtain ⟨-, -, ⟨rfl, -⟩ | ⟨rfl, -⟩⟩ := readLineStart_some hstart <;>
      exact absurd hplain.1.1 Bool.false_ne_true
  | token hstart hwithin =>
    cases hresult
    have hdedents := (readLineStart_weight hstart).2.trans hpending
    obtain ⟨-, hline, -⟩ := readLineStart_none hstart
    obtain ⟨c, cursor, hpeek, hread⟩ := readWithin_isSolid hwithin hplain.1
    obtain ⟨-, -, -, -, -, htrack, hbehind⟩ := readSignificant_ok hpeek hread
    rw [trackBrackets_plain hplain] at htrack
    have hbrackets := Except.ok.inj htrack
    refine ⟨(readWithin_pendingDedents hwithin).trans hdedents, ?_, ?_⟩
    · rw [hbehind]
    · rw [hbehind, ← hbrackets]
      exact hline
  | line hstart hwithin _ ih =>
    have hdedents := (readLineStart_weight hstart).2.trans hpending
    exact ih ((readWithin_pendingDedents hwithin).trans hdedents) hresult

end Lexer

namespace Tokens

variable {source : String} {index earlier later : Nat}

private theorem InOrder.eq_of_stop_eq {tokens : Tokens} (hordered : tokens.InOrder)
    (hearlier : (tokens.get earlier).kind.IsSolid) (hlater : (tokens.get later).kind.IsSolid)
    (hstop : (tokens.get earlier).span.stop = (tokens.get later).span.stop) : earlier = later := by
  rcases Nat.lt_trichotomy earlier later with hlt | heq | hlt
  · have hle := hordered.stop_le earlier later hlt hearlier hlater
    have hstart := hordered.start_lt later hlater
    omega
  · exact heq
  · have hle := hordered.stop_le later earlier hlt hlater hearlier
    have hstart := hordered.start_lt earlier hearlier
    omega

/-- A token with text is what the lexer reads where the token starts, and it goes on behind the
token. -/
theorem Ordered.exists_significant (hordered : (ofSource source).Ordered)
    (hsolid : ((ofSource source).get index).kind.IsSolid) :
    ∃ c cursor, cursor.IsIn source.toList ∧ cursor.peek? = some c ∧
      cursor.Reaches ((Lexer.ofSource source).after (index + 1)).cursor ∧
      (ofSource source).get index = ⟨((ofSource source).get index).kind,
        ⟨cursor.offset, ((Lexer.ofSource source).after (index + 1)).cursor.offset⟩,
        String.ofList (cursor.textTo ((Lexer.ofSource source).after (index + 1)).cursor)⟩ ∧
      Lexer.significant c cursor = .ok (((ofSource source).get index).kind,
        ((Lexer.ofSource source).after (index + 1)).cursor) := by
  have hclean := failure_eq_none hordered.ne_invalid
  have hreading := reading_after hclean index
  rw [get_ofSource_eq_next] at hsolid ⊢
  rw [Lexer.after_succ]
  obtain ⟨_, -, hdedent⟩ | ⟨-, hfinds⟩ := hreading.next_finds (next_ne_invalid hclean index)
  · rw [hdedent] at hsolid
    exact absurd hsolid.1 Bool.false_ne_true
  obtain ⟨c, cursor, ⟨passed, hpasses⟩, hpeek, hstop, htoken, hread⟩ :=
    hfinds.exists_significant hsolid
  exact ⟨c, cursor, hreading.isIn.passes hpasses, hpeek, hstop, htoken, hread⟩

/-- The lexer goes on where a token with text stops. -/
theorem Ordered.stop_eq (hordered : (ofSource source).Ordered)
    (hsolid : ((ofSource source).get index).kind.IsSolid) :
    ((ofSource source).get index).span.stop =
      ((Lexer.ofSource source).after (index + 1)).cursor.offset := by
  obtain ⟨_, cursor, -, -, -, htoken, -⟩ := hordered.exists_significant hsolid
  exact congrArg (fun token : Token => token.span.stop) htoken

/-- Behind a token that is text and no bracket, the lexer stands within the line. -/
theorem Ordered.amidLine (hordered : (ofSource source).Ordered)
    (hplain : ((ofSource source).get index).kind.IsPlain) :
    ((Lexer.ofSource source).after (index + 1)).AmidLine := by
  have hclean := failure_eq_none hordered.ne_invalid
  rw [get_ofSource_eq_next] at hplain
  rw [Lexer.after_succ]
  obtain ⟨_, -, hdedent⟩ | ⟨hpending, hfinds⟩ :=
    (reading_after hclean index).next_finds (next_ne_invalid hclean index)
  · rw [hdedent] at hplain
    exact absurd hplain.1.1 Bool.false_ne_true
  · exact hfinds.amidLine hpending hplain

/-- The token at an index is one of those that are spelled around it. -/
theorem Spells.exists_mem {tokens : Tokens} {start stop : Nat} {lexemes : List Lexeme}
    (hspells : tokens.Spells start stop lexemes) (hstart : start ≤ index) (hstop : index < stop) :
    ∃ lexeme ∈ lexemes, (tokens.get index).kind = lexeme.kind := by
  induction lexemes generalizing start with
  | nil =>
    obtain rfl : start = stop := hspells
    omega
  | cons lexeme lexemes ih =>
    obtain ⟨-, hkind, -, hrest⟩ := hspells
    rcases Nat.eq_or_lt_of_le hstart with rfl | hlt
    · exact ⟨lexeme, List.mem_cons_self, hkind⟩
    · obtain ⟨other, hother, hindex⟩ := ih hrest hlt
      exact ⟨other, List.mem_cons_of_mem _ hother, hindex⟩

/-- Where the text of a token with text is known to start with a written token, the token is
that one. -/
theorem Ordered.lexeme_of_slice {lexeme : Lexeme} {text : List Char} {stop : Nat}
    (hordered : (ofSource source).Ordered)
    (hsolid : ((ofSource source).get index).kind.IsSolid)
    (hslice : Text.slice source.toList ((ofSource source).get index).span.start stop =
      lexeme.text.toList ++ text) (hstands : ∀ behind, lexeme.StandsBefore (text ++ behind)) :
    (index < (ofSource source).tokens.size ∧ ((ofSource source).get index).kind = lexeme.kind ∧
        ((ofSource source).get index).text = lexeme.text) ∧
      ∃ behind offset, offset + Text.byteLength text = stop ∧
        ((Lexer.ofSource source).after (index + 1)).cursor = ⟨text ++ behind, offset⟩ := by
  obtain ⟨c, cursor, hin, hpeek, hreaches, htoken, hread⟩ := hordered.exists_significant hsolid
  have hspan := congrArg (fun token : Token => token.span.start) htoken
  rw [show _ = cursor.offset from hspan] at hslice
  obtain ⟨first, others, htext, -, -⟩ := hstands []
  obtain ⟨behind, hpasses⟩ := hin.passes_of_slice hslice (by simp [htext])
  obtain ⟨first, others, htext, -, hknown⟩ := hstands behind
  have hcursor : cursor = ⟨lexeme.text.toList ++ (text ++ behind), cursor.offset⟩ := by
    rw [← List.append_assoc, ← hpasses.rest_eq]
  obtain rfl : first = c := by
    rw [hcursor, htext] at hpeek
    exact Option.some.inj hpeek
  have hknown := hknown cursor.offset
  rw [← hcursor, hread] at hknown
  obtain ⟨hkind, hbehind⟩ := Prod.mk.inj (Except.ok.inj hknown)
  have hpassed : cursor.Passes lexeme.text.toList
      ((Lexer.ofSource source).after (index + 1)).cursor := by
    rw [hbehind]
    exact ⟨congrArg Cursor.rest hcursor, rfl⟩
  have htokenText := congrArg Token.text htoken
  rw [hpassed.textTo_eq, String.ofList_toList] at htokenText
  refine ⟨⟨Nat.lt_of_not_le fun hle => hsolid.2.1 ?_, hkind, htokenText⟩, behind, _, ?_, hbehind⟩
  · exact (kind_ofSource_eq_endOfInput_iff source index).mpr (Nat.le_succ_of_le hle)
  · have hstop : stop = cursor.offset + Text.byteLength (lexeme.text.toList ++ text) :=
      hpasses.offset_eq
    rw [hstop, Text.byteLength_append, Nat.add_assoc]

/-- The last token of a text is read in front of whatever follows it, as it stops where the
text does. -/
theorem Ordered.standsBefore_last {base : Lexer} {lexeme : Lexeme} {gap behind : List Char}
    {inParens : Bool} {offset last : Nat} (hordered : (ofSource source).Ordered)
    (hbase : base.AmidLine) (hin : lexeme.InImport)
    (hstands : StandsAt source base inParens ⟨gap ++ (lexeme.text.toList ++ behind), offset⟩ index)
    (hgap : IsGap inParens gap) (hlast : ((ofSource source).get last).kind.IsSolid)
    (hstop : offset + Text.byteLength (gap ++ lexeme.text.toList) =
      ((ofSource source).get last).span.stop) : lexeme.StandsBefore behind := by
  have hline := hin.standsBefore_lineFeed
  obtain ⟨first, others, htext, hstart, -⟩ := hline
  have hvalid := next_ne_invalid (failure_eq_none hordered.ne_invalid) index
  have hmoved := hstands.moved
  rw [htext, List.cons_append] at hmoved
  have hread := hbase.read_eq hmoved hstands.reading hgap hstart
  have hnext : ((Lexer.ofSource source).after index).next =
      ((ofSource source).get index, ((Lexer.ofSource source).after index).next.2) := by
    rw [get_ofSource_eq_next]
  rw [hstands.reading.read_eq hvalid, hnext] at hread
  obtain ⟨hsolid, -, -, htoken, hsignificant, -⟩ := Lexer.readSignificant_ok rfl hread.symm
  have hspan : ((ofSource source).get index).span = ⟨offset + Text.byteLength gap, _⟩ :=
    congrArg Token.span htoken
  have hpos : 0 < Text.byteLength lexeme.text.toList := Text.byteLength_pos (by simp [htext])
  rw [Text.byteLength_append, ← Nat.add_assoc] at hstop
  have hindex : index ≤ last := by
    refine Nat.le_of_not_lt fun hlt => ?_
    have hbehind := hordered.stop_le last index hlt hlast hsolid
    rw [hspan, ← hstop] at hbehind
    dsimp only at hbehind
    omega
  have hle := hordered.stop_le_stop hindex hsolid hlast
  rw [hspan, ← hstop] at hle
  have hread : Lexer.significant first ⟨lexeme.text.toList ++ behind, offset + Text.byteLength gap⟩ =
      .ok (((ofSource source).get index).kind,
        ((Lexer.ofSource source).after index).next.2.cursor) := by
    rw [htext]
    exact hsignificant
  exact hin.standsBefore_lineFeed.of_le (by rw [htext]; rfl) hread hle

/-- What is written behind the keyword of an import is read there, if the text of some tokens
says so. -/
theorem Ordered.spells_of_slice {written : RelativeImport} {text : List Char} {start last : Nat}
    (hordered : (ofSource source).Ordered)
    (hspaced : Spaced false (.fixed .keywordFrom) written.lexemes text)
    (hstart : ((ofSource source).get start).kind.IsSolid)
    (hlast : ((ofSource source).get last).kind.IsSolid)
    (hslice : Text.slice source.toList ((ofSource source).get start).span.start
      ((ofSource source).get last).span.stop = "from".toList ++ text) :
    ∃ grouped, Grouped written.lexemes grouped ∧
      (ofSource source).Spells start (last + 1) (.fixed .keywordFrom :: grouped) := by
  obtain ⟨hget, behind, offset, hstop, hcursor⟩ :=
    hordered.lexeme_of_slice hstart hslice (RelativeImport.standsBefore_from hspaced)
  have hbase : ((Lexer.ofSource source).after (start + 1)).AmidLine :=
    hordered.amidLine (by rw [hget.2.1]; decide)
  have hreading := reading_after (failure_eq_none hordered.ne_invalid) (start + 1)
  have hstands : StandsAt source ((Lexer.ofSource source).after (start + 1)) false
      ⟨text ++ behind, offset⟩ (start + 1) :=
    ⟨hcursor ▸ .refl _, hreading⟩
  obtain ⟨grouped, hgrouped, hspells, hend⟩ :=
    spells_of_spaced hbase hspaced hstands hstop written.inImport fun lexeme hlexeme =>
      ⟨written.names.kind_ne_dot lexeme (RelativeImport.mem_names_of_getLast? hlexeme),
        fun hstands hgap hoffset => hordered.standsBefore_last hbase
          (written.inImport lexeme (List.mem_of_getLast? hlexeme)) hstands hgap hlast hoffset⟩
  -- The last token that is read stops where the last token of the text does, so it is that one.
  obtain ⟨count, hcount⟩ : ∃ count, grouped.length = count + 1 :=
    Nat.exists_eq_succ_of_ne_zero (mt List.length_eq_zero_iff.mp (hgrouped.ne_nil written.lexemes_ne_nil))
  rw [hcount] at hspells hend
  have hsolid : ((ofSource source).get (start + 1 + count)).kind.IsSolid := by
    obtain ⟨lexeme, hlexeme, hkind⟩ := hspells.exists_mem (Nat.le_add_right _ _) (Nat.lt_succ_self _)
    rw [hkind]
    exact hgrouped.forall_mem (fun lexeme hlexeme => isSolid_of_inImport (written.inImport _ hlexeme))
      (by decide) lexeme hlexeme
  have hstopEq : ((ofSource source).get (start + 1 + count)).span.stop =
      ((ofSource source).get last).span.stop := by
    obtain ⟨_, hmoved, -⟩ := hend.moved
    rw [hordered.stop_eq hsolid]
    exact congrArg (fun lexer : Lexer => lexer.cursor.offset) hmoved
  obtain rfl := hordered.eq_of_stop_eq hsolid hlast hstopEq
  exact ⟨grouped, hgrouped, hget.1, hget.2.1, hget.2.2, hspells⟩

end Tokens

end PythonOutline
