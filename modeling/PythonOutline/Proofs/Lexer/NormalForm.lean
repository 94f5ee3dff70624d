import PythonOutline.Proofs.Lexer.Sequence

/-! # The normal form of a source

Tokens are rendered with one line of text for each logical line: a space for each open level, the
texts of the tokens with single spaces between them, and a line feed. Reading the rendered text
gives the tokens back (`Tokens.ofSource_normalForm`). At the start of a line the spaces say how many
levels are open, so the lexer opens or closes as many as the tokens tell; within a line a token ends
where its text does, as a space or a line feed follows. -/

namespace PythonOutline

/-! ## Rendering -/

/-- The text of tokens from a place on. -/
def renderFrom (place : Layout) : List Token → List Char
  | [] => []
  | token :: tokens =>
    match token.kind with
    | .indent => renderFrom ⟨place.inLine, place.depth + 1⟩ tokens
    | .dedent => renderFrom ⟨place.inLine, place.depth - 1⟩ tokens
    | .newline => '\n' :: renderFrom ⟨false, place.depth⟩ tokens
    | .endOfInput => []
    | _ =>
      (if place.inLine then [' '] else List.replicate place.depth ' ') ++
        (token.text.toList ++ renderFrom ⟨true, place.depth⟩ tokens)

variable {place : Layout} {token : Token} {tokens opened opened' : List Token} {depth : Nat}

private theorem renderFrom_indent (hkind : token.kind = .indent) :
    renderFrom place (token :: tokens) = renderFrom ⟨place.inLine, place.depth + 1⟩ tokens := by
  simp [renderFrom, hkind]

private theorem renderFrom_dedent (hkind : token.kind = .dedent) :
    renderFrom place (token :: tokens) = renderFrom ⟨place.inLine, place.depth - 1⟩ tokens := by
  simp [renderFrom, hkind]

private theorem renderFrom_newline (hkind : token.kind = .newline) :
    renderFrom place (token :: tokens) = '\n' :: renderFrom ⟨false, place.depth⟩ tokens := by
  simp [renderFrom, hkind]

private theorem renderFrom_endOfInput (hkind : token.kind = .endOfInput) :
    renderFrom place (token :: tokens) = [] := by
  simp [renderFrom, hkind]

private theorem renderFrom_isSolid (hsolid : token.kind.IsSolid) :
    renderFrom place (token :: tokens) =
      (if place.inLine then [' '] else List.replicate place.depth ' ') ++
        (token.text.toList ++ renderFrom ⟨true, place.depth⟩ tokens) := by
  rw [renderFrom]
  split
  · exact absurd ‹_› (hsolid.ne (by decide))
  · exact absurd ‹_› (hsolid.ne (by decide))
  · exact absurd ‹_› (hsolid.ne (by decide))
  · exact absurd ‹_› (hsolid.ne (by decide))
  · rfl

/-- A token that is read again: one of the same kind and, if it has a text, with the same text. -/
def Token.Again (token token' : Token) : Prop :=
  token'.kind = token.kind ∧ (token.kind.IsSolid → token'.text = token.text)

private theorem Token.Again.of_not_isSolid {token' : Token} (hkind : token'.kind = token.kind)
    (hsolid : ¬token.kind.IsSolid) : token.Again token' :=
  ⟨hkind, fun htext => absurd htext hsolid⟩

/-- No token of a sequence is invalid. -/
theorem TokenSequence.ne_invalid (hsequence : TokenSequence place opened tokens) :
    ∀ token ∈ tokens, token.kind ≠ .invalid := by
  induction hsequence with
  | last hkind =>
    refine List.forall_mem_singleton.mpr fun hinvalid => ?_
    cases hkind.symm.trans hinvalid
  | cons hstep _ _ _ _ _ ih =>
    refine List.forall_mem_cons.mpr ⟨fun hinvalid => ?_, ih⟩
    rw [hinvalid] at hstep
    cases hstep with
    | text hsolid => exact absurd hsolid (by decide)

/-! ## The start of a line -/

/-- Dedents, as many as a number tells, in front of a token of some kind. -/
inductive Dedents (last : TokenKind → Prop) : Nat → List Token → Prop where
  | last {token : Token} {tokens : List Token} (hlast : last token.kind) :
      Dedents last 0 (token :: tokens)
  | dedent {due : Nat} {token : Token} {tokens : List Token} (hkind : token.kind = .dedent)
      (hrest : Dedents last due tokens) : Dedents last (due + 1) (token :: tokens)

/-- Dedents that are due come in front of any text. -/
theorem Dedents.not_isSolid {due : Nat} (hdue : Dedents (· = .endOfInput) due (token :: tokens)) :
    ¬token.kind.IsSolid := by
  cases hdue with
  | last hkind | dedent hkind =>
    rw [hkind]
    decide

/-- Where no level is opened, a line starts with dedents and text, which stands behind a space for
each level that stays open, or dedents close all levels at the end of the input. -/
theorem TokenSequence.lineStart (hsequence : TokenSequence ⟨false, depth⟩ opened tokens)
    (hindent : ∀ token ∈ tokens.head?, token.kind ≠ .indent) :
    (∃ due stays first rest, depth = stays + due ∧ Dedents TokenKind.IsSolid due tokens ∧
        StartsLexeme first ∧
        renderFrom ⟨false, depth⟩ tokens = List.replicate stays ' ' ++ first :: rest) ∨
      Dedents (· = .endOfInput) depth tokens ∧ renderFrom ⟨false, depth⟩ tokens = [] := by
  generalize hplace : (⟨false, depth⟩ : Layout) = place at hsequence
  induction hsequence generalizing depth with
  | last hkind =>
    cases hplace
    exact .inr ⟨.last hkind, renderFrom_endOfInput hkind⟩
  | @cons _ _ opened opened' tokens token hstep _ hlexeme _ hdedent hrest ih =>
    subst hplace
    generalize hkind : token.kind = kind at hstep
    cases hstep with
    | indent => exact absurd hkind (hindent token rfl)
    | dedent =>
      rw [renderFrom_dedent hkind]
      rcases ih (hdedent hkind) rfl with ⟨due, stays, first, rest, rfl, hdue, hfirst, hrender⟩ |
        ⟨hdue, hrender⟩
      · exact .inl ⟨due + 1, stays, first, rest, rfl, .dedent hkind hdue, hfirst, hrender⟩
      · exact .inr ⟨.dedent hkind hdue, hrender⟩
    | text hsolid =>
      rw [← hkind] at hsolid
      obtain ⟨first, others, htext, hfirst, -⟩ := hlexeme hsolid
      refine .inl ⟨0, depth, first, others ++ renderFrom ⟨true, depth⟩ tokens, rfl, .last hsolid,
        hfirst, ?_⟩
      rw [renderFrom_isSolid hsolid, htext]
      rfl

/-- A level is opened as long as there may be one more, in front of text that stands behind a space
for each level. -/
theorem TokenSequence.opens (hsequence : TokenSequence ⟨false, depth⟩ opened (token :: tokens))
    (hindent : token.kind = .indent) :
    depth + 1 < maxIndentLevels ∧ Dedents TokenKind.IsSolid 0 tokens ∧ ∃ first rest,
      StartsLexeme first ∧
        renderFrom ⟨false, depth + 1⟩ tokens = List.replicate (depth + 1) ' ' ++ first :: rest := by
  cases hsequence with
  | last hkind => cases hindent.symm.trans hkind
  | cons hstep _ _ hsolid _ hrest =>
    rw [hindent] at hstep
    have hsolid := hsolid hindent
    cases hstep with
    | text hkind => exact absurd hkind (by decide)
    | indent hroom =>
      refine ⟨hroom, ?_⟩
      rcases hrest.lineStart fun next hnext => (hsolid next hnext).ne (by decide) with
        ⟨due, stays, first, rest, hdepth, hdue, hfirst, hrender⟩ | ⟨hdue, -⟩
      · cases hdue with
        | last hlast =>
          obtain rfl : depth + 1 = stays := hdepth
          exact ⟨.last hlast, first, rest, hfirst, hrender⟩
        | dedent hdedent => exact absurd hdedent ((hsolid _ rfl).ne (by decide))
      · cases hdue with
        | dedent hdedent => exact absurd hdedent ((hsolid _ rfl).ne (by decide))

/-- A rendered text starts with no byte order mark. -/
theorem TokenSequence.head?_ne_byteOrderMark (hsequence : TokenSequence ⟨false, depth⟩ opened tokens) :
    ∀ c ∈ (renderFrom ⟨false, depth⟩ tokens).head?, c ≠ Lexer.byteOrderMark := by
  have hspaces : ∀ {first : Char} {rest : List Char} {count : Nat}, StartsLexeme first →
      ∀ c ∈ (List.replicate count ' ' ++ first :: rest).head?, c ≠ Lexer.byteOrderMark := by
    intro first rest count hfirst c hc
    cases count with
    | zero =>
      cases hc
      exact hfirst.ne_byteOrderMark
    | succ count =>
      cases hc
      decide
  cases tokens with
  | nil => exact nofun
  | cons token tokens =>
    by_cases hindent : token.kind = .indent
    · obtain ⟨-, -, first, rest, hfirst, hrender⟩ := hsequence.opens hindent
      rw [renderFrom_indent hindent, hrender]
      exact hspaces hfirst
    · rcases hsequence.lineStart (by simpa using hindent) with
        ⟨_, _, first, rest, -, -, hfirst, hrender⟩ | ⟨-, hrender⟩
      · rw [hrender]
        exact hspaces hfirst
      · rw [hrender]
        exact nofun

/-- Within a line a token is followed by a space or by a line feed. -/
theorem TokenSequence.endsLexeme (hsequence : TokenSequence ⟨true, depth⟩ opened tokens) :
    ∃ c tail, renderFrom ⟨true, depth⟩ tokens = c :: tail ∧ EndsLexeme c := by
  cases hsequence with
  | @cons _ _ _ _ tokens token hstep =>
    generalize hkind : token.kind = kind at hstep
    cases hstep with
    | text hsolid =>
      rw [← hkind] at hsolid
      exact ⟨' ', _, renderFrom_isSolid hsolid, .inl rfl⟩
    | newline => exact ⟨'\n', _, renderFrom_newline hkind, .inr rfl⟩

/-! ## Brackets -/

private theorem TokenKind.isSignificant_of_isOpenBracket {kind : TokenKind}
    (hopen : kind.isOpenBracket) :
    kind.isSignificant := by
  unfold isOpenBracket at hopen
  split at hopen <;> first | rfl | cases hopen

private theorem TokenKind.isCloseBracket_of_closing {kind kind' : TokenKind}
    (hmatch : kind.closingBracket? = some kind') :
    ¬kind'.isOpenBracket ∧ kind'.isCloseBracket ∧ kind'.isSignificant := by
  unfold closingBracket? at hmatch
  split at hmatch <;> cases hmatch <;> decide

/-- Line structure stands outside of brackets, and changes none. -/
theorem BracketStep.opened_of_structural (hstep : BracketStep opened token opened')
    (hkind : ¬token.kind.isSignificant) : opened = [] ∧ opened' = [] := by
  cases hstep with
  | opening hopen => exact absurd (TokenKind.isSignificant_of_isOpenBracket hopen) hkind
  | closing hmatch => exact absurd (TokenKind.isCloseBracket_of_closing hmatch).2.2 hkind
  | text hsolid => exact absurd hsolid.1 hkind
  | structural => exact ⟨rfl, rfl⟩

namespace Lexer

/-- Brackets of the kinds of some opening tokens are changed as these are. -/
theorem trackBrackets_of_step {brackets : List (TokenKind × Span)}
    (hsolid : token.kind.IsSolid) (hstep : BracketStep opened token opened')
    (hbrackets : brackets.map Prod.fst = opened.map Token.kind) (span : Span) (stop : Cursor) :
    ∃ brackets', trackBrackets brackets token.kind span stop = .ok brackets' ∧
      brackets'.map Prod.fst = opened'.map Token.kind := by
  unfold trackBrackets
  cases hstep with
  | opening hopen =>
    refine ⟨(token.kind, span) :: brackets, ?_, by rw [List.map_cons, hbrackets, List.map_cons]⟩
    rw [if_pos hopen]
  | @closing _ opener _ hmatch =>
    obtain ⟨bracket, outer, rfl, hkind, houter⟩ := List.map_eq_cons_iff.mp hbrackets
    obtain ⟨hopen, hclose, -⟩ := TokenKind.isCloseBracket_of_closing hmatch
    refine ⟨outer, ?_, houter⟩
    rw [if_neg hopen, if_pos hclose]
    obtain ⟨kind, place⟩ := bracket
    dsimp only at hkind ⊢
    rw [hkind, if_pos hmatch]
  | text _ hopen hclose =>
    refine ⟨brackets, ?_, hbrackets⟩
    rw [if_neg hopen, if_neg hclose]
  | structural hkind => exact absurd hsolid.1 hkind

end Lexer

/-! ## Levels of spaces -/

/-- Levels of indentation with a space for each of them, innermost first. -/
def levelsTo : Nat → List IndentWidth
  | 0 => []
  | depth + 1 => ⟨depth + 1, depth + 1⟩ :: levelsTo depth

private theorem length_levelsTo (depth : Nat) : (levelsTo depth).length = depth := by
  induction depth with
  | zero => rfl
  | succ depth ih => rw [levelsTo, List.length_cons, ih]

private theorem headD_levelsTo (depth : Nat) : (levelsTo depth).headD .zero = ⟨depth, depth⟩ := by
  cases depth <;> rfl

private theorem dropWhile_levelsTo (depth due : Nat) :
    (levelsTo (depth + due)).dropWhile (fun level => depth < level.tab8) = levelsTo depth := by
  induction due with
  | zero =>
    cases depth with
    | zero => rfl
    | succ depth => simp [levelsTo]
  | succ due ih =>
    have hlt : depth < depth + due + 1 := by omega
    rw [← Nat.add_assoc, levelsTo, List.dropWhile_cons, if_pos (decide_eq_true hlt), ih]

namespace IndentChange

private theorem of_levelsTo_same (depth : Nat) :
    IndentChange.of (levelsTo depth) ⟨depth, depth⟩ = .ok .same := by
  rw [IndentChange.of, headD_levelsTo]
  simp

private theorem of_levelsTo_deeper (hroom : depth + 1 < maxIndentLevels) :
    IndentChange.of (levelsTo depth) ⟨depth + 1, depth + 1⟩ = .ok (.deeper (levelsTo (depth + 1))) := by
  rw [IndentChange.of, headD_levelsTo, length_levelsTo]
  simp [Nat.not_le.mpr hroom, levelsTo]

private theorem of_levelsTo_shallower (depth due : Nat) :
    IndentChange.of (levelsTo (depth + (due + 1))) ⟨depth, depth⟩ =
      .ok (.shallower (levelsTo depth) due) := by
  have hne : ¬depth = depth + (due + 1) := by omega
  have hlt : ¬depth + (due + 1) < depth := by omega
  have hextra : depth + (due + 1) - depth - 1 = due := by omega
  rw [IndentChange.of, headD_levelsTo]
  dsimp only
  rw [if_neg hne, if_neg hlt, dropWhile_levelsTo, headD_levelsTo, length_levelsTo, length_levelsTo,
    hextra]
  simp

end IndentChange

/-- Spaces in front of text count once each. -/
theorem LineStart.findFrom_spaces {c : Char} {cs : List Char} (hc : StartsLexeme c) (start : Nat)
    (width : IndentWidth) (offset depth : Nat) :
    findFrom false start width (List.replicate depth ' ' ++ c :: cs) offset =
      .line start ⟨width.tab8 + depth, width.tab1 + depth⟩ ⟨c :: cs, offset + depth⟩ := by
  induction depth generalizing width offset with
  | zero =>
    rw [List.replicate_zero, List.nil_append, findFrom]
    simp [hc.ne_lineFeed, hc.ne_carriageReturn, hc.ne_blanks, hc.ne_comment]
  | succ depth ih =>
    have hline : ¬(' ' = '\n' ∨ ' ' = '\r') := by decide
    rw [List.replicate_succ, List.cons_append, findFrom, if_neg hline, if_neg Bool.false_ne_true,
      if_pos rfl, ih, IndentWidth.addSpace]
    simp only [Nat.add_assoc, Nat.add_comm 1]

namespace Lexer

variable {source : List Char} {lexer entered : Lexer}

/-! ## Calls of a lexer in front of rendered text -/

/-- At the start of a line the lexer compares the number of spaces with the levels. -/
theorem readLineStart_spaces {c : Char} {cs : List Char} {change : IndentChange}
    (hline : lexer.atLineStart = true) (hbrackets : lexer.brackets = []) (hc : StartsLexeme c)
    (hrest : lexer.cursor.rest = List.replicate depth ' ' ++ c :: cs)
    (hchange : IndentChange.of lexer.levels ⟨depth, depth⟩ = .ok change) :
    ∃ offset, lexer.readLineStart = .ok
      (match change with
      | .same => (none, { lexer with cursor := ⟨c :: cs, offset⟩, atLineStart := false })
      | .deeper levels =>
        (some (.empty .indent offset),
          { lexer with cursor := ⟨c :: cs, offset⟩, atLineStart := false, levels })
      | .shallower levels extra =>
        (some (.empty .dedent offset),
          { lexer with
            cursor := ⟨c :: cs, offset⟩, atLineStart := false, levels, pendingDedents := extra })) := by
  refine ⟨lexer.cursor.offset + depth, ?_⟩
  have hfind : LineStart.find lexer.cursor = .line lexer.cursor.offset ⟨depth, depth⟩
      ⟨c :: cs, lexer.cursor.offset + depth⟩ := by
    rw [LineStart.find, hrest, LineStart.findFrom_spaces hc]
    simp [IndentWidth.zero]
  rw [readLineStart, if_pos (by simp [hline, hbrackets]), readIndentation, hfind]
  dsimp only
  rw [hchange]
  cases change <;> rfl

/-- Within a line the lexer reads a token from its text, behind a space or directly. -/
theorem Reading.next_text {gap tail : List Char} {c : Char} (hreading : lexer.Reading source)
    (hpending : lexer.pendingDedents = 0) (hstart : lexer.readLineStart = .ok (none, entered))
    (hrest : entered.cursor.rest = gap ++ (token.text.toList ++ c :: tail))
    (hgap : gap = [] ∨ gap = [' ']) (hend : EndsLexeme c) (hlexeme : token.IsLexeme)
    (hsolid : token.kind.IsSolid)
    (hbrackets : entered.brackets.map Prod.fst = opened.map Token.kind)
    (hstep : BracketStep opened token opened') :
    ∃ span offset brackets,
      lexer.next = (⟨token.kind, span, token.text⟩, { entered with
        cursor := ⟨c :: tail, offset⟩, brackets, lineHasTokens := true }) ∧
      brackets.map Prod.fst = opened'.map Token.kind := by
  obtain ⟨first, others, htext, hfirst, hread⟩ := hlexeme
  have hskip : skipTrivia (!entered.brackets.isEmpty) entered.cursor =
      .ok ⟨token.text.toList ++ c :: tail, entered.cursor.offset + gap.length⟩ := by
    have hgapped := @skipTrivia_gap entered.cursor.offset (others ++ c :: tail)
      (!entered.brackets.isEmpty) gap first hgap hfirst
    rw [← List.cons_append, ← htext, ← hrest] at hgapped
    exact hgapped
  generalize entered.cursor.offset + gap.length = start at hskip
  have hread := hread c tail start hend
  have hpeek : (⟨token.text.toList ++ c :: tail, start⟩ : Cursor).peek? = some first := by
    rw [htext]
    rfl
  have hbreak : (⟨token.text.toList ++ c :: tail, start⟩ : Cursor).skipLineBreak? = none := by
    simp [htext, Cursor.skipLineBreak?, hfirst.ne_lineFeed, hfirst.ne_carriageReturn]
  obtain ⟨brackets, htrack, hkept⟩ := trackBrackets_of_step hsolid hstep hbrackets
    ⟨start, start + Text.byteLength token.text.toList⟩
    ⟨c :: tail, start + Text.byteLength token.text.toList⟩
  refine ⟨⟨start, start + Text.byteLength token.text.toList⟩,
    start + Text.byteLength token.text.toList, brackets,
    hreading.next_of_finds hpending (.token hstart ?_), hkept⟩
  refine readWithin_of_significant hskip hpeek hbreak ?_
  refine bind_eq_ok_iff.mpr ⟨_, hread, bind_eq_ok_iff.mpr ⟨_, htrack, ?_⟩⟩
  rw [Cursor.Passes.textTo_eq ⟨rfl, rfl⟩, String.ofList_toList]
  rfl

/-- A lexer in front of the rendered text of tokens from a place on, at one of the points where it
answers a token. -/
inductive Stands (lexer : Lexer) : Layout → List Token → Prop where
  /-- At the start of a line. -/
  | line {depth : Nat} {tokens : List Token} (hline : lexer.atLineStart = true)
      (hpending : lexer.pendingDedents = 0) (hlevels : lexer.levels = levelsTo depth)
      (hrest : lexer.cursor.rest = renderFrom ⟨false, depth⟩ tokens) :
      Stands lexer ⟨false, depth⟩ tokens
  /-- Behind the spaces of a line, where some dedents are due. -/
  | text {depth stays due : Nat} {tokens : List Token} (hline : lexer.atLineStart = false)
      (hpending : lexer.pendingDedents = due) (hdepth : depth = stays + due)
      (hlevels : lexer.levels = levelsTo stays) (hdue : Dedents TokenKind.IsSolid due tokens)
      (hrest : List.replicate stays ' ' ++ lexer.cursor.rest = renderFrom ⟨false, depth⟩ tokens) :
      Stands lexer ⟨false, depth⟩ tokens
  /-- At the end of the text. -/
  | ended {depth : Nat} {tokens : List Token} (hline : lexer.atLineStart = false)
      (hpending : lexer.pendingDedents = 0) (hlevels : lexer.levels = levelsTo depth)
      (hdue : Dedents (· = .endOfInput) depth tokens) (hrest : lexer.cursor.rest = []) :
      Stands lexer ⟨false, depth⟩ tokens
  /-- Behind a token of a line. -/
  | within {depth : Nat} {tokens : List Token} (hline : lexer.atLineStart = false)
      (hpending : lexer.pendingDedents = 0) (hlevels : lexer.levels = levelsTo depth)
      (hrest : lexer.cursor.rest = renderFrom ⟨true, depth⟩ tokens) :
      Stands lexer ⟨true, depth⟩ tokens

/-- A lexer that reads the rendered text of tokens from a place on, behind some opening brackets. -/
structure Renders (place : Layout) (opened tokens : List Token) (lexer : Lexer) : Prop where
  lineHasTokens_eq : lexer.lineHasTokens = place.inLine
  brackets_eq : lexer.brackets.map Prod.fst = opened.map Token.kind
  opened_of_line : place.inLine = false → opened = []
  stands : lexer.Stands place tokens

/-- A lexer for which no change of level is due enters a line, and reads rendered text
from there. -/
structure Enters (lexer entered : Lexer) (place : Layout) (opened tokens : List Token) : Prop where
  pendingDedents_eq : lexer.pendingDedents = 0
  readLineStart_eq : lexer.readLineStart = .ok (none, entered)
  renders : entered.Renders place opened tokens
  entered_pendingDedents_eq : entered.pendingDedents = 0
  entered_atLineStart_eq : entered.atLineStart = false

/-- A lexer answers the change of level that comes first, and reads rendered text behind it. -/
def Changes (lexer : Lexer) (place : Layout) (token : Token) (tokens : List Token) : Prop :=
  token.kind.ChangesLevel ∧ lexer.next.1.kind = token.kind ∧
    ∀ after, LayoutStep place token.kind after → lexer.next.2.Renders after [] tokens

/-- A dedent closes the innermost level. -/
theorem Changes.closes {behind : Lexer} {offset : Nat} (hkind : token.kind = .dedent)
    (hnext : lexer.next = (.empty .dedent offset, behind))
    (hbehind : behind.Renders ⟨false, depth⟩ [] tokens) :
    lexer.Changes ⟨false, depth + 1⟩ token tokens := by
  rw [Changes, hnext, hkind]
  refine ⟨.inr rfl, rfl, fun after hstep => ?_⟩
  cases hstep with
  | dedent => exact hbehind
  | text hsolid => exact absurd hsolid (by decide)

/-- An indent opens a level. -/
theorem Changes.opens {behind : Lexer} {offset : Nat} (hkind : token.kind = .indent)
    (hnext : lexer.next = (.empty .indent offset, behind))
    (hbehind : behind.Renders ⟨false, depth + 1⟩ [] tokens) :
    lexer.Changes ⟨false, depth⟩ token tokens := by
  rw [Changes, hnext, hkind]
  refine ⟨.inl rfl, rfl, fun after hstep => ?_⟩
  cases hstep with
  | indent => exact hbehind
  | text hsolid => exact absurd hsolid (by decide)

private theorem Renders.enters (hrenders : lexer.Renders place opened tokens)
    (hline : lexer.atLineStart = false) (hpending : lexer.pendingDedents = 0) :
    lexer.Enters lexer place opened tokens :=
  ⟨hpending, by simp [readLineStart, hline], hrenders, hpending, hline⟩

/-- At the start of a rendered line levels are opened or closed, or the line is entered. -/
theorem Renders.next_line (hrenders : lexer.Renders ⟨false, depth⟩ opened (token :: tokens))
    (hreading : lexer.Reading source)
    (hsequence : TokenSequence ⟨false, depth⟩ opened (token :: tokens))
    (hstart : lexer.atLineStart = true) (hpending : lexer.pendingDedents = 0)
    (hlevels : lexer.levels = levelsTo depth)
    (hrest : lexer.cursor.rest = renderFrom ⟨false, depth⟩ (token :: tokens)) :
    (∃ entered, lexer.Enters entered ⟨false, depth⟩ opened (token :: tokens)) ∨
      lexer.Changes ⟨false, depth⟩ token tokens := by
  obtain ⟨hline, hbrackets, hopened, -⟩ := hrenders
  obtain rfl := hopened rfl
  have hempty : lexer.brackets = [] := List.map_eq_nil_iff.mp hbrackets
  by_cases hindent : token.kind = .indent
  · obtain ⟨hroom, hdue, first, rest, hfirst, hrender⟩ := hsequence.opens hindent
    rw [renderFrom_indent hindent, hrender] at hrest
    obtain ⟨offset, hstart⟩ := readLineStart_spaces hstart hempty hfirst hrest
      (hlevels ▸ IndentChange.of_levelsTo_deeper hroom)
    exact .inr (.opens hindent (hreading.next_of_finds hpending (.level hstart))
      ⟨hline, hbrackets, hopened, .text rfl hpending rfl rfl hdue hrender.symm⟩)
  rcases hsequence.lineStart (by simpa using hindent) with
    ⟨due, stays, first, rest, rfl, hdue, hfirst, hrender⟩ | ⟨hdue, hrender⟩
  · rw [hrender] at hrest
    cases hdue with
    | last hsolid =>
      rw [Nat.add_zero] at hlevels hrender
      obtain ⟨offset, hstart⟩ := readLineStart_spaces hstart hempty hfirst hrest
        (hlevels ▸ IndentChange.of_levelsTo_same stays)
      exact .inl ⟨_, hpending, hstart, ⟨hline, hbrackets, hopened,
        .text rfl hpending rfl hlevels (.last hsolid) hrender.symm⟩, hpending, rfl⟩
    | dedent hkind hdue =>
      obtain ⟨offset, hstart⟩ := readLineStart_spaces hstart hempty hfirst hrest
        (hlevels ▸ IndentChange.of_levelsTo_shallower stays _)
      rw [renderFrom_dedent hkind] at hrender
      exact .inr (.closes hkind (hreading.next_of_finds hpending (.level hstart))
        ⟨hline, hbrackets, hopened, .text rfl rfl rfl rfl hdue hrender.symm⟩)
  · refine .inl ⟨{ lexer with cursor := ⟨[], lexer.cursor.offset⟩, atLineStart := false }, hpending,
      ?_, ⟨hline, hbrackets, hopened, .ended rfl hpending hlevels hdue rfl⟩, hpending, rfl⟩
    rw [readLineStart, if_pos (by simp [hstart, hempty]), readIndentation, LineStart.find, hrest,
      hrender]
    rfl

/-- In front of rendered text the change of level that is due is answered. Where none is due, a line
is entered. -/
theorem Renders.next_change (hrenders : lexer.Renders place opened (token :: tokens))
    (hreading : lexer.Reading source)
    (hsequence : TokenSequence place opened (token :: tokens)) :
    (∃ entered, lexer.Enters entered place opened (token :: tokens)) ∨
      lexer.Changes place token tokens := by
  obtain ⟨hline, hbrackets, hopened, hstands⟩ := id hrenders
  cases hstands with
  | line hstart hpending hlevels hrest =>
    exact hrenders.next_line hreading hsequence hstart hpending hlevels hrest
  | text hstart hpending hdepth hlevels hdue hrest =>
    cases hdue with
    | last => exact .inl ⟨lexer, hrenders.enters hstart hpending⟩
    | @dedent due _ _ hkind hdue =>
      obtain rfl := hopened rfl
      subst hdepth
      rw [renderFrom_dedent hkind] at hrest
      have hnext : lexer.next =
          (.empty .dedent lexer.cursor.offset, { lexer with pendingDedents := due }) :=
        hreading.next_eq (by rw [read, hpending])
      exact .inr (.closes hkind hnext
        ⟨hline, hbrackets, hopened, .text hstart rfl rfl hlevels hdue hrest⟩)
  | ended hstart hpending => exact .inl ⟨lexer, hrenders.enters hstart hpending⟩
  | within hstart hpending => exact .inl ⟨lexer, hrenders.enters hstart hpending⟩

/-- Where a line has been entered and no dedents are due, the text of a token follows, or
the end. -/
theorem Stands.of_entered (hstands : lexer.Stands ⟨false, depth⟩ (token :: tokens))
    (hline : lexer.atLineStart = false) (hpending : lexer.pendingDedents = 0) :
    lexer.levels = levelsTo depth ∧
      (token.kind.IsSolid ∧
          lexer.cursor.rest = token.text.toList ++ renderFrom ⟨true, depth⟩ tokens ∨
        Dedents (· = .endOfInput) depth (token :: tokens) ∧ lexer.cursor.rest = []) := by
  cases hstands with
  | line hstart =>
    rw [hline] at hstart
    cases hstart
  | @text _ stays _ _ _ hdue' hdepth hlevels hdue hrest =>
    obtain rfl := hpending.symm.trans hdue'
    obtain rfl : depth = stays := hdepth
    cases hdue with
    | last hsolid =>
      rw [renderFrom_isSolid hsolid] at hrest
      exact ⟨hlevels, .inl ⟨hsolid, List.append_cancel_left hrest⟩⟩
  | ended _ _ hlevels hdue hrest => exact ⟨hlevels, .inr ⟨hdue, hrest⟩⟩

/-- Where a line has been entered, a token with text is read. -/
theorem Enters.next_isSolid (henters : lexer.Enters entered place opened (token :: tokens))
    (hreading : lexer.Reading source) (hsolid : token.kind.IsSolid) (hlexeme : token.IsLexeme)
    (hstep : BracketStep opened token opened')
    (hsequence : TokenSequence ⟨true, place.depth⟩ opened' tokens) :
    token.Again lexer.next.1 ∧ lexer.next.2.Renders ⟨true, place.depth⟩ opened' tokens := by
  obtain ⟨hpending, hstart, ⟨-, hbrackets, -, hstands⟩, hdedents, hline⟩ := henters
  obtain ⟨c, tail, hrender, hend⟩ := hsequence.endsLexeme
  obtain ⟨gap, hgap, hrest, hlevels⟩ : ∃ gap, (gap = [] ∨ gap = [' ']) ∧
      entered.cursor.rest = gap ++ (token.text.toList ++ c :: tail) ∧
      entered.levels = levelsTo place.depth := by
    rw [← hrender]
    obtain ⟨inLine, depth⟩ := place
    cases inLine with
    | true =>
      cases hstands with
      | within _ _ hlevels hrest =>
        exact ⟨[' '], .inr rfl, hrest.trans (renderFrom_isSolid hsolid), hlevels⟩
    | false =>
      obtain ⟨hlevels, ⟨-, hrest⟩ | ⟨hdue, -⟩⟩ := hstands.of_entered hline hdedents
      · exact ⟨[], .inl rfl, hrest, hlevels⟩
      · exact absurd rfl (hsolid.ne hdue.not_isSolid)
  obtain ⟨span, offset, brackets, hnext, hkept⟩ :=
    hreading.next_text hpending hstart hrest hgap hend hlexeme hsolid hbrackets hstep
  rw [hnext]
  exact ⟨⟨rfl, fun _ => rfl⟩, rfl, hkept, nofun, .within hline hdedents hlevels hrender.symm⟩

/-- Behind the text of a line the line feed is read. -/
theorem Enters.next_newline (henters : lexer.Enters entered ⟨true, depth⟩ opened (token :: tokens))
    (hreading : lexer.Reading source) (hkind : token.kind = .newline)
    (hstep : BracketStep opened token opened') :
    token.Again lexer.next.1 ∧ lexer.next.2.Renders ⟨false, depth⟩ opened' tokens := by
  obtain ⟨hpending, hstart, ⟨hline, hbrackets, -, hstands⟩, -, -⟩ := henters
  obtain ⟨rfl, rfl⟩ := hstep.opened_of_structural (by rw [hkind]; decide)
  cases hstands with
  | within _ hdedents hlevels hrest =>
    have hempty : entered.brackets = [] := List.map_eq_nil_iff.mp hbrackets
    rw [renderFrom_newline hkind] at hrest
    have hcursor : entered.cursor =
        ⟨'\n' :: renderFrom ⟨false, depth⟩ tokens, entered.cursor.offset⟩ := by
      rw [← hrest]
    have hskip : skipTrivia (!entered.brackets.isEmpty) entered.cursor = .ok entered.cursor := by
      rw [hempty, hcursor, skipTrivia, skipTriviaFrom_lineEnd (.inl rfl)]
      rfl
    have hbreak : entered.cursor.skipLineBreak? =
        some ⟨renderFrom ⟨false, depth⟩ tokens, entered.cursor.offset + 1⟩ := by
      rw [hcursor]
      rfl
    have hwithin := readWithin_of_lineBreak hskip hbreak
    rw [if_pos hline] at hwithin
    rw [hreading.next_of_finds hpending (.token hstart hwithin)]
    exact ⟨.of_not_isSolid hkind.symm (by rw [hkind]; decide), rfl, hbrackets, fun _ => rfl,
      .line rfl hdedents hlevels rfl⟩

/-- At the end of the text a level is closed, or the input ends. -/
theorem Enters.next_end (henters : lexer.Enters entered ⟨false, depth⟩ opened (token :: tokens))
    (hreading : lexer.Reading source) (hsolid : ¬token.kind.IsSolid) :
    lexer.Changes ⟨false, depth⟩ token tokens ∨
      token.kind = .endOfInput ∧ lexer.next.1.kind = .endOfInput := by
  obtain ⟨hpending, hstart, ⟨hempty, hbrackets, hopened, hstands⟩, hdedents, hline⟩ := henters
  obtain rfl := hopened rfl
  have hnone : entered.brackets = [] := List.map_eq_nil_iff.mp hbrackets
  obtain ⟨hlevels, ⟨htext, -⟩ | ⟨hdue, hrest⟩⟩ := hstands.of_entered hline hdedents
  · exact absurd htext hsolid
  cases hdue with
  | last hend =>
    have hread : entered.readEnd = .ok (.endOfInput entered.size, entered) := by
      simp [readEnd, hnone, hempty, hlevels, levelsTo]
    rw [hreading.next_of_finds hpending (.token hstart (readWithin_of_end hrest hread))]
    exact .inr ⟨hend, rfl⟩
  | @dedent due _ _ hkind hdue =>
    have hread : entered.readEnd = .ok (.empty .dedent entered.cursor.offset,
        { entered with levels := levelsTo due }) := by
      simp [readEnd, hnone, hempty, hlevels, levelsTo]
    exact .inl (.closes hkind
      (hreading.next_of_finds hpending (.token hstart (readWithin_of_end hrest hread)))
      ⟨hempty, hbrackets, hopened, .ended hline hdedents rfl hdue hrest⟩)

/-- A change of level is answered where it is due. -/
theorem Renders.changes (hrenders : lexer.Renders ⟨false, depth⟩ opened (token :: tokens))
    (hreading : lexer.Reading source)
    (hsequence : TokenSequence ⟨false, depth⟩ opened (token :: tokens))
    (hkind : token.kind.ChangesLevel) : lexer.Changes ⟨false, depth⟩ token tokens := by
  have hstructural := hkind.not_isSignificant
  rcases hrenders.next_change hreading hsequence with ⟨entered, henters⟩ | hchanges
  · refine (henters.next_end hreading fun hsolid => hstructural hsolid.1).resolve_right ?_
    rintro ⟨hend, -⟩
    exact hstructural (by rw [hend]; rfl)
  · exact hchanges

/-- One call answers the first token again, and the lexer behind it reads the rendered text of the
others. -/
theorem Renders.next_again (hrenders : lexer.Renders place opened (token :: tokens))
    (hreading : lexer.Reading source) (hsequence : TokenSequence place opened (token :: tokens))
    (hend : token.kind ≠ .endOfInput) :
    token.Again lexer.next.1 ∧
      ∃ after opened', lexer.next.2.Renders after opened' tokens ∧
        TokenSequence after opened' tokens := by
  have hchange := hrenders.next_change hreading hsequence
  cases id hsequence with
  | last hkind => exact absurd hkind hend
  | @cons _ after _ opened' _ _ hstep hbrackets hlexeme _ _ hrest =>
    suffices hnext : token.Again lexer.next.1 ∧ lexer.next.2.Renders after opened' tokens from
      ⟨hnext.1, after, opened', hnext.2, hrest⟩
    have hchanged : lexer.Changes place token tokens →
        token.Again lexer.next.1 ∧ lexer.next.2.Renders after opened' tokens := by
      rintro ⟨hkind, hsame, hbehind⟩
      have hstructural := hkind.not_isSignificant
      obtain ⟨-, rfl⟩ := hbrackets.opened_of_structural hstructural
      exact ⟨.of_not_isSolid hsame fun hsolid => hstructural hsolid.1, hbehind after hstep⟩
    rcases hchange with ⟨entered, henters⟩ | hchanges
    · generalize hkind : token.kind = kind at hstep
      cases hstep with
      | indent => exact hchanged (hrenders.changes hreading hsequence (.inl hkind))
      | dedent => exact hchanged (hrenders.changes hreading hsequence (.inr hkind))
      | text hsolid =>
        rw [← hkind] at hsolid
        exact henters.next_isSolid hreading hsolid (hlexeme hsolid) hbrackets hrest
      | newline => exact henters.next_newline hreading hkind hbrackets
    · exact hchanged hchanges

/-- At the end of the rendered text the input ends. -/
theorem Renders.next_last (hrenders : lexer.Renders place opened (token :: tokens))
    (hreading : lexer.Reading source) (hsequence : TokenSequence place opened (token :: tokens))
    (hend : token.kind = .endOfInput) : tokens = [] ∧ token.Again lexer.next.1 := by
  have hchange := hrenders.next_change hreading hsequence
  cases hsequence with
  | cons hstep => exact absurd hend hstep.ne_endOfInput
  | last =>
    have hsolid : ¬token.kind.IsSolid := by
      rw [hend]
      decide
    refine ⟨rfl, .of_not_isSolid ?_ hsolid⟩
    rcases hchange with ⟨entered, henters⟩ | hchanges
    · rcases henters.next_end hreading hsolid with hchanges | ⟨-, hlast⟩
      · exact hchanges.2.1
      · exact hlast.trans hend.symm
    · exact hchanges.2.1

/-! ## A whole run -/

/-- A source that is the rendered text of tokens starts with it. -/
theorem ofSource_renders (hsequence : TokenSequence ⟨false, 0⟩ [] tokens) :
    (ofSource (String.ofList (renderFrom ⟨false, 0⟩ tokens))).Renders ⟨false, 0⟩ [] tokens := by
  refine ⟨rfl, rfl, fun _ => rfl, .line rfl rfl rfl ?_⟩
  have hmark := hsequence.head?_ne_byteOrderMark
  rw [ofSource, String.toList_ofList]
  unfold start
  dsimp only
  split
  · rename_i c cs hrender
    rw [hrender] at hmark
    rw [if_neg (hmark c rfl)]
  · rename_i hrender
    exact hrender.symm

/-- Reading the rendered text of tokens answers the tokens again. -/
theorem Renders.runFor_again (hrenders : lexer.Renders place opened tokens)
    (hreading : lexer.Reading source) (hsequence : TokenSequence place opened tokens) {fuel : Nat}
    (hfuel : lexer.weight + 2 ≤ fuel) :
    List.Forall₂ Token.Again tokens ((runFor fuel lexer).map Prod.fst) := by
  induction fuel generalizing lexer place opened tokens with
  | zero => omega
  | succ fuel ih =>
    rw [runFor]
    dsimp only
    cases tokens with
    | nil => cases hsequence
    | cons token tokens =>
      by_cases hend : token.kind = .endOfInput
      · obtain ⟨rfl, hagain⟩ := hrenders.next_last hreading hsequence hend
        rw [if_pos (hagain.1.trans hend)]
        exact .cons hagain .nil
      · obtain ⟨hagain, after, opened', hbehind, hrest⟩ := hrenders.next_again hreading hsequence hend
        rw [if_neg fun hlast => hend (hagain.1.symm.trans hlast)]
        rcases hreading.next_ended with ⟨-, hreads, hweight⟩ | ⟨hlast, -⟩ | ⟨hinvalid, -⟩
        · exact .cons hagain (ih hbehind hreads hrest (by omega))
        · exact absurd (hagain.1.symm.trans (congrArg Token.kind hlast)) hend
        · exact absurd (hagain.1.symm.trans hinvalid) (hsequence.ne_invalid _ List.mem_cons_self)

end Lexer

namespace Tokens

/-- The kinds of the tokens. -/
def kinds (tokens : Tokens) : List TokenKind :=
  tokens.tokens.toList.map Token.kind

/-- The texts of the significant tokens. -/
def texts (tokens : Tokens) : List String :=
  (tokens.tokens.toList.filter fun token => token.kind.IsSolid).map Token.text

/-- The tokens as text, with one line for each logical line. -/
def normalForm (tokens : Tokens) : String :=
  String.ofList (renderFrom ⟨false, 0⟩ tokens.tokens.toList)

variable {source : String}

/-- A source that is rendered from tokens has these tokens again. -/
theorem ofSource_again {answered : List Token}
    (hrenders : (Lexer.ofSource source).Renders ⟨false, 0⟩ [] answered)
    (hsequence : TokenSequence ⟨false, 0⟩ [] answered) :
    List.Forall₂ Token.Again answered (ofSource source).tokens.toList :=
  hrenders.runFor_again (Lexer.ofSource_reading source) hsequence (Lexer.ofSource_weight_le source)

private theorem kinds_and_texts_of_again {tokens tokens' : Tokens}
    (hagain : List.Forall₂ Token.Again tokens.tokens.toList tokens'.tokens.toList) :
    tokens'.kinds = tokens.kinds ∧ tokens'.texts = tokens.texts := by
  unfold kinds texts
  generalize tokens.tokens.toList = answered at hagain ⊢
  generalize tokens'.tokens.toList = answered' at hagain ⊢
  induction hagain with
  | nil => exact ⟨rfl, rfl⟩
  | @cons token token' _ _ htoken _ ih =>
    obtain ⟨hkind, htext⟩ := htoken
    refine ⟨by rw [List.map_cons, List.map_cons, hkind, ih.1], ?_⟩
    rw [List.filter_cons, List.filter_cons, hkind]
    by_cases hsolid : token.kind.IsSolid
    · simp only [hsolid, decide_true, if_true, List.map_cons, ih.2, htext hsolid]
    · simp only [hsolid, decide_false, Bool.false_eq_true, if_false, ih.2]

private theorem failure_eq_none_of_kinds
    (hvalid : ∀ kind ∈ (ofSource source).kinds, kind ≠ .invalid) :
    (ofSource source).failure = none := by
  refine failure_eq_none fun index hinvalid => ?_
  rw [get_ofSource] at hinvalid
  cases hstep : (Lexer.run source)[index]? with
  | none =>
    rw [hstep] at hinvalid
    cases hinvalid
  | some step =>
    rw [hstep] at hinvalid
    refine hvalid _ ?_ hinvalid
    simp only [kinds, ofSource, List.mem_map]
    exact ⟨step.1, ⟨step, List.mem_of_getElem? hstep, rfl⟩, rfl⟩

/-- A source without lexical errors and line joins has the tokens of its normal form. -/
theorem ofSource_normalForm (hclean : (ofSource source).failure = none)
    (hjoins : (ofSource source).Unjoined) :
    (ofSource (ofSource source).normalForm).failure = none ∧
      (ofSource (ofSource source).normalForm).kinds = (ofSource source).kinds ∧
      (ofSource (ofSource source).normalForm).texts = (ofSource source).texts := by
  have hsequence := ofSource_sequence hclean hjoins
  have hrenders : (Lexer.ofSource (ofSource source).normalForm).Renders ⟨false, 0⟩ []
      (ofSource source).tokens.toList := Lexer.ofSource_renders hsequence
  obtain ⟨hkinds, htexts⟩ := kinds_and_texts_of_again (ofSource_again hrenders hsequence)
  refine ⟨?_, hkinds, htexts⟩
  refine failure_eq_none_of_kinds ?_
  rw [hkinds]
  intro kind hkind
  rw [kinds, List.mem_map] at hkind
  obtain ⟨token, htoken, rfl⟩ := hkind
  exact hsequence.ne_invalid token htoken

/-- Backslashes in a comment and in a string literal join no lines of the source. -/
theorem ofSource_normalForm_bracketed :
    (ofSource "if a:\n\t'x\\\ny'[1, # \\\n2:]\nb").normalForm =
        "if a :\n 'x\\\ny' [ 1 , 2 : ]\nb\n" ∧
      (ofSource (ofSource "if a:\n\t'x\\\ny'[1, # \\\n2:]\nb").normalForm).failure = none ∧
      (ofSource (ofSource "if a:\n\t'x\\\ny'[1, # \\\n2:]\nb").normalForm).kinds =
        (ofSource "if a:\n\t'x\\\ny'[1, # \\\n2:]\nb").kinds ∧
      (ofSource (ofSource "if a:\n\t'x\\\ny'[1, # \\\n2:]\nb").normalForm).texts =
        (ofSource "if a:\n\t'x\\\ny'[1, # \\\n2:]\nb").texts := by
  exact ⟨by decide +kernel, ofSource_normalForm (by decide +kernel) (by decide +kernel)⟩

/-- A line that a backslash joins with an empty one may open a level that has no text. -/
example : (ofSource (ofSource "if a:\n  b\n   \\\n\nc").normalForm).kinds ≠
    (ofSource "if a:\n  b\n   \\\n\nc").kinds := by
  decide +kernel

end Tokens

end PythonOutline
