import PythonOutline.Proofs.Lexer.LineBreak

/-! # The lexer over line breaks

A source without carriage returns is read call by call as it is read with other line breaks. Where
two calls both succeed, the tokens are of one kind and at the same place of the source, their texts
are the two spellings of one text, and the lexers behind them have the same levels and brackets
open. The calls succeed together but for string literals that are folded over lines. -/

namespace PythonOutline

open LineBreak

variable {lineBreak : LineBreak} {source : List Char}

/-- Two tokens of one kind at one place, whose texts are the two spellings of one text. -/
structure Token.Respells (lineBreak : LineBreak) (source : List Char) (token token' : Token) :
    Prop where
  kind_eq : token'.kind = token.kind
  start : lineBreak.Place source token.span.start token'.span.start
  stop : lineBreak.Place source token.span.stop token'.span.stop
  text_eq : token'.text.toList = lineBreak.respell token.text.toList
  inline : token.kind = .identifier ∨ token.kind = .literalNumber → '\n' ∉ token.text.toList
  written : token.kind = .literalString → '\r' ∉ token.text.toList ∧
    ∃ letters quote triple body, Written token.text.toList letters quote triple body

/-- Whether a token is a string literal that is folded over lines. -/
def Token.IsFolded (token : Token) : Prop :=
  token.kind = .literalString ∧ Folded token.text.toList

/-- Whether one of two tokens is read such that the other one cannot be missed. A literal that is
folded over lines may be read with line feeds only, or with lone carriage returns only. -/
def LineBreak.Preserves (lineBreak : LineBreak) (token token' : Token) : Prop :=
  token.kind ≠ .invalid ∧ (lineBreak = .returnFeed → ¬token.IsFolded) ∨
    token'.kind ≠ .invalid ∧ (lineBreak = .carriageReturn → ¬token'.IsFolded)

/-- Kinds of tokens whose text means something to the parser. -/
def TokenKind.IsSpelled (kind : TokenKind) : Prop :=
  kind = .identifier ∨ kind = .literalNumber ∨ kind = .literalString

instance (kind : TokenKind) : Decidable kind.IsSpelled :=
  inferInstanceAs (Decidable (_ ∨ _ ∨ _))

private theorem Token.respells_of_not_isSpelled {kind : TokenKind} {span span' : Span}
    {text text' : String} (hkind : ¬kind.IsSpelled)
    (hstart : lineBreak.Place source span.start span'.start)
    (hstop : lineBreak.Place source span.stop span'.stop)
    (htext : text'.toList = lineBreak.respell text.toList) :
    Token.Respells lineBreak source ⟨kind, span, text⟩ ⟨kind, span', text'⟩ where
  kind_eq := rfl
  start := hstart
  stop := hstop
  text_eq := htext
  inline := fun h => absurd (h.imp_right .inl) hkind
  written := fun h => absurd (.inr (.inr h)) hkind

namespace Lexer

/-- Two lexers at the same place of a source and of the source written anew, with the same levels
and brackets open. -/
structure Respells (lineBreak : LineBreak) (source : List Char) (lexer lexer' : Lexer) : Prop where
  cursor : lexer.cursor.Respells lineBreak source lexer'.cursor
  levels_eq : lexer'.levels = lexer.levels
  pendingDedents_eq : lexer'.pendingDedents = lexer.pendingDedents
  brackets_eq : lexer'.brackets.map Prod.fst = lexer.brackets.map Prod.fst
  atLineStart_eq : lexer'.atLineStart = lexer.atLineStart
  lineHasTokens_eq : lexer'.lineHasTokens = lexer.lineHasTokens

/-- Two calls of the lexer that answer tokens which stand for each other. -/
def Answers (lineBreak : LineBreak) (source : List Char) (answer answer' : Token × Lexer) : Prop :=
  answer.1.Respells lineBreak source answer'.1 ∧ answer.2.Respells lineBreak source answer'.2

/-- Two results of calls of the lexer that stand for each other, but for literals that
are folded. -/
abbrev AnswersAgree (lineBreak : LineBreak) (source : List Char) :
    Except LexFailure (Token × Lexer) → Except LexFailure (Token × Lexer) → Prop :=
  lineBreak.Agrees (fun answer => answer.1.IsFolded) (fun answer' => answer'.1.IsFolded)
    (Answers lineBreak source)

/-- Two attempts to read a token that answer tokens which stand for each other, or none. -/
def Attempts (lineBreak : LineBreak) (source : List Char) (answer answer' : Option Token × Lexer) :
    Prop :=
  Option.Rel (Token.Respells lineBreak source) answer.1 answer'.1 ∧
    answer.2.Respells lineBreak source answer'.2

variable {lexer lexer' : Lexer} (hlexer : lexer.Respells lineBreak source lexer')

private theorem empty_respells {kind : TokenKind} {offset offset' : Nat} (hkind : ¬kind.IsSpelled)
    (hplace : lineBreak.Place source offset offset') :
    (Token.empty kind offset).Respells lineBreak source (.empty kind offset') :=
  Token.respells_of_not_isSpelled hkind hplace hplace rfl

include hlexer

private theorem Respells.isEmpty_brackets : lexer'.brackets.isEmpty = lexer.brackets.isEmpty := by
  have hbrackets := congrArg List.isEmpty hlexer.brackets_eq
  simpa using hbrackets

omit hlexer in
private theorem trackBrackets_agrees {brackets brackets' : List (TokenKind × Span)}
    (hbrackets : brackets'.map Prod.fst = brackets.map Prod.fst) (kind : TokenKind)
    (span span' : Span) (stop stop' : Cursor) :
    Agree (fun brackets brackets' => brackets'.map Prod.fst = brackets.map Prod.fst)
      (trackBrackets brackets kind span stop) (trackBrackets brackets' kind span' stop') := by
  unfold trackBrackets
  split
  · exact .ok (by simp [hbrackets])
  split
  · cases brackets with
    | nil =>
      obtain rfl : brackets' = [] := by simpa using hbrackets
      exact .error
    | cons opened outer =>
      obtain ⟨opened', outer', rfl, hopened, houter⟩ := List.map_eq_cons_iff.mp hbrackets
      obtain ⟨kind, span⟩ := opened
      obtain ⟨kind', span'⟩ := opened'
      obtain rfl : kind' = kind := hopened
      dsimp only
      split
      · exact .ok houter
      · exact .error
  · exact .ok hbrackets

private theorem readSignificant_agrees {c : Char} (hpeek : lexer.cursor.peek? = some c)
    (hc : c ≠ '\n') (hreturn : '\r' ∉ lexer.cursor.rest) :
    AnswersAgree lineBreak source (lexer.readSignificant c) (lexer'.readSignificant c) := by
  obtain ⟨distance, hcursor⟩ := hlexer.cursor.eq_respell
  have hne : c ≠ '\r' := by
    rintro rfl
    exact hreturn (List.mem_of_mem_head? hpeek)
  have hpeek' : lexer'.cursor.peek? = some c := by
    rw [hcursor, Cursor.peek?_respell_eq_some_iff hc hne, hpeek]
  have hends : lineBreak.Agrees _ _ (Ends lineBreak distance) _ _ := significant_respell hpeek hc
  rw [← hcursor] at hends
  have hfolded : ∀ {lexer : Lexer} {ending : TokenKind × Cursor} {answer : Token × Lexer},
      significant c lexer.cursor = .ok ending → EndsFolded lexer.cursor ending →
      lexer.readSignificant c = .ok answer → answer.1.IsFolded := by
    intro lexer ending answer hsignificant hending hread
    obtain ⟨ending, hsignificant', hread⟩ := bind_eq_ok_iff.mp hread
    obtain ⟨brackets, -, hread⟩ := bind_eq_ok_iff.mp hread
    cases hsignificant.symm.trans hsignificant'
    cases hread
    exact ⟨hending.1, by simpa using hending.2⟩
  refine hends.bindOk ?_ ?_ ?_
  rotate_left
  · exact fun ending answer hending hfolds hread =>
      hfolds.imp_right fun hfolds => hfolded hending hfolds (bind_eq_ok_iff.mpr ⟨_, hending, hread⟩)
  · exact fun ending answer hending hfolds hread =>
      hfolds.imp_right fun hfolds => hfolded hending hfolds (bind_eq_ok_iff.mpr ⟨_, hending, hread⟩)
  rintro ⟨kind, stop⟩ ⟨kind', stop'⟩ ⟨hkind, hrest, hdistance⟩ hsignificant hsignificant'
  obtain rfl : kind' = kind := hkind
  have hextent := significant_extent hpeek
  have hextent' := significant_extent hpeek'
  rw [hsignificant] at hextent
  rw [hsignificant'] at hextent'
  obtain ⟨hstop, htext⟩ := hlexer.cursor.reaches hextent.2.1 hextent'.2.1 hrest
  refine (trackBrackets_agrees hlexer.brackets_eq _ _ _ _ _).bind ?_
  intro brackets brackets' hbrackets
  refine .ok ⟨⟨rfl, hlexer.cursor.place, hstop.place, ?_, ?_, ?_⟩, ⟨hstop, hlexer.levels_eq,
    hlexer.pendingDedents_eq, hbrackets, hlexer.atLineStart_eq, rfl⟩⟩
  · simpa using htext
  · intro hinline
    simpa using significant_inline hpeek hinline hsignificant
  · rintro rfl
    obtain ⟨text, hpasses⟩ := hextent.2.1
    rw [hpasses.rest_eq] at hreturn
    have htoken : '\r' ∉ text := fun hmem => hreturn (List.mem_append_left _ hmem)
    simpa [hpasses.textTo_eq, htoken] using significant_written hpeek hpasses hsignificant

omit hlexer in
/-- A lexer and the one it stands for differ in their cursors, sizes, brackets and failures only. -/
theorem respells_iff : lexer.Respells lineBreak source lexer' ↔
    lexer.cursor.Respells lineBreak source lexer'.cursor ∧
      lexer'.brackets.map Prod.fst = lexer.brackets.map Prod.fst ∧
      lexer' = { lexer with
        cursor := lexer'.cursor, size := lexer'.size, brackets := lexer'.brackets
        failure := lexer'.failure } := by
  constructor
  · rintro ⟨hcursor, hlevels, hpending, hbrackets, hstart, hline⟩
    refine ⟨hcursor, hbrackets, ?_⟩
    rw [← hlevels, ← hpending, ← hstart, ← hline]
  · rintro ⟨hcursor, hbrackets, hlexer⟩
    rw [hlexer]
    exact ⟨hcursor, rfl, rfl, hbrackets, rfl, rfl⟩

private theorem readEnd_agrees (hplace : lineBreak.Place source lexer.size lexer'.size) :
    Agree (Answers lineBreak source) lexer.readEnd lexer'.readEnd := by
  obtain ⟨hcursor, hbrackets, heq⟩ := respells_iff.mp hlexer
  have hoffset := hcursor.place
  rw [heq]
  obtain ⟨cursor, size, levels, pendingDedents, brackets, atLineStart, lineHasTokens, failure⟩ := lexer
  unfold readEnd
  dsimp only at hbrackets ⊢
  cases brackets with
  | cons opened outer =>
    obtain ⟨opened', outer', hopened', -⟩ := List.map_eq_cons_iff.mp hbrackets
    rw [hopened']
    exact .error
  | nil =>
    rw [List.map_eq_nil_iff.mp hbrackets]
    dsimp only
    split
    · exact .ok ⟨empty_respells (by decide) hoffset, ⟨hcursor, rfl, rfl, rfl, rfl, rfl⟩⟩
    split
    · exact .ok ⟨empty_respells (by decide) hoffset, ⟨hcursor, rfl, rfl, rfl, rfl, rfl⟩⟩
    · exact .ok ⟨empty_respells (by decide) hplace, ⟨hcursor, rfl, rfl, rfl, rfl, rfl⟩⟩

private theorem readIndentation_agrees (hreturn : '\r' ∉ source) :
    Agree (Attempts lineBreak source) lexer.readIndentation lexer'.readIndentation := by
  have hrest := hlexer.cursor.isIn.notMem_rest hreturn
  have hfind := LineStart.find_respells hlexer.cursor.rest_eq hrest
  have hfound := LineStart.find_separatedFrom lexer.cursor
  have hfound' := LineStart.find_separatedFrom lexer'.cursor
  unfold readIndentation
  cases hline : LineStart.find lexer.cursor with
  | none stop =>
    cases hline' : LineStart.find lexer'.cursor with
    | none stop' =>
      rw [hline] at hfind hfound
      rw [hline'] at hfind hfound'
      have hstop := (hlexer.cursor.reaches hfound.2.reaches hfound'.2.reaches hfind).1
      exact .ok ⟨.none, { hlexer with cursor := hstop, atLineStart_eq := rfl }⟩
    | line =>
      rw [hline, hline'] at hfind
      exact hfind.elim
  | line start width stop =>
    cases hline' : LineStart.find lexer'.cursor with
    | none =>
      rw [hline, hline'] at hfind
      exact hfind.elim
    | line start' width' stop' =>
      rw [hline] at hfind hfound
      rw [hline'] at hfind hfound'
      obtain ⟨rfl, hstop⟩ := hfind
      obtain ⟨lineStart, hbefore, -, hblanks⟩ := hfound
      obtain ⟨lineStart', hbefore', -, hblanks'⟩ := hfound'
      have hstop := (hlexer.cursor.reaches (hbefore.trans hblanks).reaches
        (hbefore'.trans hblanks').reaches hstop).1
      dsimp only
      rw [hlexer.levels_eq]
      split
      · exact .error
      · exact .ok ⟨.none, { hlexer with cursor := hstop, atLineStart_eq := rfl, levels_eq := rfl }⟩
      · exact .ok ⟨.some (empty_respells (by decide) hstop.place),
          { hlexer with cursor := hstop, atLineStart_eq := rfl, levels_eq := rfl }⟩
      · exact .ok ⟨.some (empty_respells (by decide) hstop.place), { hlexer with
          cursor := hstop, atLineStart_eq := rfl, levels_eq := rfl, pendingDedents_eq := rfl }⟩

private theorem readLineStart_agrees (hreturn : '\r' ∉ source) :
    Agree (Attempts lineBreak source) lexer.readLineStart lexer'.readLineStart := by
  rw [readLineStart, readLineStart, hlexer.isEmpty_brackets, hlexer.atLineStart_eq]
  split
  · exact readIndentation_agrees hlexer hreturn
  · exact .ok ⟨.none, hlexer⟩

private theorem readWithin_agrees (hreading : lexer.Reading source)
    (hreading' : lexer'.Reading (lineBreak.respell source)) (hreturn : '\r' ∉ source) :
    lineBreak.Agrees (fun answer => ∃ token ∈ answer.1, token.IsFolded)
      (fun answer' => ∃ token' ∈ answer'.1, token'.IsFolded) (Attempts lineBreak source)
      lexer.readWithin lexer'.readWithin := by
  unfold readWithin
  rw [hlexer.isEmpty_brackets]
  refine (skipTrivia_agrees hlexer.cursor hreturn).bind ?_
  intro cursor cursor' hcursor
  have hmoved : ({ lexer with cursor } : Lexer).Respells lineBreak source
      { lexer' with cursor := cursor' } := { hlexer with cursor := hcursor }
  have hrest := hcursor.isIn.notMem_rest hreturn
  have hsize : lineBreak.Place source lexer.size lexer'.size := by
    rw [hreading.size_eq, hreading'.size_eq]
    exact .stop lineBreak source
  have hstop := hcursor.rest_eq
  dsimp only
  cases htext : cursor.rest with
  | nil =>
    rw [hstop, htext, respell_nil]
    refine (readEnd_agrees hmoved hsize).bind ?_
    intro answer answer' hanswers
    exact .ok ⟨.some hanswers.1, hanswers.2⟩
  | cons c cs =>
    obtain ⟨c', cs', htext'⟩ : ∃ c' cs', cursor'.rest = c' :: cs' := by
      apply List.exists_cons_of_ne_nil
      simp [hstop, htext]
    rw [htext']
    dsimp only
    rcases hcursor.skipLineBreak? hreturn with ⟨stop, stop', hpasses, hpasses', hbehind, hspelling⟩ |
      ⟨hpasses, hpasses'⟩
    · rw [hpasses, hpasses', hlexer.lineHasTokens_eq]
      dsimp only
      split
      · refine .ok ⟨.some (Token.respells_of_not_isSpelled (by decide) hcursor.place hbehind.place ?_),
          { hlexer with cursor := hbehind, atLineStart_eq := rfl, lineHasTokens_eq := rfl }⟩
        simpa using hspelling
      · exact .ok ⟨.none,
          { hlexer with cursor := hbehind, atLineStart_eq := rfl, lineHasTokens_eq := rfl }⟩
    · rw [hpasses, hpasses']
      have hc : c ≠ '\n' := by
        rintro rfl
        rw [show cursor = ⟨'\n' :: cs, cursor.offset⟩ by rw [← htext]] at hpasses
        cases hpasses
      obtain ⟨rfl, -⟩ : c' = c ∧ cs' = lineBreak.respell cs := by
        rw [htext, respell_cons hc, htext'] at hstop
        exact List.cons.inj hstop
      refine (readSignificant_agrees hmoved (by simp [Cursor.peek?, htext]) hc hrest).bindOk ?_ ?_ ?_
      · exact fun answer answer' hanswers _ _ => .ok ⟨.some hanswers.1, hanswers.2⟩
      · rintro answer _ - hfolded ⟨⟩
        exact hfolded.imp_right fun hfolded => ⟨_, rfl, hfolded⟩
      · rintro answer' _ - hfolded ⟨⟩
        exact hfolded.imp_right fun hfolded => ⟨_, rfl, hfolded⟩

/-! ## Calls -/

omit hlexer in
/-- Two lexers that read lines up to a token agree, each with as much fuel as it has bytes left. -/
theorem readLines_agrees {fuel fuel' : Nat} (hlexer : lexer.Respells lineBreak source lexer')
    (hreading : lexer.Reading source) (hreading' : lexer'.Reading (lineBreak.respell source))
    (hreturn : '\r' ∉ source) (hfuel : Text.byteLength lexer.cursor.rest < fuel)
    (hfuel' : Text.byteLength lexer'.cursor.rest < fuel') :
    AnswersAgree lineBreak source (readLines fuel lexer) (readLines fuel' lexer') := by
  induction fuel generalizing fuel' lexer lexer' with
  | zero => omega
  | succ fuel ih =>
    obtain ⟨fuel', rfl⟩ : ∃ count, fuel' = count + 1 := Nat.exists_eq_add_one.mpr (by omega)
    rw [readLines_succ, readLines_succ]
    refine (readLineStart_agrees hlexer hreturn).bindOk ?_
    rintro ⟨change, entered⟩ ⟨change', entered'⟩ ⟨hchange, hentered⟩ hstart hstart'
    have hattempt := readLineStart_attempt hreading
    have hattempt' := readLineStart_attempt hreading'
    rw [hstart] at hattempt
    rw [hstart'] at hattempt'
    cases hchange with
    | some htoken => exact .ok ⟨htoken, hentered⟩
    | none =>
      obtain ⟨hseparates, hreads⟩ := hattempt
      obtain ⟨hseparates', hreads'⟩ := hattempt'
      refine (readWithin_agrees hentered hreads hreads' hreturn).bindOk ?_ ?_ ?_
      rotate_left
      · rintro ⟨_, behind⟩ _ - ⟨hbreak, token, ⟨⟩, hfolded⟩ ⟨⟩
        exact ⟨hbreak, hfolded⟩
      · rintro ⟨_, behind⟩ _ - ⟨hbreak, token, ⟨⟩, hfolded⟩ ⟨⟩
        exact ⟨hbreak, hfolded⟩
      rintro ⟨token, behind⟩ ⟨token', behind'⟩ ⟨htoken, hbehind⟩ hwithin hwithin'
      obtain ⟨hattempt, hprogress⟩ := readWithin_attempt hreads
      obtain ⟨hattempt', hprogress'⟩ := readWithin_attempt hreads'
      rw [hwithin] at hattempt
      rw [hwithin'] at hattempt'
      cases htoken with
      | some htoken => exact .ok ⟨htoken, hbehind⟩
      | none =>
        apply ih hbehind hattempt.2 hattempt'.2
        · have hlt := hprogress behind hwithin
          have hle := hseparates.offset_le
          have hbefore := hreading.isIn.offset_add
          have hafter := hattempt.2.isIn.offset_add
          dsimp only
          omega
        · have hlt := hprogress' behind' hwithin'
          have hle := hseparates'.offset_le
          have hbefore := hreading'.isIn.offset_add
          have hafter := hattempt'.2.isIn.offset_add
          dsimp only
          omega

private theorem read_agrees (hreading : lexer.Reading source)
    (hreading' : lexer'.Reading (lineBreak.respell source)) (hreturn : '\r' ∉ source) :
    AnswersAgree lineBreak source lexer.read lexer'.read := by
  rw [read, read, hlexer.pendingDedents_eq]
  cases lexer.pendingDedents with
  | succ pendingDedents =>
    exact .ok ⟨empty_respells (by decide) hlexer.cursor.place,
      { hlexer with pendingDedents_eq := rfl }⟩
  | zero =>
    have hoffset := hreading.isIn.offset_add
    have hoffset' := hreading'.isIn.offset_add
    apply readLines_agrees hlexer hreading hreading' hreturn
    · rw [hreading.size_eq]
      omega
    · rw [hreading'.size_eq]
      omega

/-- Where a call of one of the lexers answers a token that the other cannot miss, the other answers
one that stands for it. -/
theorem next_respells (hreading : lexer.Reading source)
    (hreading' : lexer'.Reading (lineBreak.respell source)) (hreturn : '\r' ∉ source)
    (hpreserves : lineBreak.Preserves lexer.next.1 lexer'.next.1) :
    Answers lineBreak source lexer.next lexer'.next := by
  have hagrees := read_agrees hlexer hreading hreading' hreturn
  have hfailure : ¬lexer.failure.isSome := by simp [hreading.failure_eq]
  have hfailure' : ¬lexer'.failure.isSome := by simp [hreading'.failure_eq]
  rw [next, next, if_neg hfailure, if_neg hfailure'] at hpreserves ⊢
  generalize lexer.read = result, lexer'.read = result' at hagrees hpreserves
  cases hagrees with
  | ok hanswers => exact hanswers
  | error => rcases hpreserves with ⟨hvalid, -⟩ | ⟨hvalid, -⟩ <;> exact absurd rfl hvalid
  | onlyFirst hlost =>
    rcases hpreserves with ⟨-, hunfolded⟩ | ⟨hvalid, -⟩
    · exact absurd hlost.2 (hunfolded hlost.1)
    · exact absurd rfl hvalid
  | onlySecond hgained =>
    rcases hpreserves with ⟨hvalid, -⟩ | ⟨-, hunfolded⟩
    · exact absurd rfl hvalid
    · exact absurd hgained.2 (hunfolded hgained.1)

/-- If at every call one of the lexers answers a token that the other cannot miss, the two lexers
stand for each other behind any number of calls. -/
theorem after_respells (hreading : lexer.Reading source)
    (hreading' : lexer'.Reading (lineBreak.respell source)) (hreturn : '\r' ∉ source)
    (hpreserves : ∀ index, lineBreak.Preserves (lexer.after index).next.1 (lexer'.after index).next.1)
    (count : Nat) : Answers lineBreak source (lexer.after count).next (lexer'.after count).next := by
  induction count generalizing lexer lexer' with
  | zero => exact next_respells hlexer hreading hreading' hreturn (hpreserves 0)
  | succ count ih =>
    have hfirst : lineBreak.Preserves lexer.next.1 lexer'.next.1 := hpreserves 0
    have hanswers := next_respells hlexer hreading hreading' hreturn hfirst
    have hkind : lexer.next.1.kind ≠ .invalid := by
      rcases hfirst with ⟨hvalid, -⟩ | ⟨hvalid, -⟩
      · exact hvalid
      · exact hanswers.1.kind_eq ▸ hvalid
    have hkind' : lexer'.next.1.kind ≠ .invalid := by rwa [hanswers.1.kind_eq]
    apply ih hanswers.2
    · exact (hreading.next_cases.resolve_right fun hbad => hkind hbad.1).2
    · exact (hreading'.next_cases.resolve_right fun hbad => hkind' hbad.1).2
    · exact fun index => hpreserves (index + 1)

omit hlexer in
/-- The lexers at the start of a source and of the source written anew. -/
theorem ofSource_respells (lineBreak : LineBreak) (source : String) :
    (ofSource source).Respells lineBreak source.toList (ofSource (lineBreak.write source)) := by
  have hwrite : (lineBreak.write source).toList = lineBreak.respell source.toList := by
    simp [write]
  have hcursor : (ofSource source).cursor.Respells lineBreak source.toList
      (ofSource (lineBreak.write source)).cursor := by
    have hother : ∀ {c : Char} (cs : List Char) (size : Nat), c ≠ byteOrderMark →
        (start (c :: cs) size).cursor = ⟨c :: cs, 0⟩ := by
      intro c cs size hc
      simp [start, hc]
    simp only [ofSource, hwrite]
    cases source.toList with
    | nil => exact ⟨[], .refl _, .refl _⟩
    | cons c cs =>
      by_cases hmark : c = byteOrderMark
      · subst hmark
        have hline : byteOrderMark ≠ '\n' := by decide
        rw [respell_cons hline]
        refine ⟨[byteOrderMark], ⟨?_, ?_⟩, ⟨?_, ?_⟩⟩ <;> simp [start, respell_cons hline]
      · refine ⟨[], ?_, ?_⟩
        · rw [hother cs _ hmark]
          exact .refl _
        · by_cases hc : c = '\n'
          · subst hc
            rw [respell_feed, hother _ _ (by decide)]
            exact .refl _
          · rw [respell_cons hc, hother _ _ hmark]
            exact .refl _
  refine ⟨hcursor, ?_, ?_, ?_, ?_, ?_⟩ <;> simp only [ofSource, start]

end Lexer

end PythonOutline
