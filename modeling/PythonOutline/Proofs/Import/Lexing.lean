import PythonOutline.Proofs.Import.Syntax
import PythonOutline.Proofs.Lexer.OpenBrackets
import PythonOutline.Proofs.Lexer.Sequence
import PythonOutline.Proofs.Literal.Number
import PythonOutline.Proofs.Operator.Parse

/-! # Lexing relative imports

The lexer passes over the gaps between the tokens of an import, and it reads the tokens that were
written, with the leading dots in groups of one or three. It does so wherever the import stands,
even if brackets are open around it. -/

namespace PythonOutline

/-! ## Gaps -/

section

variable {inParens inBrackets : Bool} {gap rest : List Char} {first : Char} {offset : Nat}

/-- Within brackets every gap is passed. -/
theorem IsGap.skipTriviaFrom_inside (hgap : IsGap inParens gap) (offset : Nat) :
    skipTriviaFrom true false (gap ++ rest) offset =
      skipTriviaFrom true false rest (offset + Text.byteLength gap) := by
  have hpiece : ∀ {piece others : List Char} {offset : Nat},
      Separator piece (others ++ rest) →
      (∀ offset, skipTriviaFrom true false (others ++ rest) offset =
        skipTriviaFrom true false rest (offset + Text.byteLength others)) →
      skipTriviaFrom true false (piece ++ others ++ rest) offset =
        skipTriviaFrom true false rest (offset + Text.byteLength (piece ++ others)) := by
    intro piece others offset hseparator hothers
    rw [List.append_assoc, skipTriviaFrom_separator hseparator, hothers, Text.byteLength_append,
      Nat.add_assoc]
  have hlineEnd : ∀ {c : Char}, EndsLine c → [c] ∈ lineBreaks := by
    rintro c (rfl | rfl) <;> decide
  induction hgap generalizing offset with
  | nil => rfl
  | @blank c gap hblank _ ih => exact @hpiece [c] gap offset (.blank hblank) ih
  | @lineJoin text gap hbreak _ ih => exact @hpiece ('\\' :: text) gap offset (.lineJoin hbreak) ih
  | @lineEnd c gap _ hend _ ih => exact @hpiece [c] gap offset (.lineBreak (hlineEnd hend)) ih
  | @comment body gap c _ hbody hend _ ih =>
    refine @hpiece ('#' :: body) (c :: gap) offset (.comment hbody fun d hd => ?_) fun offset =>
      @hpiece [c] gap offset (.lineBreak (hlineEnd hend)) ih
    exact Option.some.inj hd ▸ hend

/-- Outside of brackets a gap is passed up to the token behind it. -/
theorem IsGap.skipTriviaFrom_outside (hgap : IsGap false gap) (hstart : StartsLexeme first)
    (offset : Nat) :
    skipTriviaFrom false false (gap ++ first :: rest) offset =
        .ok ⟨first :: rest, offset + Text.byteLength gap⟩ ∧
      (gap ++ first :: rest).head? ≠ some '\n' := by
  induction hgap generalizing offset with
  | nil => exact ⟨Lexer.skipTriviaFrom_startsLexeme hstart, by simpa using hstart.ne_lineFeed⟩
  | @blank c gap hblank _ ih =>
    have hc : ¬EndsLine c := by rcases hblank with rfl | rfl | rfl <;> decide
    obtain ⟨hrest, -⟩ := ih (offset + c.utf8Size)
    refine ⟨?_, fun hfeed => hc (.inl (Option.some.inj hfeed))⟩
    rw [List.cons_append, skipTriviaFrom_blank hc (Text.blanks_contains_iff.mpr hblank), hrest,
      Text.byteLength_cons, Nat.add_assoc]
  | @lineJoin text gap hbreak _ ih =>
    refine ⟨?_, nofun⟩
    obtain ⟨hrest, hfeed⟩ := ih (offset + 1 + Text.byteLength text)
    have hpassed : (⟨text ++ (gap ++ first :: rest), offset + 1⟩ : Cursor).skipLineBreak? =
        some ⟨gap ++ first :: rest, offset + 1 + Text.byteLength text⟩ := by
      simp only [lineBreaks, List.mem_cons, List.not_mem_nil, or_false] at hbreak
      rcases hbreak with rfl | rfl | rfl
      · rfl
      · refine Cursor.skipLineBreak?_return (fun behind hbehind => ?_) _
        exact hfeed (congrArg List.head? hbehind)
      · rfl
    rw [List.cons_append, List.cons_append, List.append_assoc, skipTriviaFrom_backslash, hpassed]
    dsimp only
    rw [hrest, Text.byteLength_cons, Text.byteLength_append]
    simp only [Except.ok.injEq, Cursor.mk.injEq, true_and]
    have hsize : '\\'.utf8Size = 1 := rfl
    omega
  | lineEnd hinside | comment hinside => cases hinside

/-- A gap is passed up to the token behind it. Within brackets it may be any gap. -/
theorem IsGap.skipTrivia (hgap : IsGap inParens gap) (hinside : inParens → inBrackets)
    (hstart : StartsLexeme first) :
    skipTrivia inBrackets ⟨gap ++ first :: rest, offset⟩ =
      .ok ⟨first :: rest, offset + Text.byteLength gap⟩ := by
  cases inBrackets with
  | true =>
    exact (hgap.skipTriviaFrom_inside offset).trans (Lexer.skipTriviaFrom_startsLexeme hstart)
  | false =>
    obtain rfl : inParens = false := by simpa using hinside
    exact (hgap.skipTriviaFrom_outside hstart offset).1

/-- The characters that a gap may start with. -/
def gapChars : List Char :=
  [' ', '\t', '\x0c', '\\', '\n', '\r', '#']

/-- Such a character goes on with no token of an import. -/
theorem of_mem_gapChars {c : Char} (hgap : c ∈ gapChars) :
    Text.isIdentifierContinue c = false ∧ isQuote c = false ∧ c.isDigit = false ∧ c ≠ '=' ∧
      c ≠ '*' := by
  have hall : gapChars.all fun c => Text.isIdentifierContinue c = false ∧ isQuote c = false ∧
      c.isDigit = false ∧ c ≠ '=' ∧ c ≠ '*' := by
    decide +kernel
  exact of_decide_eq_true (List.all_eq_true.mp hall c hgap)

private theorem IsGap.mem_gapChars {c : Char} (hgap : IsGap inParens (c :: gap)) :
    c ∈ gapChars := by
  cases hgap with
  | blank hblank => rcases hblank with rfl | rfl | rfl <;> decide
  | lineJoin | comment => decide
  | lineEnd _ hend => rcases hend with rfl | rfl <;> decide

end

/-! ## Tokens -/

/-- A token is read from its text in front of other text. -/
def Lexeme.StandsBefore (lexeme : Lexeme) (behind : List Char) : Prop :=
  ∃ first others, lexeme.text.toList = first :: others ∧ StartsLexeme first ∧
    ∀ offset, Lexer.significant first ⟨lexeme.text.toList ++ behind, offset⟩ =
      .ok (lexeme.kind, ⟨behind, offset + Text.byteLength lexeme.text.toList⟩)

/-- The keywords of imports. -/
def importKeywords : List TokenKind :=
  [.keywordAs, .keywordFrom, .keywordImport]

/-- The operators and delimiters of imports with their spellings. -/
def importSigns : List (TokenKind × Char) :=
  [(.asterisk, '*'), (.comma, ','), (.dot, '.'), (.parenthesisClose, ')'), (.parenthesisOpen, '(')]

/-- A token that may occur in an import. -/
def Lexeme.InImport : Lexeme → Prop
  | .name _ => True
  | .fixed kind => kind ∈ importKeywords ∨ kind ∈ importSigns.map Prod.fst

/-- A token of an import is a word or an operator of one character. -/
theorem Lexeme.InImport.cases {lexeme : Lexeme} (hin : lexeme.InImport) :
    lexeme.isWord ∧ isWordText lexeme.text.toList ∧
        (TokenKind.keyword? lexeme.text).getD .identifier = lexeme.kind ∨
      lexeme.isWord = false ∧ ∃ c, (lexeme.kind, c) ∈ importSigns ∧ lexeme.text.toList = [c] := by
  have hkinds : ∀ kind ∈ importKeywords,
      (Lexeme.fixed kind).isWord ∧ isWordText (Lexeme.fixed kind).text.toList ∧
        (TokenKind.keyword? (Lexeme.fixed kind).text).getD .identifier = kind := by
    decide +kernel
  have hsigns : ∀ entry ∈ importSigns, (Lexeme.fixed entry.1).isWord = false ∧
      (Lexeme.fixed entry.1).text.toList = [entry.2] := by
    decide +kernel
  cases lexeme with
  | name identifier =>
    refine .inl ⟨rfl, ?_, ?_⟩
    · simp only [text, Identifier.text, isWordText, String.toList_ofList, identifier.first_isStart,
        Bool.true_and, List.all_eq_true]
      exact identifier.others_continue
    · rw [text, Identifier.text, identifier.not_keyword]
      rfl
  | fixed kind =>
    rcases hin with hkeyword | hsign
    · exact .inl (hkinds kind hkeyword)
    · obtain ⟨entry, hentry, rfl⟩ := List.mem_map.mp hsign
      exact .inr ⟨(hsigns entry hentry).1, entry.2, hentry, (hsigns entry hentry).2⟩

/-- What a relative import is written with are tokens that an import may have. -/
theorem RelativeImport.inImport (written : RelativeImport) :
    ∀ lexeme ∈ written.lexemes, lexeme.InImport := by
  have hname : ∀ identifier, (Lexeme.name identifier).InImport := fun _ => trivial
  have hdot : (Lexeme.fixed .dot).InImport := .inr (by decide)
  have hfixed : ∀ kind ∈ nameListKinds,
      kind ∈ importKeywords ∨ kind ∈ importSigns.map Prod.fst := by
    decide
  refine List.forall_mem_append.mpr ⟨fun lexeme hlexeme => ?_, List.forall_mem_append.mpr
    ⟨?_, List.forall_mem_cons.mpr ⟨.inl (by decide), written.names.forall_lexemes hname hfixed⟩⟩⟩
  · rw [List.eq_of_mem_replicate hlexeme]
    exact hdot
  · cases written.path with
    | nil => nofun
    | cons first others =>
      refine List.forall_mem_cons.mpr ⟨hname first, fun lexeme hlexeme => ?_⟩
      obtain ⟨part, -, hlexeme⟩ := List.mem_flatMap.mp hlexeme
      rcases List.mem_cons.mp hlexeme with rfl | hlexeme
      · exact hdot
      · obtain rfl := List.mem_singleton.mp hlexeme
        exact hname part

namespace Lexeme

variable {lexeme : Lexeme} {behind : List Char} {c : Char}

private theorem standsBefore_word (hword : isWordText lexeme.text.toList)
    (hkind : (TokenKind.keyword? lexeme.text).getD .identifier = lexeme.kind)
    (hstop : ¬behind.head?.any Text.isIdentifierContinue) (hquote : ¬behind.head?.any isQuote) :
    lexeme.StandsBefore behind := by
  obtain ⟨first, others, htext, hstart, -⟩ :=
    @Lexer.significant_word_before _ 0 behind hword hstop hquote
  refine ⟨first, others, htext, hstart, fun offset => ?_⟩
  obtain ⟨_, _, htext', -, hread⟩ :=
    @Lexer.significant_word_before _ offset behind hword hstop hquote
  cases htext.symm.trans htext'
  rw [hread, String.ofList_toList, hkind]

/-- A sign of one character is read as itself if no longer operator starts there and, for a dot, no
digit follows. -/
private theorem standsBefore_sign (hsign : (lexeme.kind, c) ∈ importSigns)
    (htext : lexeme.text.toList = [c])
    (hlongest : ∀ other ∈ TokenKind.operatorSpellings, other.2.toList <+: c :: behind →
      other.2.toList.length ≤ 1)
    (hdigits : lexeme.kind = .dot → ¬behind.head?.any Char.isDigit) :
    lexeme.StandsBefore behind := by
  have hspellings : ∀ entry ∈ importSigns,
      (entry.1, String.ofList [entry.2]) ∈ TokenKind.operatorSpellings := by
    decide +kernel
  have hentry : (lexeme.kind, lexeme.text) ∈ TokenKind.operatorSpellings := by
    rw [← @String.ofList_toList lexeme.text, htext]
    exact hspellings _ hsign
  have hoperator : TokenKind.longestOperator? (lexeme.text.toList ++ behind) =
      some (lexeme.kind, lexeme.text) := by
    refine TokenKind.longestOperator?_eq hentry (List.prefix_append ..) fun other hother hprefix => ?_
    rw [htext] at hprefix
    rw [← String.length_toList, ← String.length_toList, htext]
    exact hlongest other hother hprefix
  obtain ⟨first, others, hfirst, hstart, -⟩ :=
    @Lexer.significant_operator_before 0 _ behind hentry hoperator hdigits
  refine ⟨first, others, hfirst, hstart, fun offset => ?_⟩
  obtain ⟨_, _, hfirst', -, hread⟩ :=
    @Lexer.significant_operator_before offset _ behind hentry hoperator hdigits
  cases hfirst.symm.trans hfirst'
  exact hread

end Lexeme

/-- No longer operator starts with a sign of an import, unless the text behind it goes on
with one. -/
theorem length_le_of_importSigns {entry : TokenKind × Char} {behind : List Char}
    (hentry : entry ∈ importSigns)
    (hasterisk : entry.2 = '*' → ∀ c ∈ behind.head?, c ≠ '*' ∧ c ≠ '=')
    (hdots : entry.2 = '.' → ¬['.', '.'] <+: behind) :
    ∀ other ∈ TokenKind.operatorSpellings, other.2.toList <+: entry.2 :: behind →
      other.2.toList.length ≤ 1 := by
  have hlonger : ∀ entry ∈ importSigns, ∀ other ∈ TokenKind.operatorSpellings,
      other.2.toList.head? = some entry.2 → other.2.toList.length ≤ 1 ∨
        entry.2 = '*' ∧ (other.2.toList.tail.head? = some '*' ∨ other.2.toList.tail.head? = some '=') ∨
        entry.2 = '.' ∧ other.2.toList.tail = ['.', '.'] := by
    decide +kernel
  intro other hother hprefix
  have hcases := hlonger entry hentry other hother
  cases htext : other.2.toList with
  | nil => simp
  | cons first others =>
    rw [htext, List.cons_prefix_cons] at hprefix
    obtain ⟨rfl, hprefix⟩ := hprefix
    rw [htext] at hcases
    have hhead : ∀ c, others.head? = some c → behind.head? = some c := by
      intro c hc
      obtain ⟨tail, rfl⟩ := hprefix
      rw [List.head?_append, hc]
      rfl
    rcases hcases rfl with hle | ⟨hc, hsecond⟩ | ⟨hc, hthird⟩
    · exact hle
    · rcases hsecond with hsecond | hsecond
      · exact absurd rfl (hasterisk hc _ (hhead _ hsecond)).1
      · exact absurd rfl (hasterisk hc _ (hhead _ hsecond)).2
    · obtain rfl : others = ['.', '.'] := hthird
      exact absurd hprefix (hdots hc)

/-- Every token of an import is read at the end of a line. -/
theorem Lexeme.InImport.standsBefore_lineFeed {lexeme : Lexeme} (hin : lexeme.InImport) :
    lexeme.StandsBefore ['\n'] := by
  rcases hin.cases with ⟨-, htext, hkind⟩ | ⟨-, sign, hsign, htext⟩
  · exact Lexeme.standsBefore_word htext hkind (by decide) (by decide)
  · have hlongest := @length_le_of_importSigns _ ['\n'] hsign
      (by rintro - _ ⟨⟩; decide) (by simp)
    exact Lexeme.standsBefore_sign hsign htext hlongest fun _ => by decide

/-- The text of tokens starts with a gap or with the first token. -/
theorem Spaced.head {inParens : Bool} {previous next : Lexeme} {lexemes : List Lexeme}
    {text : List Char} (hspaced : Spaced inParens previous (next :: lexemes) text)
    (hnext : next.InImport) :
    ∃ c tail, text = c :: tail ∧ (c ∈ gapChars ∨ previous.runsInto next = false ∧
      (next.isWord ∧ Text.isIdentifierStart c ∨ (next.kind, c) ∈ importSigns)) := by
  cases hspaced with
  | @cons _ _ _ _ _ gap text hgap hapart _ _ =>
    cases gap with
    | cons c gap => exact ⟨c, _, rfl, .inl hgap.mem_gapChars⟩
    | nil =>
      have hjoined : previous.runsInto next = false := by
        simpa using hapart
      rcases hnext.cases with ⟨hword, htext, -⟩ | ⟨-, c, hsign, htext⟩
      · cases hletters : next.text.toList with
        | nil =>
          rw [hletters] at htext
          cases htext
        | cons c letters =>
          rw [hletters, isWordText, Bool.and_eq_true] at htext
          exact ⟨c, letters ++ text, rfl, .inr ⟨hjoined, .inl ⟨hword, htext.1⟩⟩⟩
      · rw [htext]
        exact ⟨c, text, rfl, .inr ⟨hjoined, .inr hsign⟩⟩

/-- A token is read from its text in front of the tokens behind it, unless it is the first of three
dots in a row. -/
theorem Spaced.standsBefore {inParens : Bool} {previous next : Lexeme} {lexemes : List Lexeme}
    {text behind : List Char} (hspaced : Spaced inParens previous (next :: lexemes) text)
    (hprevious : previous.InImport) (hnext : next.InImport)
    (hdots : previous.kind = .dot → ¬['.', '.'] <+: text ++ behind) :
    previous.StandsBefore (text ++ behind) := by
  obtain ⟨c, tail, rfl, hc⟩ := hspaced.head hnext
  have hsigns : ∀ entry ∈ importSigns, Text.isIdentifierContinue entry.2 = false ∧
      isQuote entry.2 = false ∧ entry.2.isDigit = false ∧ entry.2 ≠ '=' := by
    decide +kernel
  rcases hprevious.cases with ⟨hword, htext, hkind⟩ | ⟨-, sign, hsign, htext⟩
  · obtain ⟨hstop, hquote⟩ : Text.isIdentifierContinue c = false ∧ isQuote c = false := by
      rcases hc with hgap | ⟨hjoined, ⟨hother, -⟩ | hother⟩
      · exact ⟨(of_mem_gapChars hgap).1, (of_mem_gapChars hgap).2.1⟩
      · simp [Lexeme.runsInto, hword, hother] at hjoined
      · exact ⟨(hsigns _ hother).1, (hsigns _ hother).2.1⟩
    exact Lexeme.standsBefore_word htext hkind (by simp [hstop]) (by simp [hquote])
  · have hasterisk : sign = '*' → ∀ d ∈ (c :: tail ++ behind).head?, d ≠ '*' ∧ d ≠ '=' := by
      rintro rfl d hd
      obtain rfl : c = d := Option.some.inj hd
      have hstars : ∀ entry ∈ importSigns, entry.2 = '*' → entry.1 = .asterisk := by
        decide
      rcases hc with hgap | ⟨hjoined, ⟨-, hstart⟩ | hother⟩
      · exact ⟨(of_mem_gapChars hgap).2.2.2.2, (of_mem_gapChars hgap).2.2.2.1⟩
      · constructor <;> rintro rfl <;> exact absurd hstart (by decide)
      · refine ⟨?_, (hsigns _ hother).2.2.2⟩
        rintro rfl
        have hfirst : previous.kind = .asterisk := hstars _ hsign rfl
        have hsecond : next.kind = .asterisk := hstars _ hother rfl
        simp [Lexeme.runsInto, hfirst, hsecond] at hjoined
    have hpoints : ∀ entry ∈ importSigns, entry.2 = '.' → entry.1 = .dot := by
      decide
    have hlongest := length_le_of_importSigns hsign hasterisk fun hpoint =>
      hdots (hpoints _ hsign hpoint)
    refine Lexeme.standsBefore_sign hsign htext hlongest fun _ => ?_
    rw [List.cons_append, List.head?_cons, Option.any_some]
    rcases hc with hgap | ⟨-, ⟨-, hstart⟩ | hother⟩
    · simp [(of_mem_gapChars hgap).2.2.1]
    · intro hdigit
      rw [Lexer.isIdentifierStart_eq_false (.inl hdigit)] at hstart
      cases hstart
    · simp [(hsigns _ hother).2.2.1]

/-- The keyword of a relative import is read in front of what is written behind it. -/
theorem RelativeImport.standsBefore_from {written : RelativeImport} {text : List Char}
    (hspaced : Spaced false (.fixed .keywordFrom) written.lexemes text) (behind : List Char) :
    (Lexeme.fixed .keywordFrom).StandsBefore (text ++ behind) := by
  obtain ⟨next, others, hcons⟩ := List.exists_cons_of_ne_nil written.lexemes_ne_nil
  rw [hcons] at hspaced
  exact hspaced.standsBefore (.inl (by decide)) (written.inImport next (by simp [hcons])) nofun

/-- A dot in front of tokens is the first of them. -/
theorem Spaced.of_dot {inParens : Bool} {previous : Lexeme} {lexemes : List Lexeme}
    {text behind : List Char} (hspaced : Spaced inParens previous lexemes text)
    (hin : ∀ lexeme ∈ lexemes, lexeme.InImport) (hne : lexemes ≠ [])
    (hdot : (text ++ behind).head? = some '.') :
    ∃ others rest, lexemes = .fixed .dot :: others ∧ text = '.' :: rest ∧
      Spaced inParens (.fixed .dot) others rest := by
  cases hspaced with
  | nil => exact absurd rfl hne
  | @cons _ inParens' _ next others gap rest hgap _ hstep hrest =>
    cases gap with
    | cons c gap =>
      obtain rfl : c = '.' := Option.some.inj hdot
      exact absurd hgap.mem_gapChars (by decide)
    | nil =>
      rcases (hin next List.mem_cons_self).cases with ⟨-, htext, -⟩ | ⟨-, c, hsign, htext⟩
      · cases hletters : next.text.toList with
        | nil =>
          rw [hletters] at htext
          cases htext
        | cons c letters =>
          rw [hletters] at hdot htext
          obtain rfl : c = '.' := Option.some.inj hdot
          cases htext
      · rw [htext] at hdot ⊢
        obtain rfl : c = '.' := Option.some.inj hdot
        have hpoints : ∀ entry ∈ importSigns, entry.2 = '.' → entry.1 = .dot := by
          decide
        have hkind : next.kind = .dot := hpoints _ hsign rfl
        cases next with
        | name => cases hkind
        | fixed kind =>
          obtain rfl : kind = .dot := hkind
          cases hstep with
          | plain => exact ⟨others, rest, rfl, rfl, hrest⟩

/-- Two dots in front of tokens are the first two of them, if the last token is no dot. -/
theorem Spaced.of_dots {inParens : Bool} {previous : Lexeme} {lexemes : List Lexeme}
    {text behind : List Char} (hspaced : Spaced inParens previous lexemes text)
    (hin : ∀ lexeme ∈ lexemes, lexeme.InImport) (hlast : ∀ last ∈ lexemes.getLast?, last.kind ≠ .dot)
    (hne : lexemes ≠ []) (hdots : ['.', '.'] <+: text ++ behind) :
    ∃ others rest, lexemes = .fixed .dot :: .fixed .dot :: others ∧ text = '.' :: '.' :: rest ∧
      Spaced inParens (.fixed .dot) others rest := by
  obtain ⟨tail, htail⟩ := hdots
  obtain ⟨others, rest, rfl, rfl, hothers⟩ :=
    @Spaced.of_dot _ _ _ _ behind hspaced hin hne (by rw [← htail]; rfl)
  have hbehind : rest ++ behind = '.' :: tail := (List.cons.inj htail).2.symm
  have hne : others ≠ [] := by
    rintro rfl
    exact hlast _ rfl rfl
  obtain ⟨others, rest, rfl, rfl, hrest⟩ :=
    @Spaced.of_dot _ _ _ _ behind hothers (List.forall_mem_cons.mp hin).2 hne (by rw [hbehind]; rfl)
  exact ⟨others, rest, rfl, rfl, hrest⟩

/-! ## Calls -/

namespace Lexer

variable {source : List Char} {lexer entered base : Lexer} {inParens inParens' : Bool}

/-- In front of a token within a line, the lexer reads that token. -/
theorem Reading.read_significant {cursor : Cursor} {c : Char} (hreading : lexer.Reading source)
    (hpending : lexer.pendingDedents = 0) (hentered : lexer.readLineStart = .ok (none, entered))
    (htrivia : skipTrivia (!entered.brackets.isEmpty) entered.cursor = .ok cursor)
    (hpeek : cursor.peek? = some c) (hbreak : cursor.skipLineBreak? = none) :
    lexer.read = ({ entered with cursor } : Lexer).readSignificant c := by
  rcases read_cases hreading with ⟨_, hdedents, -⟩ | ⟨-, hfinds⟩
  · omega
  cases hread : ({ entered with cursor } : Lexer).readSignificant c with
  | ok result =>
    have hwithin := readWithin_of_significant htrivia hpeek hbreak hread
    exact (Finds.token hentered hwithin).unique hfinds
  | error failure =>
    have hwithin : entered.readWithin = .error failure := by
      obtain ⟨rest, offset⟩ := cursor
      cases rest with
      | nil => cases hpeek
      | cons d cs =>
        obtain rfl : d = c := Option.some.inj hpeek
        simp only [readWithin, htrivia, bind, Except.bind, hbreak, hread]
    exact (Finds.failing hentered hwithin).unique hfinds

/-- A lexer behind a token of a line. -/
structure AmidLine (lexer : Lexer) : Prop where
  pendingDedents_eq : lexer.pendingDedents = 0
  lineHasTokens_eq : lexer.lineHasTokens = true
  within : (lexer.atLineStart && lexer.brackets.isEmpty) = false

/-- A lexer has moved on within a line, where it may have opened a parenthesis. -/
def MovedTo (base : Lexer) (inParens : Bool) (cursor : Cursor) (lexer : Lexer) : Prop :=
  ∃ opened : List (TokenKind × Span),
    lexer = { base with cursor, brackets := opened ++ base.brackets } ∧
      opened.map Prod.fst = if inParens then [.parenthesisOpen] else []

/-- A lexer has moved to where it stands. -/
theorem MovedTo.refl (base : Lexer) : base.MovedTo false base.cursor base :=
  ⟨[], rfl, rfl⟩

variable {gap rest behind : List Char} {offset : Nat}

/-- Behind a gap the lexer reads the token that stands there. -/
theorem AmidLine.read_eq {first : Char} (hbase : base.AmidLine)
    (hmoved : base.MovedTo inParens ⟨gap ++ first :: rest, offset⟩ lexer)
    (hreading : lexer.Reading source) (hgap : IsGap inParens gap) (hstart : StartsLexeme first) :
    lexer.read = ({ lexer with
      cursor := ⟨first :: rest, offset + Text.byteLength gap⟩ } : Lexer).readSignificant first := by
  obtain ⟨opened, rfl, hopened⟩ := hmoved
  have hbase' := hbase.within
  refine hreading.read_significant hbase.pendingDedents_eq ?_ (hgap.skipTrivia ?_ hstart) rfl ?_
  · cases opened with
    | nil => exact if_neg (by simpa using hbase')
    | cons => exact if_neg (by simp)
  · rintro rfl
    cases opened with
    | nil => cases hopened
    | cons => rfl
  · simp [Cursor.skipLineBreak?, hstart.ne_lineFeed, hstart.ne_carriageReturn]

/-- A token that is no bracket changes no open brackets. -/
theorem trackBrackets_plain {kind : TokenKind} (hplain : kind.IsPlain)
    (brackets : List (TokenKind × Span)) (span : Span) (stop : Cursor) :
    trackBrackets brackets kind span stop = .ok brackets := by
  unfold trackBrackets
  rw [if_neg hplain.2.1, if_neg hplain.2.2]

/-- A parenthesis that is opened is put in front, and the one in front is closed. -/
theorem trackBrackets_parenStep {kind : TokenKind} {opened outer : List (TokenKind × Span)}
    (hopened : opened.map Prod.fst = if inParens then [.parenthesisOpen] else [])
    (hstep : ParenStep inParens kind inParens') (span : Span) (stop : Cursor) :
    ∃ opened', trackBrackets (opened ++ outer) kind span stop = .ok (opened' ++ outer) ∧
      opened'.map Prod.fst = if inParens' then [.parenthesisOpen] else [] := by
  cases hstep with
  | opening => exact ⟨(.parenthesisOpen, span) :: opened, rfl, by simpa using hopened⟩
  | closing =>
    obtain ⟨⟨_, place⟩, rfl, rfl⟩ : ∃ bracket, opened = [bracket] ∧ bracket.1 = .parenthesisOpen := by
      simpa using hopened
    exact ⟨[], rfl, rfl⟩
  | plain hplain => exact ⟨opened, trackBrackets_plain hplain _ _ _, hopened⟩

/-- A written token is read where it stands. -/
theorem readSignificant_lexeme {lexeme : Lexeme} {first : Char} {brackets : List (TokenKind × Span)}
    (hcursor : lexer.cursor = ⟨lexeme.text.toList ++ behind, offset⟩)
    (hread : significant first ⟨lexeme.text.toList ++ behind, offset⟩ =
      .ok (lexeme.kind, ⟨behind, offset + Text.byteLength lexeme.text.toList⟩))
    (htrack : trackBrackets lexer.brackets lexeme.kind
      ⟨offset, offset + Text.byteLength lexeme.text.toList⟩
      ⟨behind, offset + Text.byteLength lexeme.text.toList⟩ = .ok brackets) :
    lexer.readSignificant first = .ok
      (⟨lexeme.kind, ⟨offset, offset + Text.byteLength lexeme.text.toList⟩, lexeme.text⟩,
        { lexer with
          cursor := ⟨behind, offset + Text.byteLength lexeme.text.toList⟩
          brackets
          lineHasTokens := true }) := by
  have hpasses : (⟨lexeme.text.toList ++ behind, offset⟩ : Cursor).Passes lexeme.text.toList
      ⟨behind, offset + Text.byteLength lexeme.text.toList⟩ :=
    ⟨rfl, rfl⟩
  simp only [readSignificant, hcursor, hread, htrack, bind, Except.bind, pure, Except.pure,
    hpasses.textTo_eq, String.ofList_toList]

/-- A written token is what the lexer answers next. -/
theorem AmidLine.next_lexeme {lexeme : Lexeme} (hbase : base.AmidLine)
    (hmoved : base.MovedTo inParens ⟨gap ++ (lexeme.text.toList ++ behind), offset⟩ lexer)
    (hreading : lexer.Reading source) (hgap : IsGap inParens gap)
    (hstep : ParenStep inParens lexeme.kind inParens') (hstands : lexeme.StandsBefore behind) :
    lexer.next.1.kind = lexeme.kind ∧ lexer.next.1.text = lexeme.text ∧
      base.MovedTo inParens'
        ⟨behind, offset + Text.byteLength gap + Text.byteLength lexeme.text.toList⟩ lexer.next.2 := by
  obtain ⟨first, others, htext, hstart, hread⟩ := hstands
  rw [htext, List.cons_append] at hmoved
  have hnext := hbase.read_eq hmoved hreading hgap hstart
  obtain ⟨opened, rfl, hopened⟩ := hmoved
  obtain ⟨opened', htrack, hopened'⟩ := trackBrackets_parenStep hopened hstep _ _
  rw [readSignificant_lexeme (by rw [htext]; rfl) (hread _) htrack] at hnext
  rw [hreading.next_eq hnext]
  refine ⟨rfl, rfl, opened', ?_, hopened'⟩
  simp [hbase.lineHasTokens_eq]

end Lexer

/-- Three dots are read as one token in front of any text. -/
theorem standsBefore_dotDotDot (behind : List Char) : (Lexeme.fixed .dotDotDot).StandsBefore behind := by
  have hentry : (TokenKind.dotDotDot, "...") ∈ TokenKind.operatorSpellings := by decide
  have hlonger : ∀ other ∈ TokenKind.operatorSpellings, other.2.toList.head? = some '.' →
      other.2.length ≤ 3 := by
    decide +kernel
  have hoperator : TokenKind.longestOperator? ("...".toList ++ behind) =
      some (.dotDotDot, "...") := by
    refine TokenKind.longestOperator?_eq hentry (List.prefix_append ..) fun other hother hprefix => ?_
    cases htext : other.2.toList with
    | nil => simp [← String.length_toList, htext]
    | cons c others =>
      rw [htext] at hprefix
      obtain ⟨rfl, -⟩ := List.cons_prefix_cons.mp hprefix
      exact hlonger other hother (by rw [htext]; rfl)
  obtain ⟨first, others, hfirst, hstart, -⟩ :=
    @Lexer.significant_operator_before 0 _ behind hentry hoperator nofun
  refine ⟨first, others, hfirst, hstart, fun offset => ?_⟩
  obtain ⟨_, _, hfirst', -, hread⟩ :=
    @Lexer.significant_operator_before offset _ behind hentry hoperator nofun
  cases hfirst.symm.trans hfirst'
  exact hread

namespace Tokens

variable {source : String} {base : Lexer} {inParens : Bool} {previous : Lexeme}
  {lexemes : List Lexeme} {text behind : List Char} {index offset : Nat}

/-- The token at an index is a written one, if the lexer is about to read that. -/
theorem get_of_next {lexeme : Lexeme}
    (hkind : ((Lexer.ofSource source).after index).next.1.kind = lexeme.kind)
    (htext : ((Lexer.ofSource source).after index).next.1.text = lexeme.text)
    (hend : lexeme.kind ≠ .endOfInput) :
    index < (ofSource source).tokens.size ∧ ((ofSource source).get index).kind = lexeme.kind ∧
      ((ofSource source).get index).text = lexeme.text := by
  rw [← get_ofSource_eq_next] at hkind htext
  refine ⟨Nat.lt_of_not_le fun hle => hend ?_, hkind, htext⟩
  rw [← hkind]
  exact (kind_ofSource_eq_endOfInput_iff source index).mpr (Nat.le_succ_of_le hle)

/-- Where the lexer stands in front of the token at an index. -/
structure StandsAt (source : String) (base : Lexer) (inParens : Bool) (cursor : Cursor)
    (index : Nat) : Prop where
  moved : base.MovedTo inParens cursor ((Lexer.ofSource source).after index)
  reading : ((Lexer.ofSource source).after index).Reading source.toList

/-- A written token is the one at an index, and the lexer goes on behind it. -/
theorem StandsAt.next_lexeme {inParens' : Bool} {lexeme : Lexeme} {gap : List Char}
    (hbase : base.AmidLine)
    (hstands : StandsAt source base inParens ⟨gap ++ (lexeme.text.toList ++ behind), offset⟩ index)
    (hgap : IsGap inParens gap) (hstep : ParenStep inParens lexeme.kind inParens')
    (hlexeme : lexeme.StandsBefore behind) (hsolid : lexeme.kind.IsSolid) :
    (index < (ofSource source).tokens.size ∧ ((ofSource source).get index).kind = lexeme.kind ∧
        ((ofSource source).get index).text = lexeme.text) ∧
      StandsAt source base inParens'
        ⟨behind, offset + Text.byteLength (gap ++ lexeme.text.toList)⟩ (index + 1) := by
  obtain ⟨hkind, htext, hmoved⟩ := hbase.next_lexeme hstands.moved hstands.reading hgap hstep hlexeme
  refine ⟨get_of_next hkind htext hsolid.2.1, ?_, ?_⟩
  · rwa [Lexer.after_succ, Text.byteLength_append, ← Nat.add_assoc]
  · rw [Lexer.after_succ]
    exact hstands.reading.next_reading (by rw [hkind]; exact hsolid.2.2)

/-- The tokens of an import are made of text. -/
theorem isSolid_of_inImport {lexeme : Lexeme} (hin : lexeme.InImport) : lexeme.kind.IsSolid := by
  have hkeywords : ∀ kind ∈ importKeywords, kind.IsSolid := by decide
  have hsigns : ∀ kind ∈ importSigns.map Prod.fst, kind.IsSolid := by decide
  cases lexeme with
  | name => exact (by decide : TokenKind.identifier.IsSolid)
  | fixed kind => exact hin.elim (hkeywords kind) (hsigns kind)

/-- Spaced tokens are read with the dots in groups, if the last token is read in front of what
follows it. -/
theorem spells_of_spaced {stop : Nat} (hbase : base.AmidLine)
    (hspaced : Spaced inParens previous lexemes text)
    (hstands : StandsAt source base inParens ⟨text ++ behind, offset⟩ index)
    (hstop : offset + Text.byteLength text = stop) (hin : ∀ lexeme ∈ lexemes, lexeme.InImport)
    (hlast : ∀ last ∈ lexemes.getLast?, last.kind ≠ .dot ∧ ∀ {index offset inParens gap},
      StandsAt source base inParens ⟨gap ++ (last.text.toList ++ behind), offset⟩ index →
      IsGap inParens gap → offset + Text.byteLength (gap ++ last.text.toList) = stop →
        last.StandsBefore behind) :
    ∃ grouped, Grouped lexemes grouped ∧
      (ofSource source).Spells index (index + grouped.length) grouped ∧
      StandsAt source base false ⟨behind, stop⟩ (index + grouped.length) := by
  induction hlength : lexemes.length using Nat.strong_induction_on
    generalizing inParens previous lexemes text index offset with
  | _ length ih =>
  subst hlength
  cases hspaced with
  | nil => exact ⟨[], .nil, rfl, hstop ▸ hstands⟩
  | @cons _ inParens' _ lexeme others gap text hgap _ hstep hrest =>
    rw [List.append_assoc, List.append_assoc] at hstands
    rw [← List.append_assoc, Text.byteLength_append, ← Nat.add_assoc] at hstop
    have hothers := (List.forall_mem_cons.mp hin).2
    have hlater : ∀ last, others.getLast? = some last → (lexeme :: others).getLast? = some last := by
      intro last hsome
      rw [List.getLast?_cons, hsome, Option.getD_some]
    by_cases hthree : lexeme.kind = .dot ∧ ['.', '.'] <+: text ++ behind
    · obtain ⟨hdot, hdots⟩ := hthree
      have hne : others ≠ [] := by
        rintro rfl
        exact (hlast lexeme rfl).1 hdot
      obtain ⟨others, rest, rfl, rfl, hbehindDots⟩ :=
        hrest.of_dots hothers (fun last hsome => (hlast last (hlater last hsome)).1) hne hdots
      obtain rfl : lexeme = .fixed .dot := by
        cases lexeme with
        | name => cases hdot
        | fixed kind => exact congrArg Lexeme.fixed hdot
      obtain rfl : inParens' = inParens := by
        cases hstep with
        | plain => rfl
      have hlength : offset + Text.byteLength (gap ++ (Lexeme.fixed .dotDotDot).text.toList) +
          Text.byteLength rest = stop := by
        have hone : Text.byteLength (Lexeme.fixed .dot).text.toList = 1 := by decide
        have hthree : Text.byteLength (Lexeme.fixed .dotDotDot).text.toList = 3 := by decide
        have hsize : '.'.utf8Size = 1 := rfl
        rw [Text.byteLength_append, hone, Text.byteLength_cons, Text.byteLength_cons, hsize] at hstop
        rw [Text.byteLength_append, hthree]
        omega
      obtain ⟨hget, hbehind⟩ := @StandsAt.next_lexeme _ _ _ (rest ++ behind) _ _ inParens'
        (.fixed .dotDotDot) gap hbase hstands hgap (.plain (by decide)) (standsBefore_dotDotDot _)
        (by decide)
      obtain ⟨grouped, hgrouped, hspells, hend⟩ := ih others.length
        (Nat.lt_add_of_pos_right (show 0 < 3 by decide)) hbehindDots hbehind hlength
        (List.forall_mem_cons.mp (List.forall_mem_cons.mp hothers).2).2
        (fun last hsome => hlast last (hlater last (by
          rw [List.getLast?_cons, List.getLast?_cons, hsome]
          rfl))) rfl
      rw [Nat.add_assoc, Nat.add_comm 1] at hspells hend
      exact ⟨_, .three hgrouped, ⟨hget.1, hget.2.1, hget.2.2, hspells⟩, hend⟩
    · have hlexeme : lexeme.StandsBefore (text ++ behind) := by
        cases others with
        | nil =>
          cases hrest
          exact (hlast lexeme rfl).2 hstands hgap hstop
        | cons next others =>
          exact hrest.standsBefore (hin lexeme List.mem_cons_self) (hin next (by simp))
            fun hdot => not_and.mp hthree hdot
      obtain ⟨hget, hbehind⟩ := hstands.next_lexeme hbase hgap hstep hlexeme
        (isSolid_of_inImport (hin lexeme List.mem_cons_self))
      obtain ⟨grouped, hgrouped, hspells, hend⟩ := ih others.length (Nat.lt_succ_self _) hrest hbehind
        hstop hothers (fun last hsome => hlast last (hlater last hsome)) rfl
      rw [Nat.add_assoc, Nat.add_comm 1] at hspells hend
      exact ⟨lexeme :: grouped, .single hgrouped, ⟨hget.1, hget.2.1, hget.2.2, hspells⟩, hend⟩

end Tokens

end PythonOutline
