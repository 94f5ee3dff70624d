import Mathlib.Data.List.Basic
import PythonOutline.Proofs.Lexer.Tiling
import PythonOutline.Proofs.Operator.Syntax

/-! # Lexing written tokens

Tokens that are written with single spaces between them are read back as they were written: a space
or a line break ends every word and every operator. Parentheses are the only brackets among them, so
the lexer is followed by how many of them are open.
-/

namespace PythonOutline

/-- A character that ends words and operators. -/
def EndsLexeme (c : Char) : Prop :=
  c = ' ' ∨ c = '\n'

/-- A character that a token may start with, behind blanks and at the start of a line. -/
structure StartsLexeme (c : Char) : Prop where
  ne_lineFeed : c ≠ '\n'
  ne_carriageReturn : c ≠ '\r'
  not_blank : Text.blanks.contains c = false
  ne_comment : c ≠ '#'
  ne_join : c ≠ '\\'
  ne_byteOrderMark : c ≠ Lexer.byteOrderMark

/-- No lexeme starts with a blank. -/
theorem StartsLexeme.ne_blanks {c : Char} (hstart : StartsLexeme c) :
    c ≠ ' ' ∧ c ≠ '\t' ∧ c ≠ '\x0c' := by
  have hne : ∀ other, Text.blanks.contains other = true → c ≠ other := by
    rintro other hother rfl
    rw [hstart.not_blank] at hother
    cases hother
  exact ⟨hne _ (by decide), hne _ (by decide), hne _ (by decide)⟩

/-- Whether a text is a word. -/
def isWordText : List Char → Bool
  | [] => false
  | c :: cs => Text.isIdentifierStart c && cs.all Text.isIdentifierContinue

/-- The first character of an identifier may start a lexeme. -/
theorem startsLexeme_of_isIdentifierStart {c : Char} (hstart : Text.isIdentifierStart c) :
    StartsLexeme c := by
  have hne : ∀ other, Text.isIdentifierStart other = false → c ≠ other := by
    rintro other hother rfl
    rw [hstart] at hother
    cases hother
  refine ⟨hne _ (by decide), hne _ (by decide), ?_, hne _ (by decide), hne _ (by decide),
    hne _ (by decide +kernel)⟩
  refine Bool.eq_false_iff.mpr fun hblank => ?_
  rcases Text.blanks_contains_iff.mp hblank with rfl | rfl | rfl <;> exact absurd hstart (by decide)

namespace Lexer

variable {c : Char} {text tail : List Char} {offset : Nat}

/-- A word is read up to a text that does not go on with it and makes no string literal of it. -/
theorem significant_word_before {behind : List Char} (hword : isWordText text)
    (hstop : ¬behind.head?.any Text.isIdentifierContinue) (hquote : ¬behind.head?.any isQuote) :
    ∃ first others, text = first :: others ∧ StartsLexeme first ∧
      significant first ⟨text ++ behind, offset⟩ =
        .ok ((TokenKind.keyword? (String.ofList text)).getD .identifier,
          ⟨behind, offset + Text.byteLength text⟩) := by
  cases text with
  | nil => cases hword
  | cons first others =>
    simp only [isWordText, Bool.and_eq_true, List.all_eq_true] at hword
    refine ⟨first, others, rfl, startsLexeme_of_isIdentifierStart hword.1, ?_⟩
    have hcontinue : ∀ d ∈ first :: others, Text.isIdentifierContinue d := by
      intro d hd
      rcases List.mem_cons.mp hd with rfl | hd
      · exact Text.isIdentifierContinue_of_start hword.1
      · exact hword.2 d hd
    have hbehind : behind.takeWhile Text.isIdentifierContinue = [] := by
      cases behind with
      | nil => rfl
      | cons c tail => exact List.takeWhile_cons_of_neg (by simpa using hstop)
    have htake : ((first :: others) ++ behind).takeWhile Text.isIdentifierContinue =
        first :: others := by
      rw [List.takeWhile_append_of_pos hcontinue, hbehind, List.append_nil]
    have hpasses := Cursor.passes_skipWhile ⟨(first :: others) ++ behind, offset⟩
      Text.isIdentifierContinue
    rw [htake] at hpasses
    rw [significant, if_pos hword.1, word, hpasses.textTo_eq, hpasses.eq]
    simp [Cursor.peek?, hquote]

/-- A word is read up to the character that ends it. -/
theorem significant_word (hword : isWordText text) (hend : EndsLexeme c) :
    ∃ first others, text = first :: others ∧ StartsLexeme first ∧
      significant first ⟨text ++ c :: tail, offset⟩ =
        .ok ((TokenKind.keyword? (String.ofList text)).getD .identifier,
          ⟨c :: tail, offset + Text.byteLength text⟩) := by
  refine significant_word_before hword ?_ ?_ <;> rw [List.head?_cons, Option.any_some] <;>
    rcases hend with rfl | rfl <;> decide

/-- A text without a character is found in front of it. -/
theorem isPrefixOf_append {spelling : List Char} (hnot : c ∉ spelling) :
    spelling.isPrefixOf (text ++ c :: tail) = spelling.isPrefixOf text := by
  induction spelling generalizing text with
  | nil => simp
  | cons d spelling ih =>
    have hne : (d == c) = false :=
      beq_eq_false_iff_ne.mpr fun heq => hnot (heq ▸ List.mem_cons_self ..)
    cases text with
    | nil => simp [List.isPrefixOf, hne]
    | cons e text =>
      rw [List.cons_append, List.isPrefixOf, List.isPrefixOf,
        ih fun hmem => hnot (List.mem_cons_of_mem _ hmem)]

/-- The character that ends an operator does not make it longer. -/
theorem longestOperator?_append (hend : EndsLexeme c) :
    TokenKind.longestOperator? (text ++ c :: tail) = TokenKind.longestOperator? text := by
  have hnot : ∀ entry ∈ TokenKind.operatorSpellings, c ∉ entry.2.toList := by
    rcases hend with rfl | rfl <;> decide +kernel
  unfold TokenKind.longestOperator?
  refine List.foldl_ext _ _ _ fun best entry hentry => ?_
  rw [isPrefixOf_append (hnot entry hentry)]

/-- Whether a text can only be the start of an operator: neither a word nor a number nor a string
may start like it. -/
def opensOperator : List Char → Bool
  | [] => false
  | first :: others =>
    !Text.isIdentifierStart first && !first.isDigit &&
      !(first == '.' && others.head?.any Char.isDigit) && !isQuote first && first != '\n' &&
      first != '\r' && !Text.blanks.contains first && first != '#' && first != '\\' &&
      first != byteOrderMark

/-- An operator is read up to a text that makes no longer operator of it, and no number of
a point. -/
theorem significant_operator_before {entry : TokenKind × String} {behind : List Char}
    (hentry : entry ∈ TokenKind.operatorSpellings)
    (hlongest : TokenKind.longestOperator? (entry.2.toList ++ behind) = some entry)
    (hdigits : entry.1 = .dot → ¬behind.head?.any Char.isDigit) :
    ∃ first others, entry.2.toList = first :: others ∧ StartsLexeme first ∧
      significant first ⟨entry.2.toList ++ behind, offset⟩ =
        .ok (entry.1, ⟨behind, offset + Text.byteLength entry.2.toList⟩) := by
  have hopens : ∀ entry ∈ TokenKind.operatorSpellings, opensOperator entry.2.toList := by
    decide +kernel
  have hpoint : ∀ entry ∈ TokenKind.operatorSpellings, entry.2.toList = ['.'] → entry.1 = .dot := by
    decide +kernel
  have hfirst := hopens entry hentry
  have hpasses := Cursor.passes_advanceBy ⟨entry.2.toList ++ behind, offset⟩ entry.2.length
  rw [← String.length_toList, List.take_left] at hpasses
  have hdot := hpoint entry hentry
  cases htext : entry.2.toList with
  | nil =>
    rw [htext] at hfirst
    cases hfirst
  | cons first others =>
    rw [htext] at hfirst hdot
    simp only [opensOperator, Bool.and_eq_true, Bool.not_eq_true', bne_iff_ne, ne_eq] at hfirst
    obtain ⟨⟨⟨⟨⟨⟨⟨⟨⟨hword, hdigit⟩, hfraction⟩, hquote⟩, hfeed⟩, hreturn⟩, hblank⟩, hcomment⟩,
      hjoin⟩, hmark⟩ := hfirst
    refine ⟨first, others, rfl, ⟨hfeed, hreturn, hblank, hcomment, hjoin, hmark⟩, ?_⟩
    have hnumber : ¬(first.isDigit || first = '.' &&
        (Cursor.advance ⟨first :: others ++ behind, offset⟩).peek?.any Char.isDigit) = true := by
      rw [hdigit, Bool.false_or, Bool.and_eq_true, decide_eq_true_eq]
      rintro ⟨rfl, hany⟩
      cases others with
      | nil => exact hdigits (hdot rfl) hany
      | cons second others =>
        rw [beq_self_eq_true, Bool.true_and] at hfraction
        exact absurd (hfraction.symm.trans hany) Bool.false_ne_true
    rw [htext] at hlongest hpasses
    rw [significant, if_neg (by simp [hword]), if_neg hnumber, if_neg (by simp [hquote]), operator,
      hlongest]
    dsimp only
    rw [← String.length_toList, htext, hpasses.eq]

/-- An operator is read up to the character that ends it. -/
theorem significant_operator {entry : TokenKind × String}
    (hentry : entry ∈ TokenKind.operatorSpellings) (hend : EndsLexeme c) :
    ∃ first others, entry.2.toList = first :: others ∧ StartsLexeme first ∧
      significant first ⟨entry.2.toList ++ c :: tail, offset⟩ =
        .ok (entry.1, ⟨c :: tail, offset + Text.byteLength entry.2.toList⟩) := by
  have hlongest : ∀ entry ∈ TokenKind.operatorSpellings,
      TokenKind.longestOperator? entry.2.toList = some entry := by
    decide +kernel
  refine significant_operator_before hentry ?_ fun _ => ?_
  · rw [longestOperator?_append hend]
    exact hlongest entry hentry
  · rw [List.head?_cons, Option.any_some]
    rcases hend with rfl | rfl <;> decide

end Lexer

/-! ## Written tokens -/

/-- Whether a kind of token other than an identifier may occur in an operator expression. -/
def writesOperators (kind : TokenKind) : Bool :=
  (Operator.unary? kind).isSome || (Operator.binary? kind).isSome ||
    (Operator.comparison? kind).isSome ||
    [.asteriskAsterisk, .keywordAnd, .keywordAwait, .keywordElse, .keywordIf, .keywordNot, .keywordOr,
      .parenthesisClose, .parenthesisOpen].contains kind

/-- A token that may occur in an operator expression. -/
def Lexeme.IsUsed : Lexeme → Prop
  | .name _ => True
  | .fixed kind => writesOperators kind

/-- A kind of tokens that does not occur in operator expressions is not that of one which does. -/
theorem Lexeme.IsUsed.kind_ne {lexeme : Lexeme} {other : TokenKind} (hused : lexeme.IsUsed)
    (hother : (other == .identifier || writesOperators other) = false) : lexeme.kind ≠ other := by
  rintro rfl
  cases lexeme with
  | name => cases hother
  | fixed kind =>
    have hkind : writesOperators kind = true := hused
    simp [Lexeme.kind, hkind] at hother

/-- The spelling of an operator or a keyword is that of its kind. -/
theorem Lexeme.spelling {kind : TokenKind} (hused : writesOperators kind) :
    (kind, (Lexeme.fixed kind).text) ∈ TokenKind.operatorSpellings ∨
      isWordText (Lexeme.fixed kind).text.toList ∧
        TokenKind.keyword? (Lexeme.fixed kind).text = some kind := by
  cases kind <;> first | (exact absurd hused (by decide)) | (left; decide +kernel) |
    (right; decide +kernel)

variable {c : Char} {tail : List Char} {offset : Nat}

/-- A written token is read up to the character that ends it. -/
theorem Lexeme.significant {lexeme : Lexeme} (hused : lexeme.IsUsed) (hend : EndsLexeme c) :
    ∃ first others, lexeme.text.toList = first :: others ∧ StartsLexeme first ∧
      Lexer.significant first ⟨lexeme.text.toList ++ c :: tail, offset⟩ =
        .ok (lexeme.kind, ⟨c :: tail, offset + Text.byteLength lexeme.text.toList⟩) := by
  cases lexeme with
  | name identifier =>
    have hword : isWordText (Lexeme.name identifier).text.toList := by
      simp [Lexeme.text, Identifier.text, isWordText, identifier.first_isStart]
      exact identifier.others_continue
    obtain ⟨first, others, htext, hstart, hread⟩ := Lexer.significant_word hword hend
    refine ⟨first, others, htext, hstart, hread.trans ?_⟩
    have hkeyword : TokenKind.keyword? (String.ofList (Lexeme.name identifier).text.toList) =
        none := by
      simpa [Lexeme.text, Identifier.text] using identifier.not_keyword
    rw [hkeyword]
    rfl
  | fixed kind =>
    rcases Lexeme.spelling hused with hentry | ⟨hword, hkeyword⟩
    · exact Lexer.significant_operator hentry hend
    · obtain ⟨first, others, htext, hstart, hread⟩ := Lexer.significant_word hword hend
      refine ⟨first, others, htext, hstart, hread.trans ?_⟩
      rw [String.ofList_toList, hkeyword]
      rfl

/-! ## Runs of the lexer -/

/-- How many parentheses are open behind some tokens, if none is closed that was not opened. -/
def openParens (depth : Nat) : List TokenKind → Option Nat
  | [] => some depth
  | kind :: kinds =>
    if kind = .parenthesisOpen then openParens (depth + 1) kinds
    else if kind = .parenthesisClose then
      match depth with
      | 0 => none
      | depth + 1 => openParens depth kinds
    else openParens depth kinds

namespace Lexer

/-- The lexer stands in the only line of a source, with a number of parentheses open. It has read a
token of the line, or it is about to read the first. -/
structure Amid (lexer : Lexer) (started : Bool) (rest : List Char) (depth : Nat) : Prop where
  rest_eq : lexer.cursor.rest = rest
  levels_eq : lexer.levels = []
  pendingDedents_eq : lexer.pendingDedents = 0
  brackets_eq : lexer.brackets.map Prod.fst = List.replicate depth .parenthesisOpen
  atLineStart_eq : lexer.atLineStart = !started
  lineHasTokens_eq : lexer.lineHasTokens = started
  failure_eq : lexer.failure = none
  started_or : started ∨ depth = 0

variable {lexer : Lexer} {started : Bool} {rest : List Char} {depth : Nat}

/-- Nothing is skipped in front of a lexeme. -/
theorem skipTriviaFrom_startsLexeme {inBrackets : Bool} {first : Char}
    (hstart : StartsLexeme first) :
    skipTriviaFrom inBrackets false (first :: rest) offset = .ok ⟨first :: rest, offset⟩ := by
  unfold skipTriviaFrom
  simp [hstart.ne_lineFeed, hstart.ne_carriageReturn, hstart.not_blank, hstart.ne_comment,
    hstart.ne_join]

/-- At most one space in front of a token is passed over. -/
theorem skipTrivia_gap {inBrackets : Bool} {gap : List Char} {first : Char}
    (hgap : gap = [] ∨ gap = [' ']) (hstart : StartsLexeme first) :
    skipTrivia inBrackets ⟨gap ++ first :: rest, offset⟩ =
      .ok ⟨first :: rest, offset + gap.length⟩ := by
  have hspace : Text.blanks.contains ' ' = true := by decide
  rcases hgap with rfl | rfl
  · exact skipTriviaFrom_startsLexeme hstart
  · rw [skipTrivia, List.cons_append, List.nil_append]
    unfold skipTriviaFrom
    simp only [hspace]
    exact skipTriviaFrom_startsLexeme hstart

/-- A line that starts with a token is not indented. -/
theorem readIndentation_startsLexeme {first : Char} (hstart : StartsLexeme first)
    (hrest : lexer.cursor.rest = first :: rest) (hlevels : lexer.levels = []) :
    lexer.readIndentation = .ok (none, { lexer with atLineStart := false }) := by
  have hfind : LineStart.find lexer.cursor = .line lexer.cursor.offset .zero lexer.cursor := by
    have hcursor : lexer.cursor = ⟨first :: rest, lexer.cursor.offset⟩ := by
      rw [← hrest]
    rw [hcursor]
    simp [LineStart.find, LineStart.findFrom, hstart.ne_lineFeed, hstart.ne_carriageReturn,
      hstart.ne_blanks, hstart.ne_comment]
  simp [readIndentation, hfind, hlevels, IndentChange.of, IndentWidth.zero]

/-- The open brackets behind a token are told by how many parentheses are open. -/
theorem trackBrackets_openParens {brackets : List (TokenKind × Span)} {lexeme : Lexeme}
    {kinds : List TokenKind} {final : Nat} (hused : lexeme.IsUsed)
    (hbrackets : brackets.map Prod.fst = List.replicate depth .parenthesisOpen)
    (hopen : openParens depth (lexeme.kind :: kinds) = some final) (span : Span) (stop : Cursor) :
    ∃ behind depth', trackBrackets brackets lexeme.kind span stop = .ok behind ∧
      behind.map Prod.fst = List.replicate depth' .parenthesisOpen ∧
      openParens depth' kinds = some final := by
  by_cases hopens : lexeme.kind = .parenthesisOpen
  · rw [hopens] at hopen ⊢
    exact ⟨(.parenthesisOpen, span) :: brackets, depth + 1, rfl,
      by rw [List.map_cons, hbrackets, List.replicate_succ], hopen⟩
  by_cases hcloses : lexeme.kind = .parenthesisClose
  · rw [hcloses] at hopen ⊢
    cases depth with
    | zero => cases hopen
    | succ depth =>
      cases brackets with
      | nil => cases hbrackets
      | cons innermost brackets =>
        obtain ⟨opened, place⟩ := innermost
        rw [List.map_cons, List.replicate_succ, List.cons.injEq] at hbrackets
        obtain ⟨rfl, hbrackets⟩ := hbrackets
        exact ⟨brackets, depth, rfl, hbrackets, hopen⟩
  · have hother : lexeme.kind.isOpenBracket = false ∧ lexeme.kind.isCloseBracket = false := by
      cases lexeme with
      | name => exact ⟨rfl, rfl⟩
      | fixed kind =>
        cases kind <;> first | exact ⟨rfl, rfl⟩ | contradiction
    refine ⟨brackets, depth, ?_, hbrackets, ?_⟩
    · simp [trackBrackets, hother]
    · simpa [openParens, hopens, hcloses] using hopen

/-- A token that is written behind at most one space is read within a line. -/
theorem readWithin_lexeme {lexeme : Lexeme} {gap : List Char} {kinds : List TokenKind} {final : Nat}
    (hrest : lexer.cursor.rest = gap ++ (lexeme.text.toList ++ c :: tail))
    (hgap : gap = [] ∨ gap = [' '])
    (hbrackets : lexer.brackets.map Prod.fst = List.replicate depth .parenthesisOpen)
    (hused : lexeme.IsUsed) (hend : EndsLexeme c)
    (hopen : openParens depth (lexeme.kind :: kinds) = some final) :
    ∃ token offset brackets depth',
      lexer.readWithin = .ok (some token, { lexer with
        cursor := ⟨c :: tail, offset⟩, brackets, lineHasTokens := true }) ∧
      token.kind = lexeme.kind ∧ token.text = lexeme.text ∧
      brackets.map Prod.fst = List.replicate depth' .parenthesisOpen ∧
      openParens depth' kinds = some final := by
  obtain ⟨first, others, htext, hstart, hread⟩ :=
    @Lexeme.significant c tail (lexer.cursor.offset + gap.length) lexeme hused hend
  rw [htext, List.cons_append] at hrest hread
  have hskip : skipTrivia (!lexer.brackets.isEmpty) lexer.cursor =
      .ok ⟨first :: (others ++ c :: tail), lexer.cursor.offset + gap.length⟩ := by
    have hgapped := @skipTrivia_gap lexer.cursor.offset (others ++ c :: tail)
      (!lexer.brackets.isEmpty) gap first hgap hstart
    rw [← hrest] at hgapped
    exact hgapped
  generalize lexer.cursor.offset + gap.length = start at hread hskip
  have hbreak : (⟨first :: (others ++ c :: tail), start⟩ : Cursor).skipLineBreak? = none := by
    simp [Cursor.skipLineBreak?, hstart.ne_lineFeed, hstart.ne_carriageReturn]
  have hpasses : (⟨first :: (others ++ c :: tail), start⟩ : Cursor).Passes lexeme.text.toList
      ⟨c :: tail, start + Text.byteLength lexeme.text.toList⟩ :=
    ⟨by rw [htext]; rfl, rfl⟩
  obtain ⟨brackets, depth', htrack, hbehind, hopen'⟩ :=
    trackBrackets_openParens hused hbrackets hopen
      ⟨start, start + Text.byteLength lexeme.text.toList⟩
      ⟨c :: tail, start + Text.byteLength lexeme.text.toList⟩
  rw [← htext] at hread
  refine ⟨⟨lexeme.kind, ⟨start, start + Text.byteLength lexeme.text.toList⟩, lexeme.text⟩,
    start + Text.byteLength lexeme.text.toList, brackets, depth', ?_, rfl, rfl, hbehind, hopen'⟩
  simp only [readWithin, hskip, bind, Except.bind, hbreak, readSignificant, hread, htrack, pure,
    Except.pure, hpasses.textTo_eq, String.ofList_toList]

/-- The lexer reads a token that is written behind at most one space. -/
theorem Amid.next_lexeme {lexeme : Lexeme} {gap : List Char} {kinds : List TokenKind} {final : Nat}
    (hamid : lexer.Amid started (gap ++ (lexeme.text.toList ++ c :: tail)) depth)
    (hused : lexeme.IsUsed) (hend : EndsLexeme c) (hgap : gap = if started then [' '] else [])
    (hopen : openParens depth (lexeme.kind :: kinds) = some final) :
    ∃ depth', lexer.next.1.kind = lexeme.kind ∧ lexer.next.1.text = lexeme.text ∧
      lexer.next.2.Amid true (c :: tail) depth' ∧ openParens depth' kinds = some final := by
  obtain ⟨token, offset, brackets, depth', hwithin, hkind, htext, hbrackets, hopen'⟩ :=
    @readWithin_lexeme c tail { lexer with atLineStart := false } depth lexeme gap kinds final
      hamid.rest_eq (by cases started <;> simp [hgap]) hamid.brackets_eq hused hend hopen
  have hlines : ∀ fuel, readLines (fuel + 1) lexer = .ok (token, { lexer with
      cursor := ⟨c :: tail, offset⟩, brackets, atLineStart := false, lineHasTokens := true }) := by
    intro fuel
    cases started with
    | true =>
      have hline : lexer.atLineStart = false := hamid.atLineStart_eq
      simp only [← hline] at hwithin ⊢
      simp only [readLines, hline, Bool.false_and, Bool.false_eq_true, reduceIte, bind, Except.bind,
        hwithin, pure, Except.pure]
    | false =>
      have hline : lexer.atLineStart = true := hamid.atLineStart_eq
      have hempty : lexer.brackets.isEmpty = true := by
        have hdepth := hamid.started_or.resolve_left Bool.false_ne_true
        simpa [hdepth] using hamid.brackets_eq
      obtain ⟨first, others, hlexeme, hstart, -⟩ := @Lexeme.significant c tail 0 lexeme hused hend
      have hrest := hamid.rest_eq
      rw [hgap, if_neg Bool.false_ne_true, List.nil_append, hlexeme, List.cons_append] at hrest
      have hindentation := readIndentation_startsLexeme hstart hrest hamid.levels_eq
      simp only [readLines, hline, hempty, Bool.and_self, reduceIte, hindentation, bind,
        Except.bind, hwithin, pure, Except.pure]
  have hread : lexer.read = .ok (token, { lexer with
      cursor := ⟨c :: tail, offset⟩, brackets, atLineStart := false, lineHasTokens := true }) := by
    unfold read
    split
    · rename_i hpending
      rw [hamid.pendingDedents_eq] at hpending
      cases hpending
    · exact hlines _
  have hnext : lexer.next = (token, { lexer with
      cursor := ⟨c :: tail, offset⟩, brackets, atLineStart := false, lineHasTokens := true }) := by
    rw [Lexer.next, hread, hamid.failure_eq]
    rfl
  rw [hnext]
  exact ⟨depth', hkind, htext, ⟨rfl, hamid.levels_eq, hamid.pendingDedents_eq, hbrackets, rfl, rfl,
    hamid.failure_eq, .inl rfl⟩, hopen'⟩

/-- The line behind some tokens of it: the tokens that are left and the line break. A token is
written behind a space unless it is the first. -/
def lineText (started : Bool) : List Lexeme → List Char
  | [] => ['\n']
  | lexeme :: lexemes =>
    (if started then [' '] else []) ++ (lexeme.text.toList ++ lineText true lexemes)

private theorem lineText_endsLexeme (lexemes : List Lexeme) :
    ∃ c tail, lineText true lexemes = c :: tail ∧ EndsLexeme c := by
  cases lexemes with
  | nil => exact ⟨'\n', [], rfl, .inr rfl⟩
  | cons lexeme lexemes =>
    exact ⟨' ', lexeme.text.toList ++ lineText true lexemes, rfl, .inl rfl⟩

/-- At the end of the line the lexer reads a line break, and then the end of the input. -/
theorem Amid.runFor_end (hamid : lexer.Amid true ['\n'] 0) (fuel : Nat) :
    (runFor (fuel + 2) lexer).map (fun step => (step.1.kind, step.1.text)) =
      [(.newline, "\n"), (.endOfInput, "")] := by
  obtain ⟨⟨rest, offset⟩, size, levels, pendingDedents, brackets, atLineStart, lineHasTokens,
    failure⟩ := lexer
  obtain ⟨rfl, rfl, rfl, hbrackets, rfl, rfl, rfl, -⟩ := hamid
  obtain rfl : brackets = [] := by simpa using hbrackets
  have hbreak : next ⟨⟨['\n'], offset⟩, size, [], 0, [], false, true, none⟩ =
      (⟨.newline, ⟨offset, offset + 1⟩, "\n"⟩,
        ⟨⟨[], offset + 1⟩, size, [], 0, [], true, false, none⟩) := by
    have htext : Cursor.textTo ⟨['\n'], offset⟩ ⟨[], offset + 1⟩ = ['\n'] :=
      Cursor.Passes.textTo_eq ⟨rfl, rfl⟩
    simp [next, read, readLines, readWithin, skipTrivia, skipTriviaFrom, Cursor.skipLineBreak?, htext,
      bind, Except.bind, pure, Except.pure]
  have hinput : next ⟨⟨[], offset + 1⟩, size, [], 0, [], true, false, none⟩ =
      (.endOfInput size, ⟨⟨[], offset + 1⟩, size, [], 0, [], false, false, none⟩) :=
    rfl
  simp [runFor, hbreak, hinput, Token.endOfInput, Token.empty]

/-- The lexer reads the tokens of a line that has one, then the line break and the end of the
input. -/
theorem Amid.runFor_lexemes {lexemes : List Lexeme} {fuel : Nat}
    (hamid : lexer.Amid started (lineText started lexemes) depth)
    (hused : ∀ lexeme ∈ lexemes, lexeme.IsUsed)
    (hopen : openParens depth (lexemes.map Lexeme.kind) = some 0)
    (hstarted : started ∨ lexemes ≠ []) (hfuel : lexemes.length + 2 ≤ fuel) :
    (runFor fuel lexer).map (fun step => (step.1.kind, step.1.text)) =
      lexemes.map (fun lexeme => (lexeme.kind, lexeme.text)) ++
        [(.newline, "\n"), (.endOfInput, "")] := by
  induction lexemes generalizing lexer started depth fuel with
  | nil =>
    obtain rfl : started = true := by simpa using hstarted
    obtain rfl : depth = 0 := by simpa [openParens] using hopen
    obtain ⟨fuel, rfl⟩ := Nat.exists_eq_add_of_le' hfuel
    exact hamid.runFor_end fuel
  | cons lexeme lexemes ih =>
    obtain ⟨c, tail, hline, hend⟩ := lineText_endsLexeme lexemes
    rw [lineText, hline] at hamid
    obtain ⟨depth', hkind, htext, hbehind, hopen'⟩ :=
      hamid.next_lexeme (hused _ (List.mem_cons_self ..)) hend rfl hopen
    rw [← hline] at hbehind
    obtain ⟨fuel, rfl⟩ := Nat.exists_eq_add_of_le' hfuel
    rw [List.length_cons, Nat.add_right_comm, ← Nat.add_assoc, Lexer.runFor]
    dsimp only
    have hother : lexer.next.1.kind ≠ .endOfInput := by
      rw [hkind]
      exact (hused _ (List.mem_cons_self ..)).kind_ne rfl
    rw [if_neg hother, List.map_cons, List.map_cons, List.cons_append, hkind, htext,
      ih hbehind (fun other hmem => hused other (List.mem_cons_of_mem _ hmem)) hopen' (.inl rfl)
        (by omega)]

end Lexer

/-! ## Trees -/

/-- Tokens that may occur in operator expressions and close the parentheses that they open. -/
structure Balanced (lexemes : List Lexeme) : Prop where
  isUsed : ∀ lexeme ∈ lexemes, lexeme.IsUsed
  openParens_append : ∀ depth kinds,
    openParens depth (lexemes.map Lexeme.kind ++ kinds) = openParens depth kinds

namespace Balanced

variable {first second : List Lexeme} {kind : TokenKind}

/-- No lexemes are balanced. -/
theorem nil : Balanced [] :=
  ⟨by simp, fun _ _ => rfl⟩

/-- Balanced lexemes may follow each other. -/
theorem append (hfirst : Balanced first) (hsecond : Balanced second) : Balanced (first ++ second) := by
  refine ⟨fun lexeme hmem => ?_, fun depth kinds => ?_⟩
  · rcases List.mem_append.mp hmem with hmem | hmem
    · exact hfirst.isUsed lexeme hmem
    · exact hsecond.isUsed lexeme hmem
  · rw [List.map_append, List.append_assoc, hfirst.openParens_append, hsecond.openParens_append]

/-- A lexeme that is no parenthesis keeps the balance. -/
theorem cons {lexeme : Lexeme} (hused : lexeme.IsUsed) (hopen : lexeme.kind ≠ .parenthesisOpen)
    (hclose : lexeme.kind ≠ .parenthesisClose) (hsecond : Balanced second) :
    Balanced (lexeme :: second) := by
  refine ⟨?_, fun depth kinds => ?_⟩
  · simpa [hused] using hsecond.isUsed
  · simpa [openParens, hopen, hclose] using hsecond.openParens_append depth kinds

/-- An operator keeps the balance. -/
theorem operator (hused : writesOperators kind) (hopen : kind ≠ .parenthesisOpen)
    (hclose : kind ≠ .parenthesisClose) (hsecond : Balanced second) :
    Balanced (.fixed kind :: second) :=
  @cons second (.fixed kind) hused hopen hclose hsecond

/-- Parentheses that come in pairs keep the balance. -/
theorem parenthesized (needed : Bool) (hfirst : Balanced first) :
    Balanced (parenthesized needed first) := by
  cases needed with
  | false => exact hfirst
  | true =>
    refine ⟨?_, fun depth kinds => ?_⟩
    · have hparens : (Lexeme.fixed .parenthesisOpen).IsUsed ∧
          (Lexeme.fixed .parenthesisClose).IsUsed := ⟨rfl, rfl⟩
      simpa [PythonOutline.parenthesized, hparens, or_imp, forall_and] using hfirst.isUsed
    · simp [PythonOutline.parenthesized, openParens, Lexeme.kind, hfirst.openParens_append]

end Balanced

/-- A token that denotes an operator is none that denotes no operator. -/
theorem kind_ne_of_denotes {denoted? : TokenKind → Option Operator} {kind other : TokenKind}
    {operator : Operator} (hdenotes : denoted? kind = some operator)
    (hother : denoted? other = none) : kind ≠ other := by
  rintro rfl
  rw [hother] at hdenotes
  cases hdenotes

private theorem ComparisonOperator.kinds_balanced (operator : ComparisonOperator) :
    Balanced (operator.kinds.map .fixed) := by
  cases operator with
  | single kind operator denotes =>
    exact .operator (by simp [writesOperators, denotes]) (kind_ne_of_denotes denotes rfl)
      (kind_ne_of_denotes denotes rfl) .nil
  | nonMembership =>
    exact .operator rfl (by decide) (by decide) (.operator rfl (by decide) (by decide) .nil)
  | nonIdentity =>
    exact .operator rfl (by decide) (by decide) (.operator rfl (by decide) (by decide) .nil)

mutual

/-- The tokens of a tree close the parentheses that they open. -/
theorem OperatorExpr.lexemes_balanced : (expr : OperatorExpr) → Balanced expr.lexemes
  | .name identifier => .cons trivial nofun nofun .nil
  | .await operand =>
    .operator rfl nofun nofun (operand.lexemes_balanced.parenthesized _)
  | .unary operator operand =>
    .operator (by simp [writesOperators, operator.denotes])
      (kind_ne_of_denotes operator.denotes rfl) (kind_ne_of_denotes operator.denotes rfl)
      (operand.lexemes_balanced.parenthesized _)
  | .not operand => .operator rfl nofun nofun (operand.lexemes_balanced.parenthesized _)
  | .binary operator left right =>
    (left.lexemes_balanced.parenthesized _).append
      (.operator (by simp [writesOperators, operator.denotes])
        (kind_ne_of_denotes operator.denotes rfl) (kind_ne_of_denotes operator.denotes rfl)
        (right.lexemes_balanced.parenthesized _))
  | .power left right =>
    (left.lexemes_balanced.parenthesized _).append
      (.operator rfl nofun nofun (right.lexemes_balanced.parenthesized _))
  | .compare left operator right others =>
    (((left.lexemes_balanced.parenthesized _).append operator.kinds_balanced).append
      (right.lexemes_balanced.parenthesized _)).append others.lexemes_balanced
  | .boolean operator first second others =>
    (first.lexemes_balanced.parenthesized _).append
      (.operator (by cases operator <;> rfl) (by cases operator <;> nofun)
        (by cases operator <;> nofun)
        ((second.lexemes_balanced.parenthesized _).append (others.lexemes_balanced operator)))
  | .conditional test consequent alternate =>
    (consequent.lexemes_balanced.parenthesized _).append
      (.operator rfl nofun nofun
        ((test.lexemes_balanced.parenthesized _).append
          (.operator rfl nofun nofun (alternate.lexemes_balanced.parenthesized _))))

/-- The tokens of further comparisons close the parentheses that they open. -/
theorem ComparisonChain.lexemes_balanced : (others : ComparisonChain) → Balanced others.lexemes
  | .nil => .nil
  | .cons operator right others =>
    (operator.kinds_balanced.append (right.lexemes_balanced.parenthesized _)).append
      others.lexemes_balanced

/-- The tokens of further values of a chain close the parentheses that they open. -/
theorem OperandList.lexemes_balanced (operator : BooleanOperator) :
    (others : OperandList) → Balanced (others.lexemes operator)
  | .nil => .nil
  | .cons value others =>
    .operator (by cases operator <;> rfl) (by cases operator <;> nofun) (by cases operator <;> nofun)
      ((value.lexemes_balanced.parenthesized _).append (others.lexemes_balanced operator))

end

/-- A tree is written with at least one token. -/
theorem OperatorExpr.lexemes_ne_nil (expr : OperatorExpr) : expr.lexemes ≠ [] := by
  cases expr with
  | compare left operator right others => cases operator <;> simp [lexemes, ComparisonOperator.kinds]
  | _ => simp [lexemes]

/-- Tokens with single spaces between them, and a line break behind them, are a line. -/
theorem lineText_eq (lexemes : List Lexeme) :
    (" ".intercalate (lexemes.map Lexeme.text) ++ "\n").toList = Lexer.lineText false lexemes := by
  have hothers : ∀ lexeme lexemes,
      (" ".intercalate ((lexeme :: lexemes).map Lexeme.text)).toList ++ ['\n'] =
        lexeme.text.toList ++ Lexer.lineText true lexemes := by
    intro lexeme lexemes
    induction lexemes generalizing lexeme with
    | nil => simp [Lexer.lineText]
    | cons next lexemes ih =>
      rw [List.map_cons, List.map_cons, String.intercalate_cons_cons, ← List.map_cons,
        String.toList_append, String.toList_append, List.append_assoc, List.append_assoc, ih,
        Lexer.lineText]
      rfl
  cases lexemes with
  | nil => rfl
  | cons lexeme lexemes =>
    rw [String.toList_append, Lexer.lineText, ← hothers]
    rfl

/-- Every token takes a byte of its line. -/
theorem length_le_lineText {lexemes : List Lexeme} (hused : ∀ lexeme ∈ lexemes, lexeme.IsUsed)
    (started : Bool) : lexemes.length ≤ Text.byteLength (Lexer.lineText started lexemes) := by
  induction lexemes generalizing started with
  | nil => simp
  | cons lexeme lexemes ih =>
    have hothers := ih (fun other hmem => hused other (List.mem_cons_of_mem _ hmem)) true
    obtain ⟨first, others, htext, -⟩ :=
      @Lexeme.significant '\n' [] 0 lexeme (hused lexeme (List.mem_cons_self ..)) (.inr rfl)
    have hpos : 0 < Text.byteLength lexeme.text.toList := Text.byteLength_pos (by simp [htext])
    rw [Lexer.lineText, Text.byteLength_append, Text.byteLength_append, List.length_cons]
    omega

/-- At the start of a line that has a token, the lexer is about to read that token. -/
theorem Lexer.amid_start {lexemes : List Lexeme} (hne : lexemes ≠ [])
    (hused : ∀ lexeme ∈ lexemes, lexeme.IsUsed) (size : Nat) :
    (start (lineText false lexemes) size).Amid false (lineText false lexemes) 0 := by
  cases lexemes with
  | nil => exact absurd rfl hne
  | cons lexeme lexemes =>
    obtain ⟨first, others, htext, hstart, -⟩ :=
      @Lexeme.significant '\n' [] 0 lexeme (hused lexeme (List.mem_cons_self ..)) (.inr rfl)
    refine ⟨?_, rfl, rfl, rfl, rfl, rfl, rfl, .inr rfl⟩
    simp [start, lineText, htext, hstart.ne_byteOrderMark]

/-- The tokens of a printed tree on a line of its own are those it was written with, the line break
and the end of the input. -/
theorem Tokens.ofSource_print (expr : OperatorExpr) :
    (ofSource (expr.print ++ "\n")).tokens.toList.map (fun token => (token.kind, token.text)) =
      expr.lexemes.map (fun lexeme => (lexeme.kind, lexeme.text)) ++
        [(.newline, "\n"), (.endOfInput, "")] := by
  have htext : (expr.print ++ "\n").toList = Lexer.lineText false expr.lexemes :=
    lineText_eq expr.lexemes
  have hused := expr.lexemes_balanced.isUsed
  have hamid : (Lexer.ofSource (expr.print ++ "\n")).Amid false
      (Lexer.lineText false expr.lexemes) 0 := by
    rw [Lexer.ofSource, htext]
    exact Lexer.amid_start expr.lexemes_ne_nil hused _
  have hopen : openParens 0 (expr.lexemes.map Lexeme.kind) = some 0 := by
    simpa [openParens] using expr.lexemes_balanced.openParens_append 0 []
  have hfuel : expr.lexemes.length + 2 ≤ 2 * (expr.print ++ "\n").utf8ByteSize + 3 := by
    have hlength := length_le_lineText hused false
    rw [← htext, ← Text.utf8ByteSize_eq_byteLength] at hlength
    omega
  have hrun := hamid.runFor_lexemes hused hopen (.inr expr.lexemes_ne_nil) hfuel
  rw [ofSource, ← hrun, Lexer.run, List.toList_toArray, List.map_map]
  rfl

end PythonOutline
