import Mathlib.Data.List.TakeWhile
import PythonOutline.Proofs.Lexer.Run
import PythonOutline.Proofs.Lexer.StringBreak

/-! # Text over line breaks

The pieces that the lexer reads, with either line break: the blanks, comments and line joins between
two tokens, the start of a line, a line break, and a token of the text. Of a text without carriage
returns the scanners pass the same piece in either spelling.
-/

namespace PythonOutline

open LineBreak

variable {lineBreak : LineBreak} {text : List Char} {distance : Nat} {cursor cursor' : Cursor}

/-- What is left to read holds no character that the source does not hold. -/
theorem Cursor.IsIn.notMem_rest {source : List Char} {c : Char} (hin : cursor.IsIn source)
    (hc : c ∉ source) : c ∉ cursor.rest := by
  obtain ⟨passed, hrest, -⟩ := hin
  intro hmem
  apply hc
  rw [show source = passed ++ cursor.rest from hrest]
  exact List.mem_append_right _ hmem

/-! ## Text between tokens -/

section

variable {inBrackets inComment : Bool} {c : Char} {cs : List Char} {offset : Nat}

/-- A line end is passed within brackets only, and ends a comment. -/
theorem skipTriviaFrom_lineEnd (hc : EndsLine c) :
    skipTriviaFrom inBrackets inComment (c :: cs) offset =
      if inBrackets then skipTriviaFrom inBrackets false cs (offset + 1)
      else .ok ⟨c :: cs, offset⟩ := by
  conv_lhs => unfold skipTriviaFrom
  exact if_pos hc

/-- A comment goes on up to the line end. -/
theorem skipTriviaFrom_comment (hc : ¬EndsLine c) :
    skipTriviaFrom inBrackets true (c :: cs) offset =
      skipTriviaFrom inBrackets true cs (offset + c.utf8Size) := by
  conv_lhs => unfold skipTriviaFrom
  exact if_neg hc

/-- Blanks are passed. -/
theorem skipTriviaFrom_blank (hc : ¬EndsLine c) (hblank : Text.blanks.contains c) :
    skipTriviaFrom inBrackets false (c :: cs) offset =
      skipTriviaFrom inBrackets false cs (offset + c.utf8Size) := by
  conv_lhs => unfold skipTriviaFrom
  exact (if_neg hc).trans (if_pos hblank)

/-- A comment starts with its sign. -/
theorem skipTriviaFrom_sign :
    skipTriviaFrom inBrackets false ('#' :: cs) offset =
      skipTriviaFrom inBrackets true cs (offset + 1) := by
  have hblank : Text.blanks.contains '#' = false := by decide
  conv_lhs => unfold skipTriviaFrom
  simp [hblank]

/-- Other text is not passed. -/
theorem skipTriviaFrom_text (hc : ¬EndsLine c) (hblank : ¬Text.blanks.contains c) (hsign : c ≠ '#')
    (hjoin : c ≠ '\\') :
    skipTriviaFrom inBrackets false (c :: cs) offset = .ok ⟨c :: cs, offset⟩ := by
  conv_lhs => unfold skipTriviaFrom
  exact (if_neg hc).trans ((if_neg hblank).trans ((if_neg hsign).trans (if_neg hjoin)))

/-- A backslash that no line break follows is a failure. -/
theorem skipTriviaFrom_stray (inBrackets : Bool) (offset : Nat) (hcs : ∀ c ∈ cs.head?, ¬EndsLine c) :
    ∃ failure, skipTriviaFrom inBrackets false ('\\' :: cs) offset = .error failure := by
  cases cs with
  | nil => exact ⟨_, rfl⟩
  | cons c cs =>
    obtain ⟨hfeed, hreturn⟩ : c ≠ '\n' ∧ c ≠ '\r' := by simpa [EndsLine] using hcs
    have hblank : Text.blanks.contains '\\' = false := by decide
    refine ⟨⟨Span.error ⟨offset, offset + 1⟩ .invalidCharacter, ⟨c :: cs, offset + 1⟩⟩, ?_⟩
    unfold skipTriviaFrom
    simp [hblank, hfeed, hreturn]

/-- A carriage return is a line break of its own, unless a line feed follows it. -/
theorem Cursor.skipLineBreak?_return {cs : List Char} (hfeed : ∀ behind, cs = '\n' :: behind → False)
    (offset : Nat) : (⟨'\r' :: cs, offset⟩ : Cursor).skipLineBreak? = some ⟨cs, offset + 1⟩ := by
  simp [skipLineBreak?]

/-- A backslash is passed together with the line break behind it, or is a failure. -/
theorem skipTriviaFrom_backslash (inBrackets : Bool) (cs : List Char) (offset : Nat) :
    skipTriviaFrom inBrackets false ('\\' :: cs) offset =
      match (⟨cs, offset + 1⟩ : Cursor).skipLineBreak? with
      | some next => skipTriviaFrom inBrackets false next.rest next.offset
      | none =>
        let cause := if cs.isEmpty then SyntaxCause.unexpectedEnd else .invalidCharacter
        .error ⟨Span.error ⟨offset, offset + 1⟩ cause, ⟨cs, offset + 1⟩⟩ := by
  have hblank : Text.blanks.contains '\\' = false := by decide
  have hends : ¬ ('\\' = '\n' ∨ '\\' = '\r') := by decide
  have hsign : '\\' ≠ '#' := by decide
  conv_lhs => unfold skipTriviaFrom
  simp only [hblank, hends, hsign, Bool.false_eq_true, if_false, if_true]
  split
  · rfl
  · rename_i hfeed
    simp [Cursor.skipLineBreak?]
  · rfl
  · rfl
  · rename_i hboth hreturn hfeed hempty
    have hbreak : (⟨cs, offset + 1⟩ : Cursor).skipLineBreak? = none := by
      unfold Cursor.skipLineBreak?
      split <;> simp_all
    have hcs : ¬cs.isEmpty := by simpa using hempty
    rw [hbreak]
    simp [hcs]

/-- Behind a backslash a line break is passed in either spelling. -/
theorem skipTriviaFrom_join (lineBreak : LineBreak) (text : List Char) :
    ∃ bytes, skipTriviaFrom inBrackets false ('\\' :: lineBreak.respell ('\n' :: text)) offset =
      skipTriviaFrom inBrackets false (lineBreak.respell text) (offset + bytes) := by
  rw [respell_feed]
  cases lineBreak with
  | carriageReturn =>
    refine ⟨2, ?_⟩
    have hhead := head?_respell_carriageReturn text
    rw [behindReturn, List.nil_append]
    generalize carriageReturn.respell text = cs at hhead
    cases cs with
    | nil => rfl
    | cons c cs =>
      have hc : c ≠ '\n' := by simpa using hhead
      have hblank : Text.blanks.contains '\\' = false := by decide
      conv_lhs => unfold skipTriviaFrom
      simp [hblank, hc]
  | returnFeed => exact ⟨3, rfl⟩

/-- Within brackets a line break is passed in either spelling. -/
theorem skipTriviaFrom_break (lineBreak : LineBreak) (text : List Char) :
    ∃ bytes, skipTriviaFrom true inComment (lineBreak.respell ('\n' :: text)) offset =
      skipTriviaFrom true false (lineBreak.respell text) (offset + bytes) := by
  rw [respell_feed, skipTriviaFrom_lineEnd (.inr rfl), if_pos rfl]
  cases lineBreak with
  | carriageReturn => exact ⟨1, rfl⟩
  | returnFeed =>
    refine ⟨2, ?_⟩
    rw [behindReturn, List.cons_append, List.nil_append, skipTriviaFrom_lineEnd (.inl rfl), if_pos rfl]

end

/-- The text between two tokens has the same pieces with either line break. -/
theorem skipTriviaFrom_agrees {inBrackets inComment : Bool} (offset offset' : Nat)
    (hreturn : '\r' ∉ text) :
    Agree (fun stop stop' => stop'.rest = lineBreak.respell stop.rest)
      (skipTriviaFrom inBrackets inComment text offset)
      (skipTriviaFrom inBrackets inComment (lineBreak.respell text) offset') := by
  fun_induction skipTriviaFrom inBrackets inComment text offset generalizing offset' with
  | case1 => exact .ok rfl
  | case2 inComment c cs offset hline hbrackets ih =>
    obtain ⟨hc, hcs⟩ : '\r' ≠ c ∧ '\r' ∉ cs := by simpa using hreturn
    obtain rfl : c = '\n' := hline.resolve_right hc.symm
    obtain rfl : inBrackets = true := hbrackets
    obtain ⟨bytes, hbreak⟩ := skipTriviaFrom_break lineBreak cs
    rw [hbreak]
    exact ih _ hcs
  | case3 inComment c cs offset hline hbrackets =>
    obtain ⟨hc, -⟩ : '\r' ≠ c ∧ '\r' ∉ cs := by simpa using hreturn
    obtain rfl : c = '\n' := hline.resolve_right hc.symm
    rw [respell_feed, skipTriviaFrom_lineEnd (.inr rfl), if_neg hbrackets]
    exact .ok (respell_feed _).symm
  | case4 c cs offset hline ih =>
    have hc : c ≠ '\n' := fun heq => hline (.inl heq)
    rw [respell_cons hc, skipTriviaFrom_comment hline]
    exact ih _ fun hmem => hreturn (List.mem_cons_of_mem _ hmem)
  | case5 inComment c cs offset hline hcomment hblank ih =>
    have hc : c ≠ '\n' := fun heq => hline (.inl heq)
    obtain rfl : inComment = false := by simpa using hcomment
    rw [respell_cons hc, skipTriviaFrom_blank hline hblank]
    exact ih _ fun hmem => hreturn (List.mem_cons_of_mem _ hmem)
  | case6 inComment cs offset hcomment hline hblank ih =>
    obtain rfl : inComment = false := by simpa using hcomment
    rw [respell_cons (by decide), skipTriviaFrom_sign]
    exact ih _ fun hmem => hreturn (List.mem_cons_of_mem _ hmem)
  | case7 inComment offset hcomment after => exact absurd hreturn (by simp)
  | case8 inComment offset hcomment after => exact absurd hreturn (by simp)
  | case9 inComment offset hcomment after _ _ _ ih =>
    obtain rfl : inComment = false := by simpa using hcomment
    obtain ⟨bytes, hjoin⟩ := skipTriviaFrom_join lineBreak after
    rw [respell_cons (by decide), hjoin]
    exact ih _ fun hmem => hreturn (by simp [hmem])
  | case10 inComment offset hcomment =>
    obtain rfl : inComment = false := by simpa using hcomment
    exact .error
  | case11 inComment cs offset hcomment _ hcarriage hfeed hnil =>
    obtain rfl : inComment = false := by simpa using hcomment
    obtain ⟨c, cs, rfl⟩ := List.exists_cons_of_ne_nil hnil
    have hc : c ≠ '\n' := by
      rintro rfl
      exact hfeed cs rfl
    have hc' : c ≠ '\r' := by
      rintro rfl
      exact hcarriage cs rfl
    have hcs : ∀ c' ∈ (c :: lineBreak.respell cs).head?, ¬EndsLine c' := by
      simpa [EndsLine] using ⟨hc, hc'⟩
    obtain ⟨failure, hstray⟩ := skipTriviaFrom_stray inBrackets offset' hcs
    rw [respell_cons (by decide), respell_cons hc, hstray]
    exact .error
  | case12 inComment c cs offset hline hcomment hblank hsign hjoin =>
    have hc : c ≠ '\n' := fun heq => hline (.inl heq)
    obtain rfl : inComment = false := by simpa using hcomment
    rw [respell_cons hc, skipTriviaFrom_text hline hblank hsign hjoin]
    exact .ok (respell_cons hc _).symm

/-- Two cursors at one place are at one place behind the text that belongs to no token. -/
theorem skipTrivia_agrees {inBrackets : Bool} {source : List Char}
    (hcursor : cursor.Respells lineBreak source cursor') (hreturn : '\r' ∉ source) :
    Agree (fun stop stop' => stop.Respells lineBreak source stop') (skipTrivia inBrackets cursor)
      (skipTrivia inBrackets cursor') := by
  obtain ⟨later, hseparates, hlater⟩ := skipTrivia_separates inBrackets cursor
  obtain ⟨later', hseparates', hlater'⟩ := skipTrivia_separates inBrackets cursor'
  have hagrees : Agree (fun stop stop' => stop'.rest = lineBreak.respell stop.rest)
      (skipTrivia inBrackets cursor) (skipTrivia inBrackets cursor') := by
    rw [skipTrivia, skipTrivia, hcursor.rest_eq]
    exact skipTriviaFrom_agrees _ _ (hcursor.isIn.notMem_rest hreturn)
  generalize skipTrivia inBrackets cursor = result, skipTrivia inBrackets cursor' = result'
    at hlater hlater' hagrees
  cases hagrees with
  | ok hstop =>
    cases hlater
    cases hlater'
    exact .ok (hcursor.reaches hseparates.reaches hseparates'.reaches hstop).1
  | error => exact .error
  | onlyFirst hlost => exact hlost.elim
  | onlySecond hgained => exact hgained.elim

/-- The first lines with tokens of a text and of the text written anew: there is none, or they are
indented alike. -/
def LineStart.Respells (lineBreak : LineBreak) : LineStart → LineStart → Prop
  | .none stop, .none stop' => stop'.rest = lineBreak.respell stop.rest
  | .line _ width stop, .line _ width' stop' =>
    width' = width ∧ stop'.rest = lineBreak.respell stop.rest
  | _, _ => False

/-- A search for a line with tokens passes a respelled line break as it passes the line feed. -/
private theorem LineStart.findFrom_respells (inComment : Bool) (start start' : Nat)
    (width : IndentWidth) (offset offset' : Nat) (hreturn : '\r' ∉ text) :
    (findFrom inComment start width text offset).Respells lineBreak
      (findFrom inComment start' width (lineBreak.respell text) offset') := by
  induction text generalizing inComment start start' width offset offset' with
  | nil => exact rfl
  | cons c cs ih =>
    obtain ⟨hne, hcs⟩ : '\r' ≠ c ∧ '\r' ∉ cs := by simpa using hreturn
    by_cases hc : c = '\n'
    · subst hc
      rw [respell_feed, findFrom, if_pos (.inl rfl), findFrom, if_pos (.inr rfl)]
      cases lineBreak with
      | carriageReturn => exact ih _ _ _ _ _ _ hcs
      | returnFeed =>
        rw [behindReturn, List.cons_append, List.nil_append, findFrom, if_pos (.inl rfl)]
        exact ih _ _ _ _ _ _ hcs
    · have hline : ¬(c = '\n' ∨ c = '\r') := not_or.mpr ⟨hc, hne.symm⟩
      rw [respell_cons hc, findFrom, if_neg hline, findFrom, if_neg hline]
      split
      · exact ih _ _ _ _ _ _ hcs
      split
      · exact ih _ _ _ _ _ _ hcs
      split
      · exact ih _ _ _ _ _ _ hcs
      split
      · exact ih _ _ _ _ _ _ hcs
      split
      · exact ih _ _ _ _ _ _ hcs
      · exact ⟨rfl, (respell_cons hc _).symm⟩

/-- The start of the next line is found alike in both spellings. -/
theorem LineStart.find_respells (hrest : cursor'.rest = lineBreak.respell cursor.rest)
    (hreturn : '\r' ∉ cursor.rest) : (find cursor).Respells lineBreak (find cursor') := by
  rw [find, find, hrest]
  exact findFrom_respells _ _ _ _ _ _ hreturn

/-- A line break stands where one stands in the other spelling. -/
theorem Cursor.skipLineBreak?_respells (hrest : cursor'.rest = lineBreak.respell cursor.rest)
    (hreturn : '\r' ∉ cursor.rest) :
    Option.Rel (fun stop stop' : Cursor => stop'.rest = lineBreak.respell stop.rest)
      cursor.skipLineBreak? cursor'.skipLineBreak? := by
  obtain ⟨⟨rest, offset⟩, ⟨rest', offset'⟩⟩ := cursor, cursor'
  obtain rfl : rest' = lineBreak.respell rest := hrest
  cases rest with
  | nil => exact .none
  | cons c cs =>
    obtain ⟨hne, hcs⟩ : '\r' ≠ c ∧ '\r' ∉ cs := by simpa using hreturn
    by_cases hc : c = '\n'
    · subst hc
      rw [respell_feed]
      cases lineBreak with
      | carriageReturn =>
        have hhead := head?_respell_carriageReturn cs
        rw [behindReturn, List.nil_append]
        have hbreak : ∀ {rest : List Char}, rest.head? ≠ some '\n' →
            skipLineBreak? ⟨'\r' :: rest, offset'⟩ = some ⟨rest, offset' + 1⟩ := by
          intro rest hrest
          cases rest with
          | nil => rfl
          | cons c rest =>
            have hc : c ≠ '\n' := by simpa using hrest
            simp [skipLineBreak?, hc]
        rw [hbreak hhead]
        exact .some rfl
      | returnFeed => exact .some rfl
    · rw [respell_cons hc]
      have hnone : ∀ rest offset, skipLineBreak? ⟨c :: rest, offset⟩ = none := by
        intro rest offset
        simp [skipLineBreak?, hc, hne.symm]
      rw [hnone, hnone]
      exact .none

/-- At one place two cursors both stand in front of a line break or both do not. -/
theorem Cursor.Respells.skipLineBreak? {source : List Char}
    (hcursor : cursor.Respells lineBreak source cursor') (hreturn : '\r' ∉ source) :
    (∃ stop stop', cursor.skipLineBreak? = some stop ∧ cursor'.skipLineBreak? = some stop' ∧
        stop.Respells lineBreak source stop' ∧
        cursor'.textTo stop' = lineBreak.respell (cursor.textTo stop)) ∨
      cursor.skipLineBreak? = none ∧ cursor'.skipLineBreak? = none := by
  have hbreak := Cursor.skipLineBreak?_respells hcursor.rest_eq (hcursor.isIn.notMem_rest hreturn)
  cases hskip : cursor.skipLineBreak? with
  | none =>
    cases hskip' : cursor'.skipLineBreak? with
    | none => exact .inr ⟨rfl, rfl⟩
    | some stop' =>
      rw [hskip, hskip'] at hbreak
      cases hbreak
  | some stop =>
    cases hskip' : cursor'.skipLineBreak? with
    | none =>
      rw [hskip, hskip'] at hbreak
      cases hbreak
    | some stop' =>
      rw [hskip, hskip'] at hbreak
      cases hbreak with
      | some hstop =>
        obtain ⟨text, hpasses, -⟩ := Lexer.skipLineBreak?_passes hskip
        obtain ⟨text', hpasses', -⟩ := Lexer.skipLineBreak?_passes hskip'
        exact .inl ⟨stop, stop', rfl, rfl, hcursor.reaches ⟨text, hpasses⟩ ⟨text', hpasses'⟩ hstop⟩

/-! ## Tokens of the text -/

namespace Lexer

/-- Two tokens of the text, or failures: the tokens are of one kind, and what is left to read is the
same. But for a string literal the cursors behind them keep their distance. -/
def Ends (lineBreak : LineBreak) (distance : Nat) (ending ending' : TokenKind × Cursor) : Prop :=
  ending'.1 = ending.1 ∧ ending'.2.rest = lineBreak.respell ending.2.rest ∧
    (ending.1 ≠ .literalString → ending'.2 = ending.2.respell lineBreak distance)

/-- Tokens within a line end alike. -/
theorem EndsAhead.ends {ending ending' : TokenKind × Cursor}
    (hends : EndsAhead lineBreak distance ending ending') : Ends lineBreak distance ending ending' := by
  obtain rfl := hends
  exact ⟨rfl, rfl, fun _ => rfl⟩

/-- A literal that is folded over lines, at a cursor. -/
def EndsFolded (cursor : Cursor) (ending : TokenKind × Cursor) : Prop :=
  ending.1 = .literalString ∧ Folded (cursor.textTo ending.2)

/-- A string that is read is a literal that the scanner has closed. -/
theorem string_eq_ok {start : Nat} {formatted : Bool} {kind : TokenKind} {stop : Cursor}
    (hstring : string start formatted cursor = .ok (kind, stop)) :
    kind = .literalString ∧ scanString formatted cursor = .closed stop := by
  rw [string_eq] at hstring
  split at hstring
  · rename_i hscan
    cases hstring
    exact ⟨rfl, hscan⟩
  · cases hstring

/-- A literal is read behind its prefix. -/
theorem string_respell {quote : Cursor} {letters : List Char} (start start' : Nat)
    (hpasses : cursor.Passes letters quote) (hletters : ∀ c ∈ letters, ¬isQuote c)
    (hpasses' : (cursor.respell lineBreak distance).Passes letters (quote.respell lineBreak distance))
    (hquote : quote.peek?.any isQuote) :
    lineBreak.Agrees (EndsFolded cursor) (EndsFolded (cursor.respell lineBreak distance))
      (Ends lineBreak distance) (string start (announcesFormatted letters) quote)
      (string start' (announcesFormatted letters) (quote.respell lineBreak distance)) := by
  have hfolded : ∀ {cursor quote : Cursor} {start : Nat} {ending : TokenKind × Cursor},
      cursor.Passes letters quote →
      string start (announcesFormatted letters) quote = .ok ending →
      Folded (letters ++ quote.textTo ending.2) → EndsFolded cursor ending := by
    intro cursor quote start ending hpasses hstring hfolded
    obtain ⟨hkind, hscan⟩ := string_eq_ok hstring
    obtain ⟨text, hrest⟩ := (scanString_passes hscan).1
    rw [hrest.textTo_eq] at hfolded
    exact ⟨hkind, by rwa [(hpasses.trans hrest).textTo_eq]⟩
  apply (string_agrees start start' hletters hquote rfl).mono
  · rintro ending ending' ⟨hkind, hkind', hrest⟩
    exact ⟨hkind'.trans hkind.symm, hrest, fun hne => absurd hkind hne⟩
  · exact fun _ hstring hending => hending.imp_right (hfolded hpasses hstring)
  · exact fun _ hstring hending => hending.imp_right (hfolded hpasses' hstring)

private theorem inline_isIdentifierContinue : Inline Text.isIdentifierContinue := by
  constructor <;> decide +kernel

/-- No quote stands in a word. -/
theorem not_isQuote_of_continue {text : List Char} :
    ∀ c ∈ text.takeWhile Text.isIdentifierContinue, ¬isQuote c := by
  intro c hc hquote
  have hcontinue := List.mem_takeWhile_imp hc
  rcases isQuote_iff.mp hquote with rfl | rfl
  · exact absurd hcontinue (by decide +kernel)
  · exact absurd hcontinue (by decide +kernel)

private theorem word_respell (cursor : Cursor) :
    lineBreak.Agrees (EndsFolded cursor) (EndsFolded (cursor.respell lineBreak distance))
      (Ends lineBreak distance) (word cursor) (word (cursor.respell lineBreak distance)) := by
  have hstop := cursor.passes_skipWhile Text.isIdentifierContinue
  have hstop' := (cursor.respell lineBreak distance).passes_skipWhile Text.isIdentifierContinue
  have hletters : (cursor.respell lineBreak distance).rest.takeWhile Text.isIdentifierContinue =
      cursor.rest.takeWhile Text.isIdentifierContinue :=
    takeWhile_respell inline_isIdentifierContinue
  have hquote : Inline isQuote := ⟨rfl, rfl⟩
  rw [hletters, Cursor.skipWhile_respell inline_isIdentifierContinue] at hstop'
  unfold word
  rw [Cursor.skipWhile_respell inline_isIdentifierContinue]
  simp only [hstop.textTo_eq, hstop'.textTo_eq, Cursor.peek?_any_respell hquote]
  split
  · rename_i hstring
    rw [Bool.and_eq_true] at hstring
    exact string_respell _ _ hstop not_isQuote_of_continue hstop' hstring.1
  · exact .ok ⟨rfl, rfl, fun _ => rfl⟩

/-- Significant tokens are read alike in both spellings, but for literals that are folded over
lines. -/
theorem significant_respell {c : Char} (hpeek : cursor.peek? = some c) (hc : c ≠ '\n') :
    lineBreak.Agrees (EndsFolded cursor) (EndsFolded (cursor.respell lineBreak distance))
      (Ends lineBreak distance) (significant c cursor)
      (significant c (cursor.respell lineBreak distance)) := by
  have hdigit : Inline Char.isDigit := ⟨rfl, rfl⟩
  have hadvance : (cursor.respell lineBreak distance).advance =
      cursor.advance.respell lineBreak distance :=
    Cursor.advance_respell (by simpa [hpeek] using hc)
  have hinline : ∀ {result result' : Except LexFailure (TokenKind × Cursor)},
      Agree (EndsAhead lineBreak distance) result result' →
      lineBreak.Agrees (EndsFolded cursor) (EndsFolded (cursor.respell lineBreak distance))
        (Ends lineBreak distance) result result' :=
    fun hagree => hagree.mono (fun _ _ hends => hends.ends) (fun _ _ => False.elim)
      fun _ _ => False.elim
  unfold significant
  rw [hadvance, Cursor.peek?_any_respell hdigit]
  split
  · exact word_respell cursor
  split
  · exact hinline (number_respell cursor)
  split
  · exact string_respell _ _ (.refl _) (by simp) (.refl _) (by simpa [hpeek])
  · exact hinline (operator_respell cursor)

/-- A word that is no literal is a keyword or an identifier. -/
theorem keyword?_getD_ne {word : String} {kind : TokenKind}
    (hkeywords : ∀ entry ∈ TokenKind.keywordSpellings, entry.1 ≠ kind)
    (hidentifier : .identifier ≠ kind) :
    (TokenKind.keyword? word).getD .identifier ≠ kind := by
  cases hkeyword : TokenKind.keyword? word with
  | none => exact hidentifier
  | some kind' =>
    simp only [TokenKind.keyword?, Option.map_eq_some_iff] at hkeyword
    obtain ⟨entry, hfind, rfl⟩ := hkeyword
    exact hkeywords entry (List.mem_of_find?_eq_some hfind)

/-- An operator is of one of the kinds with a spelling. -/
theorem operator_ne_ok {stop : Cursor} {kind : TokenKind}
    (hoperators : ∀ entry ∈ TokenKind.operatorSpellings, entry.1 ≠ kind) :
    operator cursor ≠ .ok (kind, stop) := by
  intro hoperator
  unfold operator at hoperator
  split at hoperator
  · rename_i hlongest
    cases hoperator
    exact hoperators _ (TokenKind.longestOperator?_eq_some hlongest).1 rfl
  · cases hoperator

/-- A string literal is scanned behind the word that is its prefix. -/
theorem significant_string {c : Char} {stop : Cursor} (hpeek : cursor.peek? = some c)
    (hsignificant : significant c cursor = .ok (.literalString, stop)) :
    ∃ letters quote, cursor.Passes letters quote ∧
      letters = cursor.rest.takeWhile Text.isIdentifierContinue ∧
      (letters = [] ∨ isStringPrefix letters) ∧ quote.peek?.any isQuote ∧
      scanString (announcesFormatted letters) quote = .closed stop := by
  unfold significant at hsignificant
  split at hsignificant
  · unfold word at hsignificant
    have hletters := cursor.passes_skipWhile Text.isIdentifierContinue
    dsimp only at hsignificant
    split at hsignificant
    · rename_i hprefix
      rw [Bool.and_eq_true] at hprefix
      have hscan := (string_eq_ok hsignificant).2
      rw [hletters.textTo_eq] at hprefix hscan
      exact ⟨_, _, hletters, rfl, .inr hprefix.2, hprefix.1, hscan⟩
    · obtain ⟨hkind, -⟩ := Prod.mk.inj (Except.ok.inj hsignificant)
      exact absurd hkind (keyword?_getD_ne (by decide) nofun)
  split at hsignificant
  · unfold number at hsignificant
    split at hsignificant <;> cases hsignificant
  split at hsignificant
  · rename_i hquote
    have hnone : cursor.rest.takeWhile Text.isIdentifierContinue = [] := by
      obtain ⟨rest, offset⟩ := cursor
      obtain ⟨cs, rfl⟩ : ∃ cs, rest = c :: cs := List.head?_eq_some_iff.mp hpeek
      refine List.takeWhile_cons_of_neg fun hcontinue => ?_
      have hword : c ∈ (c :: cs).takeWhile Text.isIdentifierContinue := by
        rw [List.takeWhile_cons_of_pos hcontinue]
        exact List.mem_cons_self
      exact not_isQuote_of_continue c hword hquote
    exact ⟨[], cursor, .refl cursor, hnone.symm, .inl rfl, by simpa [hpeek] using hquote,
      (string_eq_ok hsignificant).2⟩
  · exact absurd hsignificant (operator_ne_ok (by decide))

/-- A string literal is written with a prefix and quotes. -/
theorem significant_written {c : Char} {stop : Cursor} {text : List Char}
    (hpeek : cursor.peek? = some c) (hpasses : cursor.Passes text stop)
    (hsignificant : significant c cursor = .ok (.literalString, stop)) :
    ∃ letters quote triple body, Written text letters quote triple body := by
  obtain ⟨letters, middle, hletters, hword, -, hquote, hscan⟩ :=
    significant_string hpeek hsignificant
  obtain ⟨rest, hrest⟩ := (scanString_passes hscan).1
  obtain ⟨quote, triple, body, hwritten⟩ := scanString_written hquote hscan hrest
  have htext := hpasses.textTo_eq.symm.trans (hletters.trans hrest).textTo_eq
  rw [hword] at htext
  exact ⟨_, quote, triple, body, htext ▸ hwritten.behind not_isQuote_of_continue⟩

/-- Words that are no literals, and numbers, hold no line feed. -/
theorem significant_inline {c : Char} {stop : Cursor} {kind : TokenKind}
    (hpeek : cursor.peek? = some c) (hkind : kind = .identifier ∨ kind = .literalNumber)
    (hsignificant : significant c cursor = .ok (kind, stop)) : '\n' ∉ cursor.textTo stop := by
  have hstring : ∀ {start formatted quote}, string start formatted quote ≠ .ok (kind, stop) := by
    intro start formatted quote hstring
    rw [string_eq] at hstring
    split at hstring
    · cases hstring
      rcases hkind with hkind | hkind <;> cases hkind
    · cases hstring
  unfold significant at hsignificant
  split at hsignificant
  · unfold word at hsignificant
    dsimp only at hsignificant
    split at hsignificant
    · exact absurd hsignificant hstring
    · obtain ⟨-, rfl⟩ := Prod.mk.inj (Except.ok.inj hsignificant)
      rw [(cursor.passes_skipWhile _).textTo_eq]
      intro hmem
      exact absurd (List.mem_takeWhile_imp hmem) (by simp [inline_isIdentifierContinue.1])
  split at hsignificant
  · rename_i hdigit
    simp only [Bool.or_eq_true, Bool.and_eq_true, decide_eq_true_eq] at hdigit
    have hdigit := hdigit.imp_right And.left
    have hline : c ≠ '\n' ∧ c ≠ '\r' := by
      constructor
      · rintro rfl
        exact absurd hdigit (by decide)
      · rintro rfl
        exact absurd hdigit (by decide)
    have hpeek' : (cursor.respell .returnFeed 0).peek? = some c := by
      rw [Cursor.peek?_respell_eq_some_iff hline.1 hline.2, hpeek]
    -- A pair of a carriage return and a line feed would take a byte more.
    have hextent := number_extent hpeek hdigit
    have hextent' := number_extent hpeek' hdigit
    have hnumber : Agree (EndsAhead .returnFeed 0) _ _ := number_respell cursor
    rw [hsignificant] at hextent hnumber
    generalize number (cursor.respell .returnFeed 0) = result' at hextent' hnumber
    cases hnumber with
    | ok hends =>
      obtain rfl := hends
      exact Cursor.feed_notMem_textTo hextent.2.1 hextent'.2.1
    | onlyFirst hlost => exact hlost.elim
  split at hsignificant
  · exact absurd hsignificant hstring
  · rcases hkind with rfl | rfl
    · exact absurd hsignificant (operator_ne_ok (by decide))
    · exact absurd hsignificant (operator_ne_ok (by decide))

end Lexer

end PythonOutline
