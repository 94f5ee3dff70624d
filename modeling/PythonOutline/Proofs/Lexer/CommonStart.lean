import PythonOutline.Proofs.Lexer.Layout
import PythonOutline.Proofs.Lexer.Locality

/-! # Sources that start alike

Two sources that are the same up to a mark, which is a character of both, are read alike up to
there, if behind it they go on in ways that stop a token alike: the tokens are the same, and so are
the levels, the brackets and the dedents that are due (`Lexer.next_alongside`). The mark may be a
line feed with anything behind it, and a line break that takes the line feed is read alike too
(`Lexer.next_lineEnd`). What stands in front of the mark decides all of it, as no scanner looks
further than at the character behind what it passes. -/

namespace PythonOutline

/-- Two cursors in front of the same text up to a mark. -/
def Cursor.Alongside (mark : Char) (place : Nat) (behind behind' : List Char)
    (cursor cursor' : Cursor) : Prop :=
  Beside ⟨mark :: behind, place⟩ ⟨mark :: behind', place⟩ cursor cursor'

variable {mark : Char} {place feed : Nat} {behind behind' : List Char}

namespace Cursor

variable {cursor cursor' stop : Cursor} {c : Char}

/-- Passing text up to an offset is determined by the offset. -/
theorem Passes.eq_of_offset_eq {later : Cursor} {text more : List Char}
    (hpasses : cursor.Passes text stop) (hmore : cursor.Passes more later)
    (hoffset : later.offset = stop.offset) : more = text ∧ later = stop := by
  have hlength : Text.byteLength more = Text.byteLength text := by
    have hstop := hpasses.offset_eq
    have hlater := hmore.offset_eq
    omega
  have htake := Text.takeBytes?_append more later.rest
  rw [← hmore.rest_eq, hpasses.rest_eq, hlength, Text.takeBytes?_append] at htake
  obtain rfl := Option.some.inj htake
  exact ⟨rfl, hmore.later_eq hpasses⟩

/-- Of two cursors that are reached from one, the earlier reaches the later. -/
theorem Reaches.of_offset_le {middle later : Cursor} (hmiddle : cursor.Reaches middle)
    (hlater : cursor.Reaches later) (hle : middle.offset ≤ later.offset) : middle.Reaches later := by
  obtain ⟨text, hrest, hoffset⟩ := hmiddle
  obtain ⟨more, hrest', hoffset'⟩ := hlater
  rw [hrest, List.append_eq_append_iff] at hrest'
  rcases hrest' with ⟨between, rfl, hbetween⟩ | ⟨between, rfl, hbetween⟩
  · rw [Text.byteLength_append] at hoffset'
    exact ⟨between, hbetween, by omega⟩
  · rw [Text.byteLength_append] at hoffset
    obtain rfl : between = [] := by
      refine Decidable.byContradiction fun hne => ?_
      have hpos := Text.byteLength_pos hne
      omega
    rw [Text.byteLength_nil] at hoffset
    exact ⟨[], hbetween.symm, by rw [Text.byteLength_nil]; omega⟩

/-- What separates tokens is passed forwards. -/
theorem SeparatesFrom.reaches {inComment : Bool} (hseparates : cursor.SeparatesFrom inComment stop) :
    cursor.Reaches stop := by
  unfold SeparatesFrom at hseparates
  split at hseparates
  · obtain ⟨body, middle, hpasses, -, -, hrest⟩ := hseparates
    exact .trans ⟨body, hpasses⟩ hrest.reaches
  · exact hseparates.reaches

/-- There is a line break to skip in front of its characters only. -/
theorem skipLineBreak?_eq_none_iff (hpeek : cursor.peek? = some c) :
    cursor.skipLineBreak? = none ↔ ¬EndsLine c := by
  obtain ⟨rest, offset⟩ := cursor
  cases rest with
  | nil => cases hpeek
  | cons d cs =>
    obtain rfl : d = c := by simpa [peek?] using hpeek
    by_cases hfeed : d = '\n'
    · subst hfeed
      simp [skipLineBreak?, EndsLine]
    by_cases hreturn : d = '\r'
    · subst hreturn
      unfold skipLineBreak?
      split <;> simp_all [EndsLine]
    · simp [skipLineBreak?, EndsLine, hfeed, hreturn]

namespace Alongside

/-- Cursors alongside each other have the same offset. -/
theorem offset_eq (halong : Alongside mark place behind behind' cursor cursor') :
    cursor'.offset = cursor.offset := by
  obtain ⟨text, hpasses, hpasses'⟩ := halong
  have hoffset := hpasses.offset_eq
  have hoffset' := hpasses'.offset_eq
  dsimp only at hoffset hoffset'
  omega

/-- The same character stands in front of both. -/
theorem peek?_eq (halong : Alongside mark place behind behind' cursor cursor') :
    ∃ c, cursor.peek? = some c ∧ cursor'.peek? = some c := by
  obtain ⟨text, hpasses, hpasses'⟩ := halong
  rw [peek?, peek?, hpasses.rest_eq, hpasses'.rest_eq]
  cases text with
  | nil => exact ⟨mark, rfl, rfl⟩
  | cons c text => exact ⟨c, rfl, rfl⟩

private theorem eq_cons {cs : List Char} {offset : Nat}
    (halong : Alongside mark place behind behind' ⟨c :: cs, offset⟩ cursor') :
    ∃ cs', cursor' = ⟨c :: cs', offset⟩ := by
  obtain ⟨d, hpeek, hpeek'⟩ := halong.peek?_eq
  obtain rfl : offset = cursor'.offset := halong.offset_eq.symm
  obtain ⟨rest', offset'⟩ := cursor'
  cases rest' with
  | nil => cases hpeek'
  | cons e cs' =>
    cases hpeek
    cases hpeek'
    exact ⟨cs', rfl⟩

/-- Up to the mark the two texts are passed together. -/
theorem cons {cs : List Char} {offset : Nat}
    (halong : Alongside mark place behind behind' ⟨c :: cs, offset⟩ cursor')
    (hreaches : (⟨cs, offset + c.utf8Size⟩ : Cursor).Reaches ⟨mark :: behind, place⟩) :
    ∃ cs', cursor' = ⟨c :: cs', offset⟩ ∧
      Alongside mark place behind behind' ⟨cs, offset + c.utf8Size⟩ ⟨cs', offset + c.utf8Size⟩ := by
  obtain ⟨cs', offset', rfl, hrest⟩ := Beside.cons halong hreaches
  obtain rfl : offset' = offset := offset_eq halong
  exact ⟨cs', rfl, hrest⟩

/-- What is passed on one text up to the mark is passed on the other one. -/
theorem passes {text : List Char} (halong : Alongside mark place behind behind' cursor cursor')
    (hpasses : cursor.Passes text stop) (hreaches : stop.Reaches ⟨mark :: behind, place⟩) :
    ∃ stop', cursor'.Passes text stop' ∧ Alongside mark place behind behind' stop stop' := by
  obtain ⟨all, hall, hrest', hoffset'⟩ := halong
  obtain ⟨more, hmore⟩ := hreaches
  have hsplit := hall.eq_append hpasses hmore
  rw [hsplit, List.append_assoc] at hrest'
  rw [hsplit, Text.byteLength_append, ← Nat.add_assoc] at hoffset'
  exact ⟨⟨more ++ mark :: behind', _⟩, ⟨hrest', rfl⟩, more, hmore, rfl, hoffset'⟩

/-- The two texts end a token alike, if they do so from the mark on. -/
theorem stopsLike (halong : Alongside mark place behind behind' cursor cursor')
    (hmark : StopsLike (mark :: behind) (mark :: behind')) : StopsLike cursor.rest cursor'.rest :=
  Beside.stopsLike halong hmark

/-- A line break in front of the mark is passed on both texts. -/
theorem skipLineBreak?_eq_some (halong : Alongside mark place behind behind' cursor cursor')
    (hbreak : cursor.skipLineBreak? = some stop) (hreaches : stop.Reaches ⟨mark :: behind, place⟩) :
    ∃ stop', cursor'.skipLineBreak? = some stop' ∧ Alongside mark place behind behind' stop stop' := by
  unfold skipLineBreak? at hbreak
  split at hbreak
  · cases hbreak
    obtain ⟨cs, rfl, hrest⟩ := halong.cons (.cons hreaches)
    obtain ⟨cs', hcs, hstop⟩ := hrest.cons hreaches
    cases hcs
    exact ⟨_, rfl, hstop⟩
  · cases hbreak
    obtain ⟨cs, rfl, hstop⟩ := halong.cons hreaches
    exact ⟨_, rfl, hstop⟩
  · rename_i cs offset hfeed
    cases hbreak
    obtain ⟨cs', rfl, hstop⟩ := halong.cons hreaches
    refine ⟨⟨cs', offset + 1⟩, ?_, hstop⟩
    obtain ⟨c, hpeek, hpeek'⟩ := hstop.peek?_eq
    have hc : c ≠ '\n' := by
      rintro rfl
      cases cs with
      | nil => cases hpeek
      | cons d cs =>
        obtain rfl : d = '\n' := by simpa [peek?] using hpeek
        exact hfeed cs rfl
    cases cs' with
    | nil => rfl
    | cons d cs' =>
      obtain rfl : d = c := by simpa [peek?] using hpeek'
      simp [Cursor.skipLineBreak?, hc]
  · cases hbreak

/-- A scan of both texts ends at the same place of them. -/
theorem skipLineBreak?_eq_none (halong : Alongside mark place behind behind' cursor cursor')
    (hbreak : cursor.skipLineBreak? = none) : cursor'.skipLineBreak? = none := by
  obtain ⟨c, hpeek, hpeek'⟩ := halong.peek?_eq
  rw [skipLineBreak?_eq_none_iff hpeek] at hbreak
  rwa [skipLineBreak?_eq_none_iff hpeek']

end Alongside

end Cursor

/-! ## Text between tokens -/

/-- Blanks and comments are skipped forwards. -/
theorem skipTriviaFrom_reaches {inBrackets inComment : Bool} {cs : List Char} {offset : Nat}
    {stop : Cursor} (hskip : skipTriviaFrom inBrackets inComment cs offset = .ok stop) :
    (⟨cs, offset⟩ : Cursor).Reaches stop := by
  obtain ⟨later, hseparates, hlater⟩ :=
    skipTriviaFrom_separatesFrom inBrackets inComment cs offset
  rw [hskip] at hlater
  subst hlater
  exact hseparates.reaches

/-- Blanks and comments in front of the mark are skipped alike. -/
theorem skipTriviaFrom_alongside {inBrackets inComment : Bool} {cs : List Char} {offset : Nat}
    {cursor' stop : Cursor} (halong : Cursor.Alongside mark place behind behind' ⟨cs, offset⟩ cursor')
    (hskip : skipTriviaFrom inBrackets inComment cs offset = .ok stop)
    (hreaches : stop.Reaches ⟨mark :: behind, place⟩) :
    ∃ stop', skipTriviaFrom inBrackets inComment cursor'.rest cursor'.offset = .ok stop' ∧
      Cursor.Alongside mark place behind behind' stop stop' := by
  -- What is passed behind a backslash is a line break.
  have hjoin : ∀ {cs : List Char} {offset : Nat} {cursor' next : Cursor},
      Cursor.Alongside mark place behind behind' ⟨'\\' :: cs, offset⟩ cursor' →
      (⟨cs, offset + 1⟩ : Cursor).skipLineBreak? = some next →
      next.Reaches ⟨mark :: behind, place⟩ →
      ∃ next', Cursor.Alongside mark place behind behind' next next' ∧
        skipTriviaFrom inBrackets false cursor'.rest cursor'.offset =
          skipTriviaFrom inBrackets false next'.rest next'.offset := by
    intro cs offset cursor' next halong hbreak hnext
    obtain ⟨text, hpasses, -⟩ := Lexer.skipLineBreak?_passes hbreak
    obtain ⟨cs', rfl, hrest⟩ := halong.cons (.trans ⟨text, hpasses⟩ hnext)
    obtain ⟨next', hbreak', hbehind⟩ := hrest.skipLineBreak?_eq_some hbreak hnext
    refine ⟨next', hbehind, ?_⟩
    have hbreak' : (⟨cs', offset + 1⟩ : Cursor).skipLineBreak? = some next' := hbreak'
    rw [skipTriviaFrom_backslash, hbreak']
  fun_induction skipTriviaFrom inBrackets inComment cs offset generalizing cursor' with
  | case1 =>
    obtain ⟨c, hpeek, -⟩ := halong.peek?_eq
    cases hpeek
  | case2 inComment c cs offset hline hbrackets ih =>
    have hsize : c.utf8Size = 1 := by rcases hline with rfl | rfl <;> rfl
    have hrest := (skipTriviaFrom_reaches hskip).trans hreaches
    rw [← hsize] at hrest
    obtain ⟨cs', rfl, hrest⟩ := halong.cons hrest
    rw [hsize] at hrest
    rw [skipTriviaFrom_lineEnd hline, if_pos hbrackets]
    exact ih hrest hskip
  | case3 inComment c cs offset hline hbrackets =>
    cases hskip
    obtain ⟨cs', rfl⟩ := halong.eq_cons
    rw [skipTriviaFrom_lineEnd hline, if_neg hbrackets]
    exact ⟨_, rfl, halong⟩
  | case4 c cs offset hline ih =>
    obtain ⟨cs', rfl, hrest⟩ := halong.cons ((skipTriviaFrom_reaches hskip).trans hreaches)
    rw [skipTriviaFrom_comment hline]
    exact ih hrest hskip
  | case5 inComment c cs offset hline hcomment hblank ih =>
    obtain rfl : inComment = false := by simpa using hcomment
    obtain ⟨cs', rfl, hrest⟩ := halong.cons ((skipTriviaFrom_reaches hskip).trans hreaches)
    rw [skipTriviaFrom_blank hline hblank]
    exact ih hrest hskip
  | case6 inComment cs offset hcomment _ _ ih =>
    obtain rfl : inComment = false := by simpa using hcomment
    obtain ⟨cs', rfl, hrest⟩ := halong.cons ((skipTriviaFrom_reaches hskip).trans hreaches)
    rw [skipTriviaFrom_sign]
    exact ih hrest hskip
  | case7 inComment offset hcomment after _ _ _ ih =>
    obtain rfl : inComment = false := by simpa using hcomment
    obtain ⟨next', hnext, hsame⟩ := hjoin halong rfl ((skipTriviaFrom_reaches hskip).trans hreaches)
    rw [hsame]
    exact ih hnext hskip
  | case8 inComment offset hcomment after hfeed _ _ _ ih =>
    obtain rfl : inComment = false := by simpa using hcomment
    have hbreak := Cursor.skipLineBreak?_return hfeed (offset + 1)
    obtain ⟨next', hnext, hsame⟩ :=
      hjoin halong hbreak ((skipTriviaFrom_reaches hskip).trans hreaches)
    rw [hsame]
    exact ih hnext hskip
  | case9 inComment offset hcomment after _ _ _ ih =>
    obtain rfl : inComment = false := by simpa using hcomment
    obtain ⟨next', hnext, hsame⟩ := hjoin halong rfl ((skipTriviaFrom_reaches hskip).trans hreaches)
    rw [hsame]
    exact ih hnext hskip
  | case10 | case11 => cases hskip
  | case12 inComment c cs offset hline hcomment hblank hsign hbackslash =>
    obtain rfl : inComment = false := by simpa using hcomment
    cases hskip
    obtain ⟨cs', rfl⟩ := halong.eq_cons
    rw [skipTriviaFrom_text hline hblank hsign hbackslash]
    exact ⟨_, rfl, halong⟩

/-- What a search finds lies behind the line from which it started. -/
private theorem LineStart.findFrom_reaches {inComment : Bool} {start start' offset : Nat}
    {width width' : IndentWidth} {cs : List Char} {stop : Cursor}
    (hfind : findFrom inComment start width cs offset = .line start' width' stop) :
    (⟨cs, offset⟩ : Cursor).Reaches stop := by
  fun_induction findFrom inComment start width cs offset with
  | case1 => cases hfind
  | case2 inComment start width c cs offset hline ih =>
    have hsize : c.utf8Size = 1 := by rcases hline with rfl | rfl <;> rfl
    exact .cons (hsize ▸ ih hfind)
  | case3 start width c cs offset hline ih => exact .cons (ih hfind)
  | case4 inComment start width cs offset _ _ ih | case5 inComment start width cs offset _ _ _ ih
  | case6 inComment start width cs offset _ _ _ _ ih
  | case7 inComment start width cs offset _ _ _ _ _ ih => exact .cons (ih hfind)
  | case8 =>
    cases hfind
    exact .refl _

/-- Searches in front of the same text find the same line, as long as its text starts where the
sources agree. -/
private theorem LineStart.findFrom_alongside {inComment : Bool} {start start' offset : Nat}
    {width width' : IndentWidth} {cs : List Char} {cursor' stop : Cursor}
    (halong : Cursor.Alongside mark place behind behind' ⟨cs, offset⟩ cursor')
    (hfind : findFrom inComment start width cs offset = .line start' width' stop)
    (hreaches : stop.Reaches ⟨mark :: behind, place⟩) :
    ∃ stop', findFrom inComment start width cursor'.rest offset = .line start' width' stop' ∧
      Cursor.Alongside mark place behind behind' stop stop' := by
  fun_induction findFrom inComment start width cs offset generalizing cursor' with
  | case1 => cases hfind
  | case2 inComment start width c cs offset hline ih =>
    have hsize : c.utf8Size = 1 := by rcases hline with rfl | rfl <;> rfl
    have hrest := (findFrom_reaches hfind).trans hreaches
    rw [← hsize] at hrest
    obtain ⟨cs', rfl, hrest⟩ := halong.cons hrest
    rw [hsize] at hrest
    rw [findFrom, if_pos hline]
    exact ih hrest hfind
  | case3 start width c cs offset hline ih =>
    obtain ⟨cs', rfl, hrest⟩ := halong.cons ((findFrom_reaches hfind).trans hreaches)
    rw [findFrom, if_neg hline, if_pos rfl]
    exact ih hrest hfind
  | case4 inComment start width cs offset hcomment _ ih
  | case5 inComment start width cs offset hcomment _ _ ih
  | case6 inComment start width cs offset hcomment _ _ _ ih
  | case7 inComment start width cs offset hcomment _ _ _ _ ih =>
    obtain rfl : inComment = false := by simpa using hcomment
    obtain ⟨cs', rfl, hrest⟩ := halong.cons ((findFrom_reaches hfind).trans hreaches)
    exact ih hrest hfind
  | case8 inComment start width c cs offset hline hcomment hspace htab hfeed hsign =>
    cases hfind
    obtain ⟨cs', rfl⟩ := halong.eq_cons
    refine ⟨⟨c :: cs', offset⟩, ?_, halong⟩
    rw [findFrom]
    simp [hline, hcomment, hspace, htab, hfeed, hsign]

namespace Lexer

/-! ## Calls -/

/-- Two lexers in front of the same text up to a mark, in the same state. -/
def Alongside (mark : Char) (place : Nat) (behind behind' : List Char) (lexer lexer' : Lexer) : Prop :=
  ∃ cursor size, lexer.cursor.Alongside mark place behind behind' cursor ∧
    lexer' = { lexer with cursor, size }

variable {source source' : List Char} {lexer lexer' next : Lexer} {token : Token}

/-- Whatever is reached up to the mark goes on to it. -/
theorem Alongside.reaches {stop : Cursor} (halong : lexer.Alongside mark place behind behind' lexer')
    (hstop : lexer.cursor.Reaches stop) (hle : stop.offset ≤ place) :
    stop.Reaches ⟨mark :: behind, place⟩ := by
  obtain ⟨cursor, size, ⟨text, hpasses, -⟩, -⟩ := halong
  exact hstop.of_offset_le ⟨text, hpasses⟩ hle

/-- Lexers in front of the same text read the same indentation, if it ends in front of the mark. -/
private theorem readIndentation_alongside {change : Option Token}
    (halong : lexer.Alongside mark place behind behind' lexer')
    (hread : lexer.readIndentation = .ok (change, next))
    (hreaches : next.cursor.Reaches ⟨mark :: behind, place⟩) :
    ∃ next', lexer'.readIndentation = .ok (change, next') ∧
      next.Alongside mark place behind behind' next' := by
  obtain ⟨cursor, size, hcursor, rfl⟩ := halong
  have hfind' : ∀ {start : Nat} {width : IndentWidth} {stop : Cursor},
      LineStart.find lexer.cursor = .line start width stop →
      stop.Reaches ⟨mark :: behind, place⟩ →
      ∃ stop', LineStart.find cursor = .line start width stop' ∧
        stop.Alongside mark place behind behind' stop' := by
    intro start width stop hfind hstop
    rw [LineStart.find, hcursor.offset_eq]
    exact LineStart.findFrom_alongside hcursor hfind hstop
  unfold readIndentation at hread
  split at hread
  · rename_i stop hnone
    have hempty := LineStart.find_separatedFrom lexer.cursor
    rw [hnone] at hempty
    cases hread
    obtain ⟨text, hrest, -⟩ := hreaches
    rw [hempty.1] at hrest
    simp at hrest
  · rename_i start width stop hfind
    dsimp only at hread
    unfold readIndentation
    split at hread
    · cases hread
    all_goals
      rename_i hchange
      cases hread
      obtain ⟨stop', hfind', hstop⟩ := hfind' hfind hreaches
      refine ⟨_, ?_, stop', size, hstop, rfl⟩
      rw [hfind']
      dsimp only
      rw [hchange]
    · rw [hstop.offset_eq]
    · rw [hstop.offset_eq]

/-- The start of a line in front of the mark is read alike. -/
theorem readLineStart_alongside {change : Option Token}
    (halong : lexer.Alongside mark place behind behind' lexer')
    (hstart : lexer.readLineStart = .ok (change, next))
    (hreaches : next.cursor.Reaches ⟨mark :: behind, place⟩) :
    ∃ next', lexer'.readLineStart = .ok (change, next') ∧
      next.Alongside mark place behind behind' next' := by
  have hlexer' : (lexer'.atLineStart && lexer'.brackets.isEmpty) =
      (lexer.atLineStart && lexer.brackets.isEmpty) := by
    obtain ⟨cursor, size, -, rfl⟩ := halong
    rfl
  unfold readLineStart at hstart ⊢
  rw [hlexer']
  split at hstart
  · rename_i hline
    rw [if_pos hline]
    exact readIndentation_alongside halong hstart hreaches
  · rename_i hline
    cases hstart
    rw [if_neg hline]
    exact ⟨lexer', rfl, halong⟩

/-- Brackets that are tracked without failure are so wherever the lexer stops. -/
theorem trackBrackets_of_ok {brackets brackets' : List (TokenKind × Span)} {kind : TokenKind}
    {span : Span} {stop : Cursor} (htrack : trackBrackets brackets kind span stop = .ok brackets')
    (stop' : Cursor) : trackBrackets brackets kind span stop' = .ok brackets' := by
  unfold trackBrackets at htrack ⊢
  split
  · rename_i hopen
    rwa [if_pos hopen] at htrack
  rename_i hopen
  rw [if_neg hopen] at htrack
  split
  · rename_i hclose
    rw [if_pos hclose] at htrack
    cases brackets with
    | nil => cases htrack
    | cons bracket outer =>
      dsimp only at htrack ⊢
      split
      · rename_i hmatch
        rwa [if_pos hmatch] at htrack
      · rename_i hmatch
        rw [if_neg hmatch] at htrack
        cases htrack
  · rename_i hclose
    rwa [if_neg hclose] at htrack

section

variable (hmark : StopsLike (mark :: behind) (mark :: behind'))

include hmark

/-- Lexers in front of the same text read the same token, if it ends in front of the mark. -/
private theorem readSignificant_alongside {c : Char}
    (halong : lexer.Alongside mark place behind behind' lexer')
    (hpeek : lexer.cursor.peek? = some c) (hread : lexer.readSignificant c = .ok (token, next))
    (hreaches : next.cursor.Reaches ⟨mark :: behind, place⟩) :
    ∃ next', lexer'.readSignificant c = .ok (token, next') ∧
      next.Alongside mark place behind behind' next' := by
  obtain ⟨cursor, size, hcursor, rfl⟩ := halong
  obtain ⟨-, ⟨text, hpasses⟩, -, htoken, hsignificant, htrack, hnext⟩ :=
    readSignificant_ok hpeek hread
  obtain ⟨stop', hpasses', hstop⟩ := hcursor.passes hpasses hreaches
  have hsignificant' :=
    significant_beside (hstop.stopsLike hmark) ⟨text, hpasses, hpasses'⟩ hpeek hsignificant
  have hspan : (⟨cursor.offset, stop'.offset⟩ : Span) = token.span := by
    rw [hcursor.offset_eq, hstop.offset_eq, htoken]
  have htext : cursor.textTo stop' = lexer.cursor.textTo next.cursor := by
    rw [hpasses.textTo_eq, hpasses'.textTo_eq]
  refine ⟨{ next with cursor := stop', size }, ?_, stop', size, hstop, rfl⟩
  unfold readSignificant
  refine bind_eq_ok_iff.mpr ⟨(token.kind, stop'), hsignificant', ?_⟩
  refine bind_eq_ok_iff.mpr ⟨next.brackets, ?_, ?_⟩
  · rw [hspan]
    exact trackBrackets_of_ok htrack stop'
  · dsimp only
    rw [hspan, htext, hnext, htoken]
    rfl

/-- What is within a line in front of the mark is read alike. -/
theorem readWithin_alongside {token? : Option Token}
    (halong : lexer.Alongside mark place behind behind' lexer')
    (hread : lexer.readWithin = .ok (token?, next))
    (hreaches : next.cursor.Reaches ⟨mark :: behind, place⟩) :
    ∃ next', lexer'.readWithin = .ok (token?, next') ∧
      next.Alongside mark place behind behind' next' := by
  obtain ⟨cursor', size, hcursor, rfl⟩ := halong
  obtain ⟨cursor, htrivia, -, hcases⟩ := readWithin_ok hread
  have htrivia' : cursor.Reaches ⟨mark :: behind, place⟩ →
      ∃ stop', skipTrivia (!lexer.brackets.isEmpty) cursor' = .ok stop' ∧
        cursor.Alongside mark place behind behind' stop' :=
    skipTriviaFrom_alongside hcursor htrivia
  rcases hcases with ⟨hrest, token, rfl, hend⟩ | ⟨hbreak, hnext, rfl⟩ |
    ⟨hbreak, c, token, hpeek, rfl, hsignificant⟩
  · -- At the end of the source there is no mark to come.
    have hcursor : next.cursor.rest = [] := by
      obtain ⟨-, ⟨-, -, rfl⟩ | ⟨-, -, -, hnext⟩ | ⟨-, -, -, rfl⟩⟩ := readEnd_ok hend
      · exact hrest
      · rw [hnext]
        exact hrest
      · exact hrest
    obtain ⟨text, hplace, -⟩ := hreaches
    rw [hcursor] at hplace
    simp at hplace
  · obtain ⟨text, hpasses, -⟩ := skipLineBreak?_passes hbreak
    obtain ⟨stop, hstop, halong⟩ := htrivia' (.trans ⟨text, hpasses⟩ hreaches)
    obtain ⟨behind', hbreak', hbehind⟩ := halong.skipLineBreak?_eq_some hbreak hreaches
    refine ⟨_, (readWithin_of_lineBreak hstop hbreak').trans ?_, behind', size, hbehind, rfl⟩
    have htext : stop.textTo behind' = cursor.textTo next.cursor :=
      Cursor.Beside.textTo_eq halong hbehind ⟨text, hpasses⟩
    rw [halong.offset_eq, hbehind.offset_eq, htext, hnext]
  · obtain ⟨-, hbehind, -⟩ := readSignificant_ok hpeek hsignificant
    obtain ⟨stop, hstop, halong⟩ := htrivia' (hbehind.trans hreaches)
    obtain ⟨next', hread', hnext⟩ := readSignificant_alongside hmark ⟨stop, size, halong, rfl⟩ hpeek
      hsignificant hreaches
    obtain ⟨d, hd, hd'⟩ := halong.peek?_eq
    obtain rfl : d = c := Option.some.inj (hd.symm.trans hpeek)
    exact ⟨next', readWithin_of_significant hstop hd' (halong.skipLineBreak?_eq_none hbreak) hread',
      hnext⟩

/-- A token in front of the mark is found alike. -/
theorem Finds.alongside (hfinds : lexer.Finds (.ok (token, next)))
    (halong : lexer.Alongside mark place behind behind' lexer')
    (hreaches : next.cursor.Reaches ⟨mark :: behind, place⟩) :
    ∃ next', lexer'.Finds (.ok (token, next')) ∧ next.Alongside mark place behind behind' next' := by
  generalize hresult : Except.ok (token, next) = result at hfinds
  induction hfinds generalizing lexer' with
  | indentation | failing => cases hresult
  | level hstart =>
    cases hresult
    obtain ⟨next', hstart', hnext⟩ := readLineStart_alongside halong hstart hreaches
    exact ⟨next', .level hstart', hnext⟩
  | token hstart hwithin =>
    cases hresult
    obtain ⟨entered', hstart', hentered⟩ :=
      readLineStart_alongside halong hstart ((readWithin_reaches hwithin).trans hreaches)
    obtain ⟨next', hwithin', hnext⟩ := readWithin_alongside hmark hentered hwithin hreaches
    exact ⟨next', .token hstart' hwithin', hnext⟩
  | line hstart hwithin hrest ih =>
    subst hresult
    have hline := hrest.reaches.trans hreaches
    obtain ⟨entered', hstart', hentered⟩ :=
      readLineStart_alongside halong hstart ((readWithin_reaches hwithin).trans hline)
    obtain ⟨behind', hwithin', hbehind⟩ := readWithin_alongside hmark hentered hwithin hline
    obtain ⟨next', hfinds', hnext⟩ := ih hbehind rfl
    exact ⟨next', .line hstart' hwithin' hfinds', hnext⟩

/-- Up to a mark the same tokens are read. -/
theorem next_alongside (hreading : lexer.Reading source) (hreading' : lexer'.Reading source')
    (halong : lexer.Alongside mark place behind behind' lexer') (hvalid : lexer.next.1.kind ≠ .invalid)
    (hreaches : lexer.next.2.cursor.Reaches ⟨mark :: behind, place⟩) :
    lexer'.next.1 = lexer.next.1 ∧ lexer.next.2.Alongside mark place behind behind' lexer'.next.2 := by
  rcases hreading.next_finds hvalid with ⟨pendingDedents, hdedents, hnext⟩ | ⟨hpending, hfinds⟩
  · obtain ⟨cursor, size, hcursor, rfl⟩ := halong
    rw [hreading'.next_eq (by rw [read, hdedents]), hnext]
    dsimp only
    rw [hcursor.offset_eq]
    exact ⟨rfl, cursor, size, hcursor, rfl⟩
  · obtain ⟨next', hfinds', hnext⟩ := hfinds.alongside hmark halong hreaches
    have hpending' : lexer'.pendingDedents = 0 := by
      obtain ⟨cursor, size, -, rfl⟩ := halong
      exact hpending
    rw [hreading'.next_of_finds hpending' hfinds']
    exact ⟨rfl, hnext⟩

/-- Any number of calls up to a mark answer the same tokens. -/
theorem alongside_after (hreading : lexer.Reading source) (hreading' : lexer'.Reading source')
    (halong : lexer.Alongside mark place behind behind' lexer') {count : Nat}
    (hafter : (lexer.after count).Reading source) (hle : (lexer.after count).cursor.offset ≤ place) :
    (∀ index < count, (lexer'.after index).next.1 = (lexer.after index).next.1) ∧
      (lexer'.after count).Reading source' ∧
      (lexer.after count).Alongside mark place behind behind' (lexer'.after count) := by
  induction count with
  | zero => exact ⟨fun index hindex => absurd hindex (Nat.not_lt_zero _), hreading', halong⟩
  | succ count ih =>
    rw [after_succ] at hafter hle
    have hbefore : (lexer.after count).Reading source := by
      rcases hreading.reading_after count with hreads | hended
      · exact hreads
      · rwa [hended] at hafter
    have hvalid : (lexer.after count).next.1.kind ≠ .invalid := by
      rcases hbefore.next_cases with ⟨hvalid, -⟩ | ⟨-, failure, hfailure⟩
      · exact hvalid
      · rw [hafter.failure_eq] at hfailure
        cases hfailure
    have hreaches := hbefore.next_reaches hvalid
    obtain ⟨hsame, hbefore', halong⟩ := ih hbefore (hreaches.offset_le.trans hle)
    obtain ⟨htoken, hnext⟩ := next_alongside hmark hbefore hbefore' halong hvalid
      (halong.reaches hreaches hle)
    rw [after_succ, after_succ]
    refine ⟨fun index hindex => ?_, ?_, hnext⟩
    · rcases Nat.lt_succ_iff_lt_or_eq.mp hindex with hlt | rfl
      · exact hsame index hlt
      · exact htoken
    · exact hbefore'.next_reading (by rwa [htoken])

end

/-! ## The line feed -/

/-- In front of a line feed tokens stop alike, whatever stands behind it. -/
theorem stopsLike_lineFeed : StopsLike ('\n' :: behind) ('\n' :: behind') :=
  .ends (.inr rfl) _ _

/-- Two lexers behind a line feed that ended a line. -/
structure BehindFeed (feed : Nat) (behind behind' : List Char) (lexer lexer' : Lexer) : Prop where
  cursor_eq : lexer.cursor = ⟨behind, feed + 1⟩
  brackets_eq : lexer.brackets = []
  atLineStart : lexer.atLineStart = true
  pendingDedents_eq : lexer.pendingDedents = 0
  state_eq : ∃ size, lexer' = { lexer with cursor := ⟨behind', feed + 1⟩, size }

/-- A line break that ends behind the line feed takes it. -/
theorem skipLineBreak?_feed {origin cursor stop : Cursor}
    (horigin : origin.Reaches ⟨'\n' :: behind, feed⟩) (hcursor : origin.Reaches cursor)
    (hbreak : cursor.skipLineBreak? = some stop) (hstop : stop.offset = feed + 1) :
    stop = ⟨behind, feed + 1⟩ ∧
      (cursor = ⟨'\n' :: behind, feed⟩ ∨
        ∃ offset, cursor = ⟨'\r' :: '\n' :: behind, offset⟩ ∧ feed = offset + 1) := by
  obtain ⟨text, htext⟩ := horigin
  obtain ⟨before, hbefore⟩ := hcursor
  obtain ⟨taken, htaken, hmem⟩ := skipLineBreak?_passes hbreak
  have hfeed : origin.Passes (text ++ ['\n']) ⟨behind, feed + 1⟩ := htext.trans ⟨rfl, rfl⟩
  obtain ⟨hsame, rfl⟩ := hfeed.eq_of_offset_eq (hbefore.trans htaken) hstop
  obtain ⟨rest, offset⟩ := cursor
  obtain ⟨hrest, hoffset⟩ := htaken
  dsimp only at hrest hoffset
  refine ⟨rfl, ?_⟩
  simp only [lineBreaks, List.mem_cons, List.not_mem_nil, or_false] at hmem
  rcases hmem with rfl | rfl | rfl
  · obtain rfl : feed = offset := Nat.succ.inj hoffset
    exact .inl (by rw [hrest]; rfl)
  · have hlast := congrArg List.getLast? hsame
    simp at hlast
  · obtain rfl : feed = offset + 1 := Nat.succ.inj hoffset
    exact .inr ⟨offset, by rw [hrest]; rfl, rfl⟩

/-- The line break that takes the line feed is the same on both texts. -/
theorem Alongside.skipLineBreak?_feed {cursor cursor' : Cursor}
    (halong : cursor.Alongside '\n' feed behind behind' cursor')
    (hfeed : cursor = ⟨'\n' :: behind, feed⟩ ∨
      ∃ offset, cursor = ⟨'\r' :: '\n' :: behind, offset⟩ ∧ feed = offset + 1) :
    cursor'.skipLineBreak? = some ⟨behind', feed + 1⟩ ∧
      cursor'.textTo ⟨behind', feed + 1⟩ = cursor.textTo ⟨behind, feed + 1⟩ := by
  have htext : ∀ (text rest rest' : List Char) (offset : Nat),
      (⟨text ++ rest', offset⟩ : Cursor).textTo ⟨rest', offset + Text.byteLength text⟩ =
        (⟨text ++ rest, offset⟩ : Cursor).textTo ⟨rest, offset + Text.byteLength text⟩ := by
    intro text rest rest' offset
    rw [Cursor.Passes.textTo_eq ⟨rfl, rfl⟩, Cursor.Passes.textTo_eq ⟨rfl, rfl⟩]
  rcases hfeed with rfl | ⟨offset, rfl, rfl⟩
  · obtain rfl := Cursor.Beside.eq_goal halong
    exact ⟨rfl, htext ['\n'] behind behind' feed⟩
  · obtain ⟨cs, rfl, hrest⟩ := halong.cons (.refl _)
    cases Cursor.Beside.eq_goal hrest
    exact ⟨rfl, htext ['\r', '\n'] behind behind' offset⟩

/-- A line break that ends with the line feed is read alike, and both lexers stand behind it. -/
private theorem readWithin_lineEnd (halong : lexer.Alongside '\n' feed behind behind' lexer')
    (hpending : lexer.pendingDedents = 0) (hread : lexer.readWithin = .ok (some token, next))
    (hkind : token.kind = .newline) (hstart : token.span.start < token.span.stop)
    (hstop : token.span.stop = feed + 1) :
    ∃ next', lexer'.readWithin = .ok (some token, next') ∧
      next.BehindFeed feed behind behind' next' := by
  obtain ⟨cursor', size, hcursor, rfl⟩ := halong
  obtain ⟨cursor, htrivia, hreaches, hcases⟩ := readWithin_ok hread
  rcases hcases with ⟨-, _, htoken, hend⟩ | ⟨hbreak, hnext, htoken⟩ |
    ⟨-, c, _, hpeek, htoken, hsignificant⟩
  · cases htoken
    obtain ⟨-, ⟨-, rfl, -⟩ | ⟨-, -, rfl, -⟩ | ⟨-, -, rfl, -⟩⟩ := readEnd_ok hend
    · exact absurd hstart (Nat.lt_irrefl _)
    · cases hkind
    · cases hkind
  · have hline : lexer.lineHasTokens = true := by
      refine Decidable.byContradiction fun hline => ?_
      rw [if_neg hline] at htoken
      cases htoken
    rw [if_pos hline] at htoken
    obtain rfl := Option.some.inj htoken
    have hbrackets : lexer.brackets = [] := by
      rcases hopen : lexer.brackets with _ | ⟨bracket, outer⟩
      · rfl
      · rw [hopen] at htrivia
        rw [skipTriviaFrom_inBrackets htrivia] at hbreak
        cases hbreak
    obtain ⟨text, hpasses, hpasses'⟩ := id hcursor
    obtain ⟨hstop, hfeed⟩ := skipLineBreak?_feed ⟨text, hpasses⟩ hreaches hbreak hstop
    have hfeed' : cursor.Reaches ⟨'\n' :: behind, feed⟩ := by
      rcases hfeed with rfl | ⟨offset, rfl, rfl⟩
      · exact .refl _
      · exact ⟨['\r'], rfl, rfl⟩
    obtain ⟨stop', htrivia', halong⟩ := skipTriviaFrom_alongside hcursor htrivia hfeed'
    have htrivia' : skipTrivia (!lexer.brackets.isEmpty) cursor' = .ok stop' := htrivia'
    obtain ⟨hbreak', htext⟩ := Alongside.skipLineBreak?_feed halong hfeed
    refine ⟨{ next with cursor := ⟨behind', feed + 1⟩, size },
      (readWithin_of_lineBreak htrivia' hbreak').trans ?_, ⟨hstop, ?_, ?_, ?_, size, rfl⟩⟩
    · dsimp only
      rw [if_pos hline, htext, halong.offset_eq, hnext, hstop]
    · rw [hnext]
      exact hbrackets
    · rw [hnext]
    · rw [hnext]
      exact hpending
  · cases htoken
    exact absurd hkind ((readSignificant_ok hpeek hsignificant).1.ne (by decide))

/-- A token of a line break that ends with the mark is found whatever follows it. -/
theorem Finds.lineEnd (hfinds : lexer.Finds (.ok (token, next))) (hreading : lexer.Reading source)
    (halong : lexer.Alongside '\n' feed behind behind' lexer') (hpending : lexer.pendingDedents = 0)
    (hkind : token.kind = .newline) (hstart : token.span.start < token.span.stop)
    (hstop : token.span.stop = feed + 1) :
    ∃ next', lexer'.Finds (.ok (token, next')) ∧ next.BehindFeed feed behind behind' next' := by
  generalize hresult : Except.ok (token, next) = result at hfinds
  induction hfinds generalizing lexer' with
  | indentation | failing => cases hresult
  | level hlevel =>
    cases hresult
    obtain ⟨-, -, ⟨rfl, -⟩ | ⟨rfl, -⟩⟩ := readLineStart_some hlevel <;> cases hkind
  | @token lexer entered next token hentry hwithin =>
    cases hresult
    have hentered := readLineStart_attempt hreading
    rw [hentry] at hentered
    have hreads := (readWithin_attempt hentered.2).1
    rw [hwithin] at hreads
    have hle := ReadsToken.offset_le_start hreads
    obtain ⟨entered', hentry', halong'⟩ := readLineStart_alongside halong hentry
      (halong.reaches (readLineStart_reaches hentry) (by omega))
    obtain ⟨next', hwithin', hnext⟩ := readWithin_lineEnd halong'
      ((readLineStart_weight hentry).2.trans hpending) hwithin hkind hstart hstop
    exact ⟨next', .token hentry' hwithin', hnext⟩
  | @line lexer entered middle result hentry hwithin hrest ih =>
    subst hresult
    have hentered := readLineStart_attempt hreading
    rw [hentry] at hentered
    have hmiddle := (readWithin_attempt hentered.2).1
    rw [hwithin] at hmiddle
    have hle := ReadsToken.offset_le_start (hrest.outcome hmiddle.2)
    have hbefore := (readWithin_reaches hwithin).offset_le
    obtain ⟨entered', hentry', halong'⟩ := readLineStart_alongside halong hentry
      (halong.reaches (readLineStart_reaches hentry) (by omega))
    obtain ⟨middle', hwithin', halong'⟩ := readWithin_alongside stopsLike_lineFeed halong' hwithin
      (halong'.reaches (readWithin_reaches hwithin) (by omega))
    have hweight := readWithin_weight hwithin (by simp)
    have hdedents := hweight.2.trans ((readLineStart_weight hentry).2.trans hpending)
    obtain ⟨next', hrest', hnext⟩ := ih hmiddle.2 halong' hdedents rfl
    exact ⟨next', .line hentry' hwithin' hrest', hnext⟩

/-- The line break that takes the line feed is read alike, whatever stands behind it. -/
theorem next_lineEnd (hreading : lexer.Reading source) (hreading' : lexer'.Reading source')
    (halong : lexer.Alongside '\n' feed behind behind' lexer') (hkind : lexer.next.1.kind = .newline)
    (hstart : lexer.next.1.span.start < lexer.next.1.span.stop)
    (hstop : lexer.next.1.span.stop = feed + 1) :
    lexer'.next.1 = lexer.next.1 ∧ lexer.next.2.BehindFeed feed behind behind' lexer'.next.2 := by
  rcases hreading.next_finds (by rw [hkind]; decide) with ⟨pendingDedents, -, hdedent⟩ |
    ⟨hpending, hfinds⟩
  · rw [hdedent] at hkind
    cases hkind
  · obtain ⟨next', hfinds', hnext⟩ := hfinds.lineEnd hreading halong hpending hkind hstart hstop
    have hpending' : lexer'.pendingDedents = 0 := by
      obtain ⟨cursor, size, -, rfl⟩ := halong
      exact hpending
    rw [hreading'.next_of_finds hpending' hfinds']
    exact ⟨rfl, hnext⟩

/-- Sources with the same text up to a line feed are entered alike. -/
theorem ofSource_alongside {source source' : String} {text : List Char}
    (hsource : source.toList = text ++ '\n' :: behind)
    (hsource' : source'.toList = text ++ '\n' :: behind') :
    (ofSource source).Alongside '\n' (Text.byteLength text) behind behind' (ofSource source') := by
  refine ⟨(ofSource source').cursor, source'.utf8ByteSize, ?_, rfl⟩
  rw [ofSource, ofSource, hsource, hsource']
  cases text with
  | nil => exact ⟨[], .refl _, .refl _⟩
  | cons c text =>
    dsimp only [start, List.cons_append]
    split
    · exact ⟨text, ⟨rfl, rfl⟩, ⟨rfl, rfl⟩⟩
    · exact ⟨c :: text, ⟨rfl, (Nat.zero_add _).symm⟩, ⟨rfl, (Nat.zero_add _).symm⟩⟩

end Lexer

end PythonOutline
