import PythonOutline.Proofs.Lexer.CommonStart
import PythonOutline.Proofs.Lexer.LineBreak

/-! # Lines without tokens at the end of a source

Blank lines and comment lines at the end of a source hold no line that starts something. Behind a
line feed they change nothing of what is passed in front of them: a search for the next line that
ends with the text still finds none, and text that belongs to no token is passed up to where it was
passed without them, or to a line break that only such lines follow. Where a backslash and a
carriage return end the text, the line feed belongs to the line join, and the lines behind it to the
line that is joined. -/

namespace PythonOutline

/-- The text of a line that holds blanks and perhaps a comment, without the line break that
ends it. -/
def IsBlankText (text : List Char) : Prop :=
  ∃ blanks comment, text = blanks ++ comment ∧ (∀ c ∈ blanks, Text.blanks.contains c) ∧
    (comment = [] ∨ ∃ body, comment = '#' :: body ∧ ∀ c ∈ body, ¬EndsLine c)

/-- Any number of lines that hold blanks and perhaps a comment. The last one may lack its line
break. -/
inductive TrailingLines : List Char → Prop where
  | last {text : List Char} (htext : IsBlankText text) : TrailingLines text
  | cons {text lineBreak lines : List Char} (htext : IsBlankText text)
      (hbreak : lineBreak ∈ lineBreaks) (hlines : TrailingLines lines) :
      TrailingLines (text ++ (lineBreak ++ lines))

/-- A text in which no line holds more than blanks and a comment, character by character. The first
line may start within a comment. -/
inductive HoldsNoLine : (inComment : Bool) → List Char → Prop where
  | nil {inComment : Bool} : HoldsNoLine inComment []
  | lineEnd {inComment : Bool} {c : Char} {cs : List Char} (hc : EndsLine c)
      (hrest : HoldsNoLine false cs) : HoldsNoLine inComment (c :: cs)
  | comment {c : Char} {cs : List Char} (hc : ¬EndsLine c) (hrest : HoldsNoLine true cs) :
      HoldsNoLine true (c :: cs)
  | blank {c : Char} {cs : List Char} (hc : Text.blanks.contains c) (hrest : HoldsNoLine false cs) :
      HoldsNoLine false (c :: cs)
  | sign {cs : List Char} (hrest : HoldsNoLine true cs) : HoldsNoLine false ('#' :: cs)

variable {inBrackets inComment : Bool} {text rest lines : List Char} {c : Char} {offset : Nat}
  {stop : Cursor}

private theorem Text.not_endsLine_of_blank (hc : Text.blanks.contains c) : ¬EndsLine c := by
  rcases Text.blanks_contains_iff.mp hc with rfl | rfl | rfl <;> decide

namespace HoldsNoLine

/-- A line break ends a comment. -/
theorem lineBreak (hbreak : text ∈ lineBreaks) (hrest : HoldsNoLine false rest) :
    HoldsNoLine inComment (text ++ rest) := by
  simp only [lineBreaks, List.mem_cons, List.not_mem_nil, or_false] at hbreak
  rcases hbreak with rfl | rfl | rfl
  · exact .lineEnd (.inl rfl) hrest
  · exact .lineEnd (.inr rfl) hrest
  · exact .lineEnd (.inr rfl) (.lineEnd (.inl rfl) hrest)

/-- Behind a line feed. -/
theorem of_lineFeed (hnone : HoldsNoLine inComment ('\n' :: rest)) : HoldsNoLine false rest := by
  cases hnone with
  | lineEnd _ hrest => exact hrest
  | comment hc => exact absurd (.inl rfl) hc
  | blank hc => exact absurd (.inl rfl) (Text.not_endsLine_of_blank hc)

end HoldsNoLine

/-- Blank text adds no line. -/
theorem IsBlankText.holdsNoLine (htext : IsBlankText text)
    (hrest : ∀ inComment, HoldsNoLine inComment rest) : HoldsNoLine false (text ++ rest) := by
  obtain ⟨blanks, comment, rfl, hblanks, hcomment⟩ := htext
  have hbehind : HoldsNoLine false (comment ++ rest) := by
    rcases hcomment with rfl | ⟨body, rfl, hbody⟩
    · exact hrest false
    · refine .sign ?_
      rw [List.append_eq]
      induction body with
      | nil => exact hrest true
      | cons c body ih =>
        obtain ⟨hc, hbody⟩ := List.forall_mem_cons.mp hbody
        exact .comment hc (ih hbody)
  rw [List.append_assoc]
  induction blanks with
  | nil => exact hbehind
  | cons c blanks ih =>
    obtain ⟨hc, hblanks⟩ := List.forall_mem_cons.mp hblanks
    exact .blank hc (ih hblanks)

/-- Trailing lines start nothing. -/
theorem TrailingLines.holdsNoLine (hlines : TrailingLines lines) : HoldsNoLine false lines := by
  induction hlines with
  | last htext =>
    have hnone := htext.holdsNoLine fun inComment => HoldsNoLine.nil
    rwa [List.append_nil] at hnone
  | cons htext hbreak _ ih => exact htext.holdsNoLine fun inComment => .lineBreak hbreak ih

/-! ## The search for a line -/

namespace LineStart

variable {start start' : Nat} {width width' : IndentWidth}

/-- No line with text is found where there is none. -/
theorem findFrom_holdsNoLine (hnone : HoldsNoLine inComment text) (start : Nat) (width : IndentWidth)
    (offset : Nat) : ∃ stop, findFrom inComment start width text offset = .none stop := by
  induction hnone generalizing start width offset with
  | nil => exact ⟨_, rfl⟩
  | @lineEnd _ c _ hc _ ih =>
    have hline : c = '\n' ∨ c = '\r' := hc
    rw [findFrom, if_pos hline]
    exact ih _ _ _
  | @comment c _ hc _ ih =>
    have hline : ¬(c = '\n' ∨ c = '\r') := hc
    rw [findFrom, if_neg hline, if_pos rfl]
    exact ih _ _ _
  | blank hc _ ih =>
    rcases Text.blanks_contains_iff.mp hc with rfl | rfl | rfl
    · exact ih _ _ _
    · exact ih _ _ _
    · exact ih _ _ _
  | sign _ ih => exact ih _ _ _

/-- A line that is found is found whatever follows the text. -/
theorem findFrom_append (rest : List Char)
    (hfind : findFrom inComment start width text offset = .line start' width' stop) :
    findFrom inComment start width (text ++ rest) offset =
      .line start' width' ⟨stop.rest ++ rest, stop.offset⟩ := by
  fun_induction findFrom inComment start width text offset with
  | case1 => cases hfind
  | case2 inComment start width c cs offset hline ih =>
    rw [List.cons_append, findFrom, if_pos hline]
    exact ih hfind
  | case3 start width c cs offset hline ih =>
    rw [List.cons_append, findFrom, if_neg hline, if_pos rfl]
    exact ih hfind
  | case4 inComment start width cs offset hcomment _ ih
  | case5 inComment start width cs offset hcomment _ _ ih
  | case6 inComment start width cs offset hcomment _ _ _ ih
  | case7 inComment start width cs offset hcomment _ _ _ _ ih =>
    obtain rfl : inComment = false := by simpa using hcomment
    exact ih hfind
  | case8 inComment start width c cs offset hline hcomment hspace htab hfeed hsign =>
    cases hfind
    rw [List.cons_append, findFrom]
    simp [hline, hcomment, hspace, htab, hfeed, hsign]

/-- Where no line is found, trailing lines bring none. -/
theorem findFrom_trailing (hlines : HoldsNoLine false lines)
    (hfind : findFrom inComment start width text offset = .none stop) :
    ∃ stop', findFrom inComment start width (text ++ '\n' :: lines) offset = .none stop' := by
  fun_induction findFrom inComment start width text offset with
  | case1 inComment start width offset =>
    rw [List.nil_append, findFrom, if_pos (.inl rfl)]
    exact findFrom_holdsNoLine hlines _ _ _
  | case2 inComment start width c cs offset hline ih =>
    rw [List.cons_append, findFrom, if_pos hline]
    exact ih hfind
  | case3 start width c cs offset hline ih =>
    rw [List.cons_append, findFrom, if_neg hline, if_pos rfl]
    exact ih hfind
  | case4 inComment start width cs offset hcomment _ ih
  | case5 inComment start width cs offset hcomment _ _ ih
  | case6 inComment start width cs offset hcomment _ _ _ ih
  | case7 inComment start width cs offset hcomment _ _ _ _ ih =>
    obtain rfl : inComment = false := by simpa using hcomment
    exact ih hfind
  | case8 => cases hfind

end LineStart

/-! ## Line breaks -/

namespace Cursor

/-- Text is passed whatever follows it. -/
theorem Passes.append {cursor : Cursor} (hpasses : cursor.Passes text stop) (rest : List Char) :
    (⟨cursor.rest ++ rest, cursor.offset⟩ : Cursor).Passes text ⟨stop.rest ++ rest, stop.offset⟩ :=
  ⟨by rw [hpasses.rest_eq, List.append_assoc], hpasses.offset_eq⟩

/-- A line break that more text follows is passed whatever follows the text. -/
theorem skipLineBreak?_append (rest : List Char)
    (hbreak : (⟨text, offset⟩ : Cursor).skipLineBreak? = some stop) (hstop : stop.rest ≠ []) :
    (⟨text ++ rest, offset⟩ : Cursor).skipLineBreak? = some ⟨stop.rest ++ rest, stop.offset⟩ := by
  unfold skipLineBreak? at hbreak
  split at hbreak
  · rename_i heq
    cases heq
    cases hbreak
    rfl
  · rename_i heq
    cases heq
    cases hbreak
    rfl
  · rename_i cs offset hfeed heq
    cases heq
    cases hbreak
    cases cs with
    | nil => exact absurd rfl hstop
    | cons c cs =>
      have hc : c ≠ '\n' := by
        rintro rfl
        exact hfeed cs rfl
      simp [skipLineBreak?, hc]
  · cases hbreak

/-- A line break is passed whatever follows the text, but a carriage return at the end of the text
together with a line feed behind it. -/
theorem skipLineBreak?_lineFeed (lines : List Char)
    (hbreak : (⟨text, offset⟩ : Cursor).skipLineBreak? = some stop) :
    (⟨text ++ '\n' :: lines, offset⟩ : Cursor).skipLineBreak? =
        some ⟨stop.rest ++ '\n' :: lines, stop.offset⟩ ∨
      stop.rest = [] ∧ (⟨text ++ '\n' :: lines, offset⟩ : Cursor).skipLineBreak? =
        some ⟨lines, stop.offset + 1⟩ := by
  by_cases hstop : stop.rest = []
  · unfold skipLineBreak? at hbreak
    split at hbreak <;> cases hbreak <;> rename_i heq <;> cases heq <;> obtain rfl := hstop
    · exact .inl rfl
    · exact .inl rfl
    · exact .inr ⟨rfl, rfl⟩
  · exact .inl (skipLineBreak?_append _ hbreak hstop)

end Cursor

/-! ## Text between tokens -/

/-- What stops at a character stops there whatever follows the text. -/
theorem skipTriviaFrom_append (rest : List Char)
    (hskip : skipTriviaFrom inBrackets inComment text offset = .ok stop) (hstop : stop.rest ≠ []) :
    skipTriviaFrom inBrackets inComment (text ++ rest) offset =
      .ok ⟨stop.rest ++ rest, stop.offset⟩ := by
  fun_induction skipTriviaFrom inBrackets inComment text offset with
  | case1 =>
    cases hskip
    exact absurd rfl hstop
  | case2 inComment c cs offset hline hbrackets ih =>
    rw [List.cons_append, skipTriviaFrom_lineEnd hline, if_pos hbrackets]
    exact ih hskip
  | case3 inComment c cs offset hline hbrackets =>
    cases hskip
    rw [List.cons_append, skipTriviaFrom_lineEnd hline, if_neg hbrackets]
  | case4 c cs offset hline ih =>
    rw [List.cons_append, skipTriviaFrom_comment hline]
    exact ih hskip
  | case5 inComment c cs offset hline hcomment hblank ih =>
    obtain rfl : inComment = false := by simpa using hcomment
    rw [List.cons_append, skipTriviaFrom_blank hline hblank]
    exact ih hskip
  | case6 inComment cs offset hcomment _ _ ih =>
    obtain rfl : inComment = false := by simpa using hcomment
    rw [List.cons_append, skipTriviaFrom_sign]
    exact ih hskip
  | case7 inComment offset hcomment after _ _ _ ih | case9 inComment offset hcomment after _ _ _ ih =>
    obtain rfl : inComment = false := by simpa using hcomment
    rw [List.cons_append, skipTriviaFrom_backslash]
    exact ih hskip
  | case8 inComment offset hcomment after hfeed _ _ _ ih =>
    obtain rfl : inComment = false := by simpa using hcomment
    have hbreak := Cursor.skipLineBreak?_return hfeed (offset + 1)
    have hafter : after ≠ [] := by
      rintro rfl
      cases hskip
      exact absurd rfl hstop
    rw [List.cons_append, skipTriviaFrom_backslash, Cursor.skipLineBreak?_append rest hbreak hafter]
    exact ih hskip
  | case10 | case11 => cases hskip
  | case12 inComment c cs offset hline hcomment hblank hsign hbackslash =>
    obtain rfl : inComment = false := by simpa using hcomment
    cases hskip
    rw [List.cons_append, skipTriviaFrom_text hline hblank hsign hbackslash]

/-- What stops at the end of the text goes on from there, or from behind the line feed, in lines
that start nothing. -/
theorem skipTriviaFrom_trailing (hlines : HoldsNoLine false lines)
    (hskip : skipTriviaFrom inBrackets inComment text offset = .ok stop) (hstop : stop.rest = []) :
    ∃ middle : Cursor, HoldsNoLine false middle.rest ∧ stop.offset ≤ middle.offset ∧
      (⟨text ++ '\n' :: lines, offset⟩ : Cursor).Reaches middle ∧
      skipTriviaFrom inBrackets inComment (text ++ '\n' :: lines) offset =
        skipTriviaFrom inBrackets false middle.rest middle.offset := by
  fun_induction skipTriviaFrom inBrackets inComment text offset with
  | case1 inComment offset =>
    cases hskip
    refine ⟨⟨'\n' :: lines, offset⟩, .lineEnd (.inl rfl) hlines, Nat.le_refl _, .refl _, ?_⟩
    rw [List.nil_append, skipTriviaFrom_lineEnd (.inl rfl), skipTriviaFrom_lineEnd (.inl rfl)]
  | case2 inComment c cs offset hline hbrackets ih =>
    have hsize : c.utf8Size = 1 := by rcases hline with rfl | rfl <;> rfl
    obtain ⟨middle, hnone, hle, hreaches, hsame⟩ := ih hskip
    rw [List.cons_append, skipTriviaFrom_lineEnd hline, if_pos hbrackets]
    exact ⟨middle, hnone, hle, .cons (hsize ▸ hreaches), hsame⟩
  | case3 =>
    cases hskip
    cases hstop
  | case4 c cs offset hline ih =>
    obtain ⟨middle, hnone, hle, hreaches, hsame⟩ := ih hskip
    rw [List.cons_append, skipTriviaFrom_comment hline]
    exact ⟨middle, hnone, hle, .cons hreaches, hsame⟩
  | case5 inComment c cs offset hline hcomment hblank ih =>
    obtain rfl : inComment = false := by simpa using hcomment
    obtain ⟨middle, hnone, hle, hreaches, hsame⟩ := ih hskip
    rw [List.cons_append, skipTriviaFrom_blank hline hblank]
    exact ⟨middle, hnone, hle, .cons hreaches, hsame⟩
  | case6 inComment cs offset hcomment _ _ ih =>
    obtain rfl : inComment = false := by simpa using hcomment
    obtain ⟨middle, hnone, hle, hreaches, hsame⟩ := ih hskip
    rw [List.cons_append, skipTriviaFrom_sign]
    exact ⟨middle, hnone, hle, .cons hreaches, hsame⟩
  | case7 inComment offset hcomment after _ _ _ ih =>
    obtain rfl : inComment = false := by simpa using hcomment
    obtain ⟨middle, hnone, hle, hreaches, hsame⟩ := ih hskip
    rw [List.cons_append, skipTriviaFrom_backslash]
    exact ⟨middle, hnone, hle, .cons (.cons (.cons hreaches)), hsame⟩
  | case8 inComment offset hcomment after hfeed _ _ _ ih =>
    obtain rfl : inComment = false := by simpa using hcomment
    have hbreak := Cursor.skipLineBreak?_return hfeed (offset + 1)
    cases after with
    | nil =>
      -- The line feed belongs to the line join.
      cases hskip
      rw [List.cons_append, skipTriviaFrom_backslash]
      exact ⟨⟨lines, offset + 3⟩, hlines, Nat.le_succ _, .cons (.cons (.cons (.refl _))), rfl⟩
    | cons c cs =>
      obtain ⟨middle, hnone, hle, hreaches, hsame⟩ := ih hskip
      rw [List.cons_append, skipTriviaFrom_backslash,
        Cursor.skipLineBreak?_append _ hbreak (List.cons_ne_nil c cs)]
      exact ⟨middle, hnone, hle, .cons (.cons hreaches), hsame⟩
  | case9 inComment offset hcomment after _ _ _ ih =>
    obtain rfl : inComment = false := by simpa using hcomment
    obtain ⟨middle, hnone, hle, hreaches, hsame⟩ := ih hskip
    rw [List.cons_append, skipTriviaFrom_backslash]
    exact ⟨middle, hnone, hle, .cons (.cons hreaches), hsame⟩
  | case10 | case11 => cases hskip
  | case12 =>
    cases hskip
    cases hstop

/-- In lines that start nothing, text that belongs to no token reaches to the end or to a
line break. -/
theorem skipTriviaFrom_holdsNoLine (hnone : HoldsNoLine inComment text) (offset : Nat) :
    ∃ stop, skipTriviaFrom false inComment text offset = .ok stop ∧
      (stop.rest = [] ∨
        ∃ behind, stop.skipLineBreak? = some behind ∧ HoldsNoLine false behind.rest) := by
  induction hnone generalizing offset with
  | nil => exact ⟨_, rfl, .inl rfl⟩
  | @lineEnd _ c cs hc hrest =>
    refine ⟨⟨c :: cs, offset⟩, skipTriviaFrom_lineEnd hc, .inr ?_⟩
    rcases hc with rfl | rfl
    · exact ⟨_, rfl, hrest⟩
    · unfold Cursor.skipLineBreak?
      split
      · rename_i heq
        cases heq
        exact ⟨_, rfl, hrest.of_lineFeed⟩
      · rename_i heq
        cases heq
      · rename_i heq
        cases heq
        exact ⟨_, rfl, hrest⟩
      · rename_i hreturn
        exact absurd rfl (hreturn cs offset)
  | comment hc _ ih =>
    rw [skipTriviaFrom_comment hc]
    exact ih _
  | blank hc _ ih =>
    rw [skipTriviaFrom_blank (Text.not_endsLine_of_blank hc) hc]
    exact ih _
  | sign _ ih =>
    rw [skipTriviaFrom_sign]
    exact ih _

end PythonOutline
