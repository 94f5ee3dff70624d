import PythonOutline.Lexer.Basic
import PythonOutline.Proofs.Text.Boundary

/-! # Text that belongs to no token

Between two tokens stand blanks, line breaks, backslash line joins and comments, and nothing else.
`Separator` says what a single one of them is; a comment reaches to the end of its line, so whether
a piece of text is a comment depends on what follows it. The two scanners that pass text without
making a token of it, `skipTrivia` and `LineStart.find`, pass a sequence of separators.
-/

namespace PythonOutline

/-- The spellings of a line break. -/
def lineBreaks : List (List Char) :=
  [['\n'], ['\r'], ['\r', '\n']]

/-- Whether a character ends a line. -/
def EndsLine (c : Char) : Prop :=
  c = '\n' ∨ c = '\r'

instance (c : Char) : Decidable (EndsLine c) :=
  inferInstanceAs (Decidable (_ ∨ _))

/-- A piece of text that belongs to no token, in front of the text that follows it. -/
inductive Separator : List Char → List Char → Prop where
  | blank {c : Char} {after : List Char} (hblank : c = ' ' ∨ c = '\t' ∨ c = '\x0c') :
      Separator [c] after
  | lineBreak {text after : List Char} (hbreak : text ∈ lineBreaks) : Separator text after
  /-- A backslash that joins a line with the next one. -/
  | lineJoin {text after : List Char} (hbreak : text ∈ lineBreaks) :
      Separator ('\\' :: text) after
  /-- A comment with all of the rest of its line. -/
  | comment {body after : List Char} (hbody : ∀ c ∈ body, ¬EndsLine c)
      (hafter : ∀ c ∈ after.head?, EndsLine c) : Separator ('#' :: body) after

/-- A cursor reaches a later one by passing separators only. -/
inductive Cursor.Separates : Cursor → Cursor → Prop where
  | refl (cursor : Cursor) : Separates cursor cursor
  | step {cursor middle later : Cursor} {text : List Char} (hpasses : cursor.Passes text middle)
      (hseparator : Separator text middle.rest) (hrest : Separates middle later) :
      Separates cursor later

namespace Cursor.Separates

variable {cursor middle later : Cursor}

/-- Separators behind separators are separators. -/
theorem trans (hfirst : cursor.Separates middle) (hsecond : middle.Separates later) :
    cursor.Separates later := by
  induction hfirst with
  | refl => exact hsecond
  | step hpasses hseparator _ ih => exact .step hpasses hseparator (ih hsecond)

/-- Separators are text that is passed. -/
theorem passes (hseparates : cursor.Separates later) : ∃ text, cursor.Passes text later := by
  induction hseparates with
  | refl cursor => exact ⟨[], .refl cursor⟩
  | step hpasses _ _ ih =>
    obtain ⟨text, hrest⟩ := ih
    exact ⟨_, hpasses.trans hrest⟩

/-- Separators do not lead back. -/
theorem offset_le (hseparates : cursor.Separates later) : cursor.offset ≤ later.offset := by
  obtain ⟨text, hpasses⟩ := hseparates.passes
  exact hpasses.offset_le

/-- Separators do not lead out of the source. -/
theorem isIn {source : List Char} (hseparates : cursor.Separates later)
    (hin : cursor.IsIn source) : later.IsIn source := by
  obtain ⟨text, hpasses⟩ := hseparates.passes
  exact hin.passes hpasses

/-- Passing a line break of one character and then separators. -/
theorem lineEnd {c : Char} {cs : List Char} {offset : Nat} (hc : EndsLine c)
    (hrest : (⟨cs, offset + 1⟩ : Cursor).Separates later) :
    (⟨c :: cs, offset⟩ : Cursor).Separates later := by
  rcases hc with rfl | rfl
  · exact .step (Passes.refl _).cons (.lineBreak (by decide)) hrest
  · exact .step (Passes.refl _).cons (.lineBreak (by decide)) hrest

/-- Passing a blank and then separators. -/
theorem blank {c : Char} {cs : List Char} {offset : Nat} (hc : c = ' ' ∨ c = '\t' ∨ c = '\x0c')
    (hrest : (⟨cs, offset + c.utf8Size⟩ : Cursor).Separates later) :
    (⟨c :: cs, offset⟩ : Cursor).Separates later :=
  .step (Passes.refl _).cons (.blank hc) hrest

/-- Passing a line join and then separators. -/
theorem lineJoin (text : List Char) {cs : List Char} {offset : Nat} (hbreak : text ∈ lineBreaks)
    (hrest : (⟨cs, offset + 1 + Text.byteLength text⟩ : Cursor).Separates later) :
    (⟨'\\' :: (text ++ cs), offset⟩ : Cursor).Separates later := by
  have hpasses : (⟨text ++ cs, offset + 1⟩ : Cursor).Passes text
      ⟨cs, offset + 1 + Text.byteLength text⟩ := ⟨rfl, rfl⟩
  exact .step hpasses.cons (.lineJoin hbreak) hrest

end Cursor.Separates

/-- A cursor inside a comment reaches a later one: it passes the rest of the comment and then
separators. -/
def Cursor.LeavesComment (cursor later : Cursor) : Prop :=
  ∃ body middle, cursor.Passes body middle ∧ (∀ c ∈ body, ¬EndsLine c) ∧
    (∀ c ∈ middle.rest.head?, EndsLine c) ∧ middle.Separates later

namespace Cursor.LeavesComment

variable {cursor later : Cursor}

/-- One more character of the comment. -/
theorem cons {c : Char} {cs : List Char} {offset : Nat} (hc : ¬EndsLine c)
    (hrest : (⟨cs, offset + c.utf8Size⟩ : Cursor).LeavesComment later) :
    (⟨c :: cs, offset⟩ : Cursor).LeavesComment later := by
  obtain ⟨body, middle, hpasses, hbody, hend, hseparates⟩ := hrest
  refine ⟨c :: body, middle, hpasses.cons, ?_, hend, hseparates⟩
  intro d hd
  rcases List.mem_cons.mp hd with rfl | hd
  · exact hc
  · exact hbody d hd

/-- The end of the comment. -/
theorem ofSeparates (hend : ∀ c ∈ cursor.rest.head?, EndsLine c)
    (hseparates : cursor.Separates later) : cursor.LeavesComment later :=
  ⟨[], cursor, .refl cursor, by simp, hend, hseparates⟩

/-- The sign that starts a comment makes a separator of what follows. -/
theorem separates {cs : List Char} {offset : Nat}
    (hcomment : (⟨cs, offset + 1⟩ : Cursor).LeavesComment later) :
    (⟨'#' :: cs, offset⟩ : Cursor).Separates later := by
  obtain ⟨body, middle, hpasses, hbody, hend, hseparates⟩ := hcomment
  exact .step (Passes.cons hpasses) (.comment hbody hend) hseparates

end Cursor.LeavesComment

/-- How text is passed that belongs to no token, from within a comment or outside of one. -/
def Cursor.SeparatesFrom (inComment : Bool) (cursor later : Cursor) : Prop :=
  if inComment then cursor.LeavesComment later else cursor.Separates later

namespace Cursor.SeparatesFrom

variable {inComment : Bool} {cursor later : Cursor}

private theorem outside (hcomment : ¬inComment = true) (hseparates : cursor.Separates later) :
    cursor.SeparatesFrom inComment later := by
  simpa [SeparatesFrom, hcomment] using hseparates

/-- At the end of a line it does not matter whether the line ends with a comment. -/
theorem atLineEnd (hend : ∀ c ∈ cursor.rest.head?, EndsLine c)
    (hseparates : cursor.Separates later) : cursor.SeparatesFrom inComment later := by
  unfold SeparatesFrom
  split
  · exact .ofSeparates hend hseparates
  · exact hseparates

end Cursor.SeparatesFrom

/-- The blanks are the space, the tabulator and the form feed. -/
theorem Text.blanks_contains_iff {c : Char} :
    Text.blanks.contains c ↔ c = ' ' ∨ c = '\t' ∨ c = '\x0c' := by
  have hspace : c = ' ' ↔ c.toNat = 32 := by rw [← Char.toNat_inj]; rfl
  have htab : c = '\t' ↔ c.toNat = 9 := by rw [← Char.toNat_inj]; rfl
  have hfeed : c = '\x0c' ↔ c.toNat = 12 := by rw [← Char.toNat_inj]; rfl
  rw [hspace, htab, hfeed]
  simp only [blanks, CharSet.contains, CharSet.insert, CharSet.insertRange, CharSet.empty,
    inRanges, List.any_cons, List.any_nil, Char.reduceToNat, Bool.or_false, Bool.or_eq_true,
    Bool.and_eq_true, decide_eq_true_eq]
  omega

/-- Where the text between tokens ends, or where it stops making sense, only separators have been
passed. -/
theorem skipTriviaFrom_separatesFrom (inBrackets inComment : Bool) (cs : List Char)
    (offset : Nat) :
    ∃ later, (⟨cs, offset⟩ : Cursor).SeparatesFrom inComment later ∧
      match skipTriviaFrom inBrackets inComment cs offset with
      | .ok stop => stop = later
      | .error failure => failure.error.span.start = later.offset := by
  fun_induction skipTriviaFrom inBrackets inComment cs offset with
  | case1 => exact ⟨_, .atLineEnd (by simp) (.refl _), rfl⟩
  | case2 inComment c cs offset hline _ ih =>
    obtain ⟨later, hseparates, hresult⟩ := ih
    exact ⟨later, .atLineEnd (by simpa [EndsLine] using hline) (.lineEnd hline hseparates), hresult⟩
  | case3 inComment c cs offset hline =>
    exact ⟨_, .atLineEnd (by simpa [EndsLine] using hline) (.refl _), rfl⟩
  | case4 c cs offset hline ih =>
    obtain ⟨later, hseparates, hresult⟩ := ih
    exact ⟨later, Cursor.LeavesComment.cons hline hseparates, hresult⟩
  | case5 inComment c cs offset _ hcomment hblank ih =>
    obtain ⟨later, hseparates, hresult⟩ := ih
    exact ⟨later, .outside hcomment (.blank (Text.blanks_contains_iff.mp hblank) hseparates),
      hresult⟩
  | case6 inComment cs offset hcomment _ _ ih =>
    obtain ⟨later, hseparates, hresult⟩ := ih
    exact ⟨later, .outside hcomment (Cursor.LeavesComment.separates hseparates), hresult⟩
  | case7 inComment offset hcomment after _ _ _ ih =>
    obtain ⟨later, hseparates, hresult⟩ := ih
    exact ⟨later, .outside hcomment (.lineJoin ['\r', '\n'] (by decide) hseparates),
      hresult⟩
  | case8 inComment offset hcomment after _ _ _ _ ih =>
    obtain ⟨later, hseparates, hresult⟩ := ih
    exact ⟨later, .outside hcomment (.lineJoin ['\r'] (by decide) hseparates), hresult⟩
  | case9 inComment offset hcomment after _ _ _ ih =>
    obtain ⟨later, hseparates, hresult⟩ := ih
    exact ⟨later, .outside hcomment (.lineJoin ['\n'] (by decide) hseparates), hresult⟩
  | case10 inComment offset hcomment => exact ⟨_, .outside hcomment (.refl _), rfl⟩
  | case11 inComment cs offset hcomment => exact ⟨_, .outside hcomment (.refl _), rfl⟩
  | case12 inComment c cs offset _ hcomment => exact ⟨_, .outside hcomment (.refl _), rfl⟩

/-- The text between two tokens is made of separators, up to where it ends or stops making
sense. -/
theorem skipTrivia_separates (inBrackets : Bool) (cursor : Cursor) :
    ∃ later, cursor.Separates later ∧
      match skipTrivia inBrackets cursor with
      | .ok stop => stop = later
      | .error failure => failure.error.span.start = later.offset :=
  skipTriviaFrom_separatesFrom inBrackets false cursor.rest cursor.offset

/-- The text in front of the first line that holds a token: separators up to the start of that line,
and separators from there to its first token. -/
def LineStart.SeparatedFrom (cursor : Cursor) : LineStart → Prop
  | .none stop => stop.rest = [] ∧ cursor.Separates stop
  | .line start _ stop =>
    ∃ lineStart, cursor.Separates lineStart ∧ lineStart.offset = start ∧ lineStart.Separates stop

/-- The search passes separators only. It knows the line it is in by the cursor `lineStart`, from
which all that the search passes in this line is separators too. -/
theorem LineStart.findFrom_separatedFrom {origin lineStart : Cursor} {inComment : Bool}
    {width : IndentWidth} {cs : List Char} {offset : Nat}
    (horigin : origin.Separates lineStart)
    (hcurrent : ∀ later, (⟨cs, offset⟩ : Cursor).SeparatesFrom inComment later →
      lineStart.Separates later) :
    (findFrom inComment lineStart.offset width cs offset).SeparatedFrom origin := by
  induction cs generalizing inComment width offset lineStart with
  | nil =>
    exact ⟨rfl, horigin.trans (hcurrent _ (.atLineEnd (by simp) (.refl _)))⟩
  | cons c cs ih =>
    rw [findFrom]
    split
    case isTrue hline =>
      have hnext : lineStart.Separates ⟨cs, offset + 1⟩ :=
        hcurrent _ (.atLineEnd (by simpa [EndsLine] using hline) (.lineEnd hline (.refl _)))
      exact ih (horigin.trans hnext) fun later hseparates => hseparates
    case isFalse hline =>
      split
      case isTrue hcomment =>
        subst hcomment
        exact ih horigin fun later hseparates =>
          hcurrent later (Cursor.LeavesComment.cons hline hseparates)
      case isFalse hcomment =>
        have hblank : ∀ {width : IndentWidth}, c = ' ' ∨ c = '\t' ∨ c = '\x0c' →
            (findFrom false lineStart.offset width cs (offset + 1)).SeparatedFrom origin := by
          intro width hc
          have hsize : c.utf8Size = 1 := by rcases hc with rfl | rfl | rfl <;> rfl
          refine ih horigin fun later hseparates => hcurrent later (.outside hcomment ?_)
          exact .blank hc (by rw [hsize]; exact hseparates)
        split
        case isTrue hc => exact hblank (.inl hc)
        split
        case isTrue hc => exact hblank (.inr (.inl hc))
        split
        case isTrue hc => exact hblank (.inr (.inr hc))
        split
        case isTrue hc =>
          subst hc
          exact ih horigin fun later hseparates =>
            hcurrent later (.outside hcomment (Cursor.LeavesComment.separates hseparates))
        case isFalse =>
          exact ⟨lineStart, horigin, rfl, hcurrent _ (.outside hcomment (.refl _))⟩

/-- Only separators stand in front of the first line that holds a token, and in front of its first
token. -/
theorem LineStart.find_separatedFrom (cursor : Cursor) : (find cursor).SeparatedFrom cursor :=
  findFrom_separatedFrom (.refl cursor) fun _ hseparates => hseparates

/-- A byte belongs to one of the separators that lead from a cursor to a later one. -/
def Cursor.SeparatesAt (cursor later : Cursor) (byte : Nat) : Prop :=
  ∃ start stop text, cursor.Separates start ∧ start.Passes text stop ∧ Separator text stop.rest ∧
    stop.Separates later ∧ start.offset ≤ byte ∧ byte < stop.offset

/-- With only separators between two cursors, each byte between them belongs to one of these. -/
theorem Cursor.Separates.separatesAt {cursor later : Cursor} (hseparates : cursor.Separates later)
    {byte : Nat} (hstart : cursor.offset ≤ byte) (hstop : byte < later.offset) :
    cursor.SeparatesAt later byte := by
  induction hseparates with
  | refl => omega
  | @step cursor middle later text hpasses hseparator hrest ih =>
    by_cases hmiddle : middle.offset ≤ byte
    · obtain ⟨start, stop, text', hbefore, hthere⟩ := ih hmiddle hstop
      exact ⟨start, stop, text', .step hpasses hseparator hbefore, hthere⟩
    · exact ⟨cursor, middle, text, .refl cursor, hpasses, hseparator, hrest, hstart, by omega⟩

end PythonOutline
