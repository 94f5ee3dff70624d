import Mathlib.Data.List.DropRight
import PythonOutline.Proofs.Text.Cut
import PythonOutline.Text.Span

/-! # Positions as coordinates

The position of an offset is told by the text in front of it: by the line feeds in it, and by
the characters behind the last one. So positions are ordered as the offsets are, and an offset
can be found again by its position: its line starts behind as many line feeds as there are lines
before it. -/

namespace PythonOutline

namespace Text

/-- The text behind the last line feed. -/
def lastLine (text : List Char) : List Char :=
  text.rtakeWhile (· != '\n')

/-- The first lines of a text with their line feeds. -/
def firstLines : List Char → (count : Nat) → List Char
  | _, 0 => []
  | [], _ + 1 => []
  | c :: cs, count + 1 => c :: firstLines cs (if c = '\n' then count else count + 1)

/-- A text of whole lines. -/
def IsLines (text : List Char) : Prop :=
  text = [] ∨ ∃ front, text = front ++ ['\n']

variable {text front line before after piece : List Char}

/-- The last line of a text has no line feed. -/
theorem lineFeed_not_mem_lastLine (text : List Char) : '\n' ∉ lastLine text := by
  intro hmem
  simpa using List.mem_rtakeWhile_imp hmem

private theorem lastLine_append (hline : '\n' ∉ line) (front : List Char) :
    lastLine (front ++ line) = lastLine front ++ line := by
  induction line using List.reverseRecOn with
  | nil => simp
  | append_singleton line c ih =>
    have hc : (c != '\n') = true := by simpa using fun heq : c = '\n' => hline (by simp [heq])
    have hfront := ih fun hmem => hline (by simp [hmem])
    rw [← List.append_assoc, lastLine, List.rtakeWhile_concat_pos (· != '\n') _ _ hc, ← lastLine, hfront,
      List.append_assoc]

/-- The last line is what stands behind whole lines. -/
theorem lastLine_lines (hfront : IsLines front) (hline : '\n' ∉ line) :
    lastLine (front ++ line) = line := by
  rw [lastLine_append hline]
  rcases hfront with rfl | ⟨front, rfl⟩
  · rfl
  · rw [lastLine, List.rtakeWhile_concat_neg _ _ _ (by simp), List.nil_append]

/-- In front of the last line stand whole lines. -/
theorem exists_isLines (text : List Char) :
    ∃ front, IsLines front ∧ text = front ++ lastLine text := by
  induction text using List.reverseRecOn with
  | nil => exact ⟨[], .inl rfl, rfl⟩
  | append_singleton text c ih =>
    by_cases hc : c = '\n'
    · subst hc
      refine ⟨text ++ ['\n'], .inr ⟨text, rfl⟩, ?_⟩
      rw [lastLine, List.rtakeWhile_concat_neg _ _ _ (by simp), List.append_nil]
    · obtain ⟨front, hfront, hsplit⟩ := ih
      refine ⟨front, hfront, ?_⟩
      rw [lastLine_append (by simpa using Ne.symm hc), ← List.append_assoc, ← hsplit]

/-- The first lines, as many as a text has, are that text. -/
theorem firstLines_append (hfront : IsLines front) (rest : List Char) :
    firstLines (front ++ rest) (front.count '\n') = front := by
  have hlines : ∀ text : List Char,
      firstLines (text ++ '\n' :: rest) (text.count '\n' + 1) = text ++ ['\n'] := by
    intro text
    induction text with
    | nil => simp [firstLines]
    | cons c cs ih =>
      by_cases hc : c = '\n'
      · simp [firstLines, hc, ih]
      · simp [firstLines, hc, ih]
  rcases hfront with rfl | ⟨front, rfl⟩
  · rw [List.nil_append, List.count_nil, firstLines]
  · simpa using hlines front

end Text

namespace Position

open PythonOutline.Text

/-- A position comes before another one: its line does, or its column in the same line. -/
def Before (position other : Position) : Prop :=
  position.line < other.line ∨ position.line = other.line ∧ position.column < other.column

/-- The offset at a position: as many characters as the column tells behind the start of the line,
which stands behind as many line feeds as there are lines before it. -/
def offset (text : List Char) (position : Position) : Nat :=
  let lines := firstLines text (position.line - 1)
  byteLength lines + byteLength ((text.drop lines.length).take (position.column - 1))

variable {text before after piece : List Char}

private theorem locateFrom_line {line : List Char} (hline : '\n' ∉ line) (after : List Char)
    (number column byteColumn : Nat) :
    locateFrom number column byteColumn (line ++ after) (byteLength line) =
      ⟨number, column + line.length⟩ := by
  induction line generalizing column byteColumn with
  | nil => cases after <;> simp [locateFrom]
  | cons c line ih =>
    have hc : 0 < c.utf8Size := c.utf8Size_pos
    rw [List.mem_cons, not_or] at hline
    rw [List.cons_append, byteLength_cons, locateFrom, if_neg (by omega), if_neg (by omega),
      if_neg (Ne.symm hline.1), Nat.add_sub_cancel_left, ih hline.2, List.length_cons,
      Nat.add_assoc, Nat.add_comm 1]

/-- Lines that are passed count to the number and leave no column. -/
private theorem locateFrom_lines (front rest : List Char) (number column byteColumn count : Nat) :
    locateFrom number column byteColumn (front ++ '\n' :: rest)
        (byteLength (front ++ ['\n']) + count) =
      locateFrom (number + front.count '\n' + 1) 1 1 rest count := by
  induction front generalizing number column byteColumn with
  | nil =>
    have hfeed : 0 < '\n'.utf8Size := Char.utf8Size_pos _
    rw [List.nil_append, List.nil_append, byteLength_cons, byteLength_nil, Nat.add_zero, locateFrom,
      if_neg (by omega), if_neg (by omega), if_pos rfl, Nat.add_sub_cancel_left, List.count_nil,
      Nat.add_zero]
  | cons c front ih =>
    have hc : 0 < c.utf8Size := c.utf8Size_pos
    rw [List.cons_append, List.cons_append, byteLength_cons, Nat.add_assoc, locateFrom,
      if_neg (by omega), if_neg (by omega), Nat.add_sub_cancel_left, ih, ih]
    by_cases hfeed : c = '\n'
    · rw [if_pos hfeed, hfeed, List.count_cons_self, Nat.add_right_comm number, Nat.add_assoc number]
    · rw [if_neg hfeed, List.count_cons_of_ne hfeed]

/-- The position behind a text is told by its line feeds and its last line. -/
theorem locate_append (before after : List Char) :
    locate (before ++ after) (byteLength before) =
      ⟨before.count '\n' + 1, (lastLine before).length + 1⟩ := by
  obtain ⟨front, hfront, hsplit⟩ := exists_isLines before
  have hline := lineFeed_not_mem_lastLine before
  generalize lastLine before = line at hsplit hline ⊢
  subst hsplit
  rcases hfront with rfl | ⟨front, rfl⟩
  · rw [List.nil_append, locate, locateFrom_line hline, List.count_eq_zero_of_not_mem hline,
      Nat.add_comm]
  · rw [locate, byteLength_append, List.append_assoc, List.append_assoc, List.singleton_append,
      locateFrom_lines, locateFrom_line hline, List.count_append, List.count_append,
      List.count_eq_zero_of_not_mem hline, List.count_singleton_self]
    congr 1 <;> omega

/-- Offsets behind the end have the position of the end. -/
theorem locate_of_le {count : Nat} (hle : byteLength text ≤ count) :
    locate text count = locate text (byteLength text) := by
  have hfrom : ∀ (text : List Char) (number column byteColumn count : Nat),
      byteLength text ≤ count → locateFrom number column byteColumn text count =
        locateFrom number column byteColumn text (byteLength text) := by
    intro text
    induction text with
    | nil => intros; rfl
    | cons c cs ih =>
      intro number column byteColumn count hle
      have hc : 0 < c.utf8Size := c.utf8Size_pos
      rw [byteLength_cons] at hle ⊢
      simp only [locateFrom, if_neg (show ¬count = 0 by omega),
        if_neg (show ¬count < c.utf8Size by omega),
        if_neg (show ¬c.utf8Size + byteLength cs = 0 by omega),
        if_neg (show ¬c.utf8Size + byteLength cs < c.utf8Size by omega), Nat.add_sub_cancel_left,
        ih _ _ _ (count - c.utf8Size) (by omega)]
  exact hfrom text 1 1 1 count hle

/-- A piece of text moves the position on. -/
theorem before_append (hne : piece ≠ []) :
    Before ⟨before.count '\n' + 1, (lastLine before).length + 1⟩
      ⟨(before ++ piece).count '\n' + 1, (lastLine (before ++ piece)).length + 1⟩ := by
  have hlength := List.length_pos_iff.mpr hne
  by_cases hfeed : '\n' ∈ piece
  · have hcount := List.count_pos_iff.mpr hfeed
    refine .inl ?_
    simp only [List.count_append]
    omega
  · refine .inr ⟨?_, ?_⟩
    · simp [List.count_append, List.count_eq_zero_of_not_mem hfeed]
    · simp only [lastLine_append hfeed, List.length_append]
      omega

private theorem locate_before {first second : Nat} (hfirst : IsBoundary text first)
    (hsecond : IsBoundary text second) (hlt : first < second) :
    (locate text first).Before (locate text second) := by
  obtain ⟨before, after, rfl, rfl⟩ := hfirst
  obtain ⟨upTo, behind, hsplit, rfl⟩ := hsecond
  rw [locate_append, hsplit, locate_append]
  rcases List.append_eq_append_iff.mp hsplit with ⟨piece, rfl, -⟩ | ⟨piece, rfl, -⟩
  · refine before_append ?_
    rintro rfl
    simp at hlt
  · rw [byteLength_append] at hlt
    omega

private theorem offset_locate {index : Nat} (hindex : IsBoundary text index) :
    (locate text index).offset text = index := by
  obtain ⟨before, after, rfl, rfl⟩ := hindex
  obtain ⟨front, hfront, hsplit⟩ := exists_isLines before
  have hline := lineFeed_not_mem_lastLine before
  have hlines : firstLines (before ++ after) (before.count '\n') = front := by
    rw [hsplit, List.count_append, List.count_eq_zero_of_not_mem hline, List.append_assoc]
    exact firstLines_append hfront _
  have hrest : (before ++ after).drop front.length = lastLine before ++ after := by
    conv_lhs => rw [hsplit]
    rw [List.append_assoc, List.drop_left]
  rw [locate_append, offset, Nat.add_sub_cancel, Nat.add_sub_cancel, hlines, hrest, List.take_left]
  conv_rhs => rw [hsplit]
  rw [byteLength_append]

/-- **Positions are coordinates.** A later boundary has a later position, by lines first and then by
columns. A boundary is found again from its position. What lies behind the end has the position of
the end. -/
theorem locate_coordinate (text : List Char) :
    (∀ first second, IsBoundary text first → IsBoundary text second → first < second →
        (locate text first).Before (locate text second)) ∧
      (∀ index, IsBoundary text index → (locate text index).offset text = index) ∧
      ∀ index, byteLength text ≤ index → locate text index = locate text (byteLength text) :=
  ⟨fun _ _ => locate_before, fun _ => offset_locate, fun _ => locate_of_le⟩

/-- Behind a wide character in the second of two lines. -/
theorem locate_coordinate_wide :
    (IsBoundary ['a', '\n', 'é', '='] 2 ∧ IsBoundary ['a', '\n', 'é', '='] 4 ∧
        (locate ['a', '\n', 'é', '='] 2).Before (locate ['a', '\n', 'é', '='] 4)) ∧
      (locate ['a', '\n', 'é', '='] 4).offset ['a', '\n', 'é', '='] = 4 ∧
      locate ['a', '\n', 'é', '='] 9 = locate ['a', '\n', 'é', '='] 5 := by
  obtain ⟨hbefore, hoffset, hend⟩ := locate_coordinate ['a', '\n', 'é', '=']
  have hfirst : IsBoundary ['a', '\n', 'é', '='] 2 := by decide
  have hsecond : IsBoundary ['a', '\n', 'é', '='] 4 := by decide
  exact ⟨⟨hfirst, hsecond, hbefore 2 4 hfirst hsecond (by decide)⟩, hoffset 4 hsecond,
    hend 9 (by decide)⟩

end Position

end PythonOutline
