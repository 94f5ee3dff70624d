import PythonOutline.Proofs.Text.Position
import PythonOutline.Report

/-! # The line that a report shows

A report shows the line of a source that an offset lies in, without the carriage return and the line
feed that it ends with. The offset lies in the part that is shown or at its end, or behind a
carriage return that ends the line; in both cases the line is one of those that the line feeds of
the source separate. -/

namespace PythonOutline

namespace Text

variable {text front line rest : List Char}

private theorem length_splitOn (text : List Char) :
    (text.splitOn '\n').length = text.count '\n' + 1 := by
  induction text with
  | nil => rfl
  | cons c cs ih =>
    rw [List.splitOn_cons_eq_if_modifyHead]
    by_cases hc : c = '\n'
    · simp [hc, ih]
    · simp [hc, ih]

/-- The line behind whole lines is the one with their number. -/
theorem getElem?_splitOn (hfront : IsLines front) (hline : '\n' ∉ line)
    (hrest : ∀ c others, rest = c :: others → c = '\n') :
    ((front ++ (line ++ rest)).splitOn '\n')[front.count '\n']? = some line := by
  have hfirst : ∃ others, (line ++ rest).splitOn '\n' = line :: others := by
    cases rest with
    | nil => exact ⟨[], by rw [List.append_nil, List.splitOn_eq_singleton hline]⟩
    | cons c others =>
      obtain rfl := hrest c others rfl
      exact ⟨_, List.splitOn_append_cons_self_of_not_mem hline others⟩
  obtain ⟨others, hfirst⟩ := hfirst
  rcases hfront with rfl | ⟨front, rfl⟩
  · rw [List.nil_append, hfirst]
    rfl
  · rw [List.append_assoc, List.singleton_append, List.splitOn_append_cons_self, hfirst,
      List.count_append, List.count_singleton_self, ← length_splitOn, List.getElem?_append_right
        (Nat.le_refl _), Nat.sub_self, List.getElem?_cons_zero]

/-- The first lines are those in front of the line with their number. -/
theorem firstLines_line (hfront : IsLines front) (hline : '\n' ∉ line) (rest : List Char) :
    firstLines (front ++ (line ++ rest)) ((front ++ line).count '\n') = front := by
  rw [List.count_append, List.count_eq_zero_of_not_mem hline, Nat.add_zero]
  exact firstLines_append hfront _

end Text

namespace Position

open PythonOutline.Text

/-- The line of any offset is told by the line feeds in front of the last boundary. -/
theorem line_locate (text : List Char) (offset : Nat) :
    (locate text offset).line = (cut text offset).1.count '\n' + 1 := by
  have hfrom : ∀ (before after : List Char) (number column byteColumn offset : Nat),
      byteLength before ≤ offset →
      (∀ c others, after = c :: others → offset < byteLength before + c.utf8Size) →
      (locateFrom number column byteColumn (before ++ after) offset).line =
        number + before.count '\n' := by
    intro before after
    induction before with
    | nil =>
      intro number column byteColumn offset _ hnext
      cases after with
      | nil => rfl
      | cons c others =>
        have hlt := hnext c others rfl
        rw [byteLength_nil, Nat.zero_add] at hlt
        simp only [List.nil_append, locateFrom, if_pos hlt]
        split <;> rfl
    | cons c before ih =>
      intro number column byteColumn offset hle hnext
      have hc : 0 < c.utf8Size := c.utf8Size_pos
      rw [byteLength_cons] at hle hnext
      have hrest := fun number column byteColumn => ih number column byteColumn
        (offset - c.utf8Size) (by omega) fun d others hafter => by
          have hlt := hnext d others hafter
          omega
      rw [List.cons_append, locateFrom, if_neg (by omega), if_neg (by omega)]
      by_cases hfeed : c = '\n'
      · rw [if_pos hfeed, hrest, hfeed, List.count_cons_self]
        omega
      · rw [if_neg hfeed, hrest, List.count_cons_of_ne hfeed]
  obtain ⟨before, after, rfl, hcut, hle, hnext⟩ := exists_cut text offset
  rw [hcut, locate, hfrom before after 1 1 1 offset hle hnext, Nat.add_comm]

/-- The column of the last boundary at or before an offset is told by the last line in front
of it. -/
theorem column_locate (text : List Char) (offset : Nat) :
    (locate text (lastBoundary text offset)).column = (lastLine (cut text offset).1).length + 1 := by
  obtain ⟨before, after, rfl, hcut, -⟩ := exists_cut text offset
  rw [← byteLength_cut, hcut, locate_append]

end Position

namespace Report

open PythonOutline.Text

variable {source before after hidden : List Char} {offset : Nat}

/-- The carriage return at the end of a line is not shown. -/
theorem withoutReturn_append : withoutReturn (before ++ ['\r']) = before := by
  rw [withoutReturn, if_pos (by simp), List.dropLast_concat]

/-- A line loses nothing but a carriage return at its end. -/
theorem withoutReturn_cases (line : List Char) :
    line = withoutReturn line ∨ line = withoutReturn line ++ ['\r'] := by
  unfold withoutReturn
  split
  · rename_i hlast
    exact .inr (List.dropLast_append_getLast? _ hlast).symm
  · exact .inl rfl

/-- What a report shows of the line of an offset, by how the source stands around the offset. -/
inductive ShownLine.At (source : List Char) (offset : Nat) : ShownLine → Prop where
  /-- The offset lies in the part that is shown, or at its end. -/
  | within {front before after hidden rest : List Char} (hfront : IsLines front)
      (hline : '\n' ∉ before ++ (after ++ hidden))
      (hshown : withoutReturn (before ++ (after ++ hidden)) = before ++ after)
      (hrest : ∀ c others, rest = c :: others → c = '\n')
      (hsource : source = front ++ (before ++ (after ++ hidden) ++ rest))
      (hcut : cut source offset = (front ++ before, after ++ (hidden ++ rest))) :
      ShownLine.At source offset ⟨before ++ after, before, after⟩
  /-- The offset lies behind the carriage return that ends the line. -/
  | behind {front before rest : List Char} (hfront : IsLines front) (hline : '\n' ∉ before)
      (hrest : ∀ c others, rest = c :: others → c = '\n')
      (hsource : source = front ++ (before ++ ['\r'] ++ rest))
      (hcut : cut source offset = (front ++ (before ++ ['\r']), rest)) :
      ShownLine.At source offset ⟨before, before, []⟩

/-- The line that is found is the one of the offset. -/
theorem ShownLine.find_at (source : List Char) (offset : Nat) :
    (ShownLine.find source offset).At source offset := by
  obtain ⟨upTo, rest, rfl, hcut, -⟩ := exists_cut source offset
  obtain ⟨front, hfront, hsplit⟩ := exists_isLines upTo
  have hlast : '\n' ∉ lastLine upTo := lineFeed_not_mem_lastLine upTo
  have hnext : '\n' ∉ rest.takeWhile (· != '\n') := fun hmem => by
    simpa using List.mem_takeWhile_imp hmem
  have htail : ∀ c others, rest.dropWhile (· != '\n') = c :: others → c = '\n' := by
    intro c others hdrop
    have hhead := List.head?_dropWhile_not (· != '\n') rest
    rw [hdrop] at hhead
    simpa using hhead
  have hrest : rest = rest.takeWhile (· != '\n') ++ rest.dropWhile (· != '\n') :=
    List.takeWhile_append_dropWhile.symm
  have hfind : ShownLine.find (upTo ++ rest) offset =
      ⟨withoutReturn (lastLine upTo ++ rest.takeWhile (· != '\n')),
        (withoutReturn (lastLine upTo ++ rest.takeWhile (· != '\n'))).take (lastLine upTo).length,
        (withoutReturn (lastLine upTo ++ rest.takeWhile (· != '\n'))).drop
          (lastLine upTo).length⟩ := by
    simp only [ShownLine.find, hcut]
    rfl
  rw [hfind]
  generalize lastLine upTo = line at hsplit hlast hfind ⊢
  generalize rest.takeWhile (· != '\n') = others, rest.dropWhile (· != '\n') = tail
    at hnext htail hrest hfind ⊢
  subst hsplit hrest
  clear hfind
  have hwhole : '\n' ∉ line ++ others := by simp [hlast, hnext]
  rcases withoutReturn_cases (line ++ others) with hshown | hshown
  · rw [← hshown, List.take_left, List.drop_left]
    exact @ShownLine.At.within _ _ front line others [] tail hfront (by simpa using hwhole)
      (by simpa using hshown.symm) htail (by simp) (by simpa using hcut)
  · rcases List.eq_nil_or_concat others with rfl | ⟨piece, c, rfl⟩
    · -- The line ends at the offset, so the carriage return stands in front of it.
      rw [List.append_nil] at hshown
      generalize withoutReturn line = shown at hshown
      subst hshown
      rw [List.append_nil, withoutReturn_append, List.take_of_length_le (by simp),
        List.drop_eq_nil_of_le (by simp)]
      exact .behind hfront (fun hmem => hlast (by simp [hmem])) htail (by simp) (by simpa using hcut)
    · rw [List.concat_eq_append, ← List.append_assoc] at hshown
      obtain ⟨hpiece, hreturn⟩ := List.append_inj' hshown rfl
      obtain rfl : c = '\r' := by simpa using hreturn
      have hwithout : withoutReturn (line ++ (piece ++ ['\r'])) = line ++ piece := by
        rw [← List.append_assoc, withoutReturn_append]
      rw [List.concat_eq_append, hwithout, List.take_left, List.drop_left]
      exact @ShownLine.At.within _ _ front line piece ['\r'] tail hfront (by simpa using hwhole)
        hwithout htail (by simp) (by simpa using hcut)

/-- The text that a line of a source shows. -/
def shownText (source : List Char) (number : Nat) : List Char :=
  withoutReturn ((source.splitOn '\n').getD (number - 1) [])

namespace ShownLine.At

variable {line : ShownLine}

/-- The line that is shown is the one with the number of the offset. -/
theorem exists_line (hat : line.At source offset) :
    ∃ whole, (source.splitOn '\n')[(Position.locate source offset).line - 1]? = some whole ∧
      withoutReturn whole = line.text := by
  rw [Position.line_locate, Nat.add_sub_cancel]
  cases hat with
  | @within front before _ hidden rest hfront hline hshown hrest hsource hcut =>
    have hbefore : '\n' ∉ before := fun hmem => hline (List.mem_append_left _ hmem)
    refine ⟨_, ?_, hshown⟩
    rw [hcut, List.count_append, List.count_eq_zero_of_not_mem hbefore, Nat.add_zero, hsource]
    exact getElem?_splitOn hfront hline hrest
  | @behind front before rest hfront hline hrest hsource hcut =>
    have hwhole : '\n' ∉ before ++ ['\r'] := by simpa using hline
    refine ⟨_, ?_, withoutReturn_append⟩
    rw [hcut, List.count_append, List.count_eq_zero_of_not_mem hwhole, Nat.add_zero, hsource]
    exact getElem?_splitOn hfront hwhole hrest

/-- The text that is found is that of the line with the offset's number. -/
theorem text_eq (hat : line.At source offset) :
    line.text = shownText source (Position.locate source offset).line := by
  obtain ⟨whole, hwhole, hshown⟩ := hat.exists_line
  rw [shownText, List.getD_eq_getElem?_getD, hwhole, Option.getD_some, hshown]

/-- A line is shown without its line feed. -/
theorem lineFeed_not_mem (hat : line.At source offset) : '\n' ∉ line.text := by
  cases hat with
  | within _ hline =>
    rw [← List.append_assoc] at hline
    exact fun hmem => hline (List.mem_append_left _ hmem)
  | behind _ hline => exact hline

end ShownLine.At

/-- The display column of an offset in the line of a source that shows it: what is shown in front of
it decides, and all that is shown if the offset lies on what ends the line. -/
def displayColumn (source shown : List Char) (offset : Nat) : Nat :=
  let passed := (Position.locate source (lastBoundary source offset)).column - 1
  if passed < shown.length then (expandTabs (shown.take passed)).length else (expandTabs shown).length

/-- The column on display is the width of what stands in front on the line, tabulators expanded. -/
theorem ShownLine.At.displayColumn_eq {line : ShownLine} (hat : line.At source offset) :
    displayColumn source line.text offset = (expandTabs line.before).length := by
  rw [displayColumn, Position.column_locate, Nat.add_sub_cancel]
  cases hat with
  | @within front before after hidden rest hfront hline _ _ _ hcut =>
    rw [hcut, lastLine_lines hfront fun hmem => hline (List.mem_append_left _ hmem)]
    dsimp only
    split
    · rw [List.take_left]
    · rename_i hlength
      rw [List.length_append] at hlength
      rw [List.length_eq_zero_iff.mp (show after.length = 0 by omega), List.append_nil]
  | @behind front before rest hfront hline _ _ hcut =>
    rw [hcut, lastLine_lines hfront (by simpa using hline), List.length_append]
    exact if_neg (Nat.not_lt.mpr (Nat.le_add_right _ _))

end Report

end PythonOutline
