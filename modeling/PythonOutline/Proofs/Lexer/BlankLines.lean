import PythonOutline.Proofs.Lexer.CommonStart
import PythonOutline.Proofs.Lexer.Shift

/-! # Blank lines and comment lines

Lines that hold nothing but blanks and perhaps a comment mean nothing where a line has just ended:
the search for the next line passes them and starts its measure again behind them. Inserting such
lines behind a line break leaves the tokens up to it as they are and moves the others by the length
of what was inserted (`Tokens.ofSource_blankLines`).

The line break must be text of the source. At its end the source may break off behind a
backslash line join, and then lines that are inserted there hold the line break that was
missing (`Tokens.ofSource_blankLines_joined`). -/

namespace PythonOutline

/-- A line that holds blanks and perhaps a comment, together with the line feed that ends it. -/
def IsBlankLine (line : List Char) : Prop :=
  ∃ blanks comment, line = blanks ++ comment ++ ['\n'] ∧ (∀ c ∈ blanks, Text.blanks.contains c) ∧
    (comment = [] ∨ ∃ body, comment = '#' :: body ∧ ∀ c ∈ body, ¬EndsLine c)

private theorem isBlankLine_lineFeed : IsBlankLine ['\n'] :=
  ⟨[], [], rfl, List.forall_mem_nil _, .inl rfl⟩

/-- Any number of such lines. -/
inductive BlankLines : List Char → Prop where
  | nil : BlankLines []
  | cons {line lines : List Char} (hline : IsBlankLine line) (hlines : BlankLines lines) :
      BlankLines (line ++ lines)

namespace LineStart

variable {start : Nat} {width : IndentWidth}

private theorem findFrom_blanks {blanks : List Char}
    (hblanks : ∀ c ∈ blanks, Text.blanks.contains c) (rest : List Char) (offset : Nat) :
    ∃ width', findFrom false start width (blanks ++ rest) offset =
      findFrom false start width' rest (offset + Text.byteLength blanks) := by
  induction blanks generalizing width offset with
  | nil => exact ⟨width, rfl⟩
  | cons c blanks ih =>
    obtain ⟨hc, hrest⟩ := List.forall_mem_cons.mp hblanks
    rw [Text.byteLength_cons, ← Nat.add_assoc]
    rcases Text.blanks_contains_iff.mp hc with rfl | rfl | rfl
    · exact ih hrest _
    · exact ih hrest _
    · exact ih hrest _

private theorem findFrom_body {body : List Char} (hbody : ∀ c ∈ body, ¬EndsLine c)
    (rest : List Char) (offset : Nat) :
    findFrom true start width (body ++ rest) offset =
      findFrom true start width rest (offset + Text.byteLength body) := by
  induction body generalizing offset with
  | nil => rfl
  | cons c body ih =>
    obtain ⟨hc, hbody⟩ := List.forall_mem_cons.mp hbody
    have hline : ¬(c = '\n' ∨ c = '\r') := hc
    rw [List.cons_append, findFrom, if_neg hline, if_pos rfl, ih hbody, Text.byteLength_cons,
      Nat.add_assoc]

/-- Behind a blank line the search starts again. -/
theorem findFrom_blankLine {line : List Char} (hline : IsBlankLine line) (rest : List Char)
    (offset : Nat) :
    findFrom false start width (line ++ rest) offset =
      findFrom false (offset + Text.byteLength line) .zero rest (offset + Text.byteLength line) := by
  have hend : ∀ (inComment : Bool) (start : Nat) (width : IndentWidth) (offset : Nat),
      findFrom inComment start width ('\n' :: rest) offset =
        findFrom false (offset + 1) .zero rest (offset + 1) := by
    intro inComment start width offset
    rw [findFrom, if_pos (.inl rfl)]
  have hfeed : '\n'.utf8Size = 1 := rfl
  have hsign : '#'.utf8Size = 1 := rfl
  obtain ⟨blanks, comment, rfl, hblanks, hcomment⟩ := hline
  obtain ⟨width', hfind⟩ := findFrom_blanks hblanks (comment ++ '\n' :: rest) offset
  rw [List.append_assoc, List.append_assoc, List.singleton_append, hfind]
  rcases hcomment with rfl | ⟨body, rfl, hbody⟩
  · rw [List.nil_append, hend]
    simp [hfeed, Nat.add_assoc]
  · have hcomment : findFrom false start width' ('#' :: body ++ '\n' :: rest)
        (offset + Text.byteLength blanks) =
          findFrom true start width' (body ++ '\n' :: rest) (offset + Text.byteLength blanks + 1) := rfl
    rw [hcomment, findFrom_body hbody, hend]
    simp [hfeed, hsign, Nat.add_assoc]

/-- The search passes blank lines. -/
theorem find_blankLines {lines : List Char} (hlines : BlankLines lines) (rest : List Char)
    (offset : Nat) :
    find ⟨lines ++ rest, offset⟩ = find ⟨rest, offset + Text.byteLength lines⟩ := by
  induction hlines generalizing offset with
  | nil => rfl
  | @cons line lines hline _ ih =>
    rw [List.append_assoc, find, findFrom_blankLine hline, Text.byteLength_append, ← Nat.add_assoc]
    exact ih _

end LineStart

namespace Lexer

variable {source source' : List Char} {lexer lexer' : Lexer} {feed : Nat} {behind lines : List Char}

/-- What the lexer reads next hangs on how it enters the line. -/
theorem Finds.of_readLineStart_eq {result : Except LexFailure (Token × Lexer)}
    (hfinds : lexer.Finds result) (hstart : lexer'.readLineStart = lexer.readLineStart) :
    lexer'.Finds result := by
  cases hfinds with
  | indentation hentry => exact .indentation (hstart.trans hentry)
  | level hentry => exact .level (hstart.trans hentry)
  | failing hentry hwithin => exact .failing (hstart.trans hentry) hwithin
  | token hentry hwithin => exact .token (hstart.trans hentry) hwithin
  | line hentry hwithin hrest => exact .line (hstart.trans hentry) hwithin hrest

/-- At the start of a line it is only the search for the next line that looks at the text. -/
theorem readLineStart_of_find_eq (hline : lexer.atLineStart = true) (hbrackets : lexer.brackets = [])
    {cursor : Cursor} (hfind : LineStart.find cursor = LineStart.find lexer.cursor) :
    ({ lexer with cursor } : Lexer).readLineStart = lexer.readLineStart := by
  obtain ⟨_, _, _, _, _, _, _, _⟩ := lexer
  dsimp only at hline hbrackets hfind
  subst hline hbrackets
  simp only [readLineStart, readIndentation, hfind, List.isEmpty_nil, Bool.and_self, if_true]

/-- Behind a line break blank lines move what comes next. -/
theorem BehindFeed.next_eq (hbehind : lexer.BehindFeed feed behind (lines ++ behind) lexer')
    (hlines : BlankLines lines) (hreading : lexer.Reading source)
    (hreading' : lexer'.Reading source') :
    lexer'.next = (lexer.shift (Text.byteLength lines)).next := by
  obtain ⟨hcursor, hbrackets, hline, hpending, size, rfl⟩ := hbehind
  have hsize : size = lexer.size + Text.byteLength lines := by
    have hoffset := hreading.isIn.offset_add
    have hoffset' := hreading'.isIn.offset_add
    have hsource := hreading.size_eq
    have hsource' := hreading'.size_eq
    rw [hcursor] at hoffset
    dsimp only at hoffset hoffset' hsource'
    rw [Text.byteLength_append] at hoffset'
    omega
  -- The lexer that is moved stands behind the blank lines, otherwise it is in the same state.
  obtain ⟨moved, hmoved⟩ : ∃ moved, moved = lexer.shift (Text.byteLength lines) := ⟨_, rfl⟩
  have hcursor' : moved.cursor = ⟨behind, feed + 1 + Text.byteLength lines⟩ := by
    rw [hmoved, shift, hcursor]
    rfl
  have hbrackets' : moved.brackets = [] := by
    rw [hmoved, shift, hbrackets]
    rfl
  have hline' : moved.atLineStart = true := by
    rw [hmoved]
    exact hline
  have hpending' : moved.pendingDedents = 0 := by
    rw [hmoved]
    exact hpending
  have hfailure : moved.failure = none := by
    rw [hmoved, shift, hreading.failure_eq]
    rfl
  have hlexer' : ({ lexer with cursor := ⟨lines ++ behind, feed + 1⟩, size } : Lexer) =
      { moved with cursor := ⟨lines ++ behind, feed + 1⟩ } := by
    rw [hmoved, shift, hsize, hbrackets, hreading.failure_eq]
    rfl
  rw [← hmoved]
  rw [hlexer'] at hreading' ⊢
  have hmovedReading : moved.Reading source' := by
    refine ⟨?_, hreading'.size_eq, by simp [hbrackets'], hfailure⟩
    rw [hcursor']
    exact hreading'.isIn.passes ⟨rfl, rfl⟩
  have hfind : LineStart.find ⟨lines ++ behind, feed + 1⟩ = LineStart.find moved.cursor := by
    rw [hcursor', LineStart.find_blankLines hlines]
  have hread : ({ moved with cursor := ⟨lines ++ behind, feed + 1⟩ } : Lexer).read = moved.read := by
    rcases read_cases hreading' with ⟨_, hdedents, -⟩ | ⟨-, hfinds⟩
    · exact absurd (hpending'.symm.trans hdedents) (Nat.succ_ne_zero _).symm
    rcases read_cases hmovedReading with ⟨_, hdedents, -⟩ | ⟨-, hfinds'⟩
    · exact absurd (hpending'.symm.trans hdedents) (Nat.succ_ne_zero _).symm
    have hentry := readLineStart_of_find_eq hline' hbrackets' hfind
    exact (hfinds'.of_readLineStart_eq hentry).unique hfinds
  unfold next
  rw [hread]
  simp only [hfailure]
  rfl

/-- The calls behind blank lines answer what they would answer without them, moved. -/
theorem BehindFeed.after_eq (hbehind : lexer.BehindFeed feed behind (lines ++ behind) lexer')
    (hlines : BlankLines lines) (hreading : lexer.Reading source)
    (hreading' : lexer'.Reading source') (count : Nat) :
    (lexer'.after count).next.1 = (lexer.after count).next.1.shift (Text.byteLength lines) ∧
      lexer'.after (count + 1) = (lexer.after (count + 1)).shift (Text.byteLength lines) := by
  have hnext := hbehind.next_eq hlines hreading hreading'
  have hafter : ∀ count, lexer'.after (count + 1) =
      (lexer.after (count + 1)).shift (Text.byteLength lines) := by
    intro count
    rw [← after_shift, after, after, hnext]
  refine ⟨?_, hafter count⟩
  cases count with
  | zero => rw [after, after, hnext, next_shift]
  | succ count => rw [hafter, next_shift]

/-- Blank lines behind a line break leave the calls up to it as they are, and move those
behind it. -/
theorem after_blankLines (hreading : lexer.Reading source) (hreading' : lexer'.Reading source')
    (halong : lexer.Alongside '\n' feed behind (lines ++ behind) lexer') (hlines : BlankLines lines)
    {index : Nat} (hkind : (lexer.after index).next.1.kind = .newline)
    (hstart : (lexer.after index).next.1.span.start < (lexer.after index).next.1.span.stop)
    (hstop : (lexer.after index).next.1.span.stop = feed + 1) :
    (∀ earlier ≤ index, (lexer'.after earlier).next.1 = (lexer.after earlier).next.1) ∧
      ∀ count, (lexer'.after (index + 1 + count)).next.1 =
          (lexer.after (index + 1 + count)).next.1.shift (Text.byteLength lines) ∧
        lexer'.after (index + 1 + (count + 1)) =
          (lexer.after (index + 1 + (count + 1))).shift (Text.byteLength lines) := by
  have hvalid : (lexer.after index).next.1.kind ≠ .invalid := by
    rw [hkind]
    decide
  have hafter : (lexer.after index).Reading source := by
    rcases hreading.reading_after index with hreads | hended
    · exact hreads
    · rw [hended] at hkind
      cases hkind
  have hle : (lexer.after index).cursor.offset ≤ feed := by
    have hoffset := hafter.offset_le_start hvalid
    omega
  obtain ⟨hsame, hafter', halong⟩ :=
    alongside_after stopsLike_lineFeed hreading hreading' halong hafter hle
  obtain ⟨htoken, hbehind⟩ := next_lineEnd hafter hafter' halong hkind hstart hstop
  have hreads := hafter.next_reading hvalid
  have hreads' := hafter'.next_reading (by rwa [htoken])
  refine ⟨fun earlier hearlier => ?_, fun count => ?_⟩
  · rcases Nat.lt_or_eq_of_le hearlier with hlt | rfl
    · exact hsame earlier hlt
    · exact htoken
  · have hbehindLine : ∀ (lexer : Lexer) (count : Nat),
        lexer.after (index + 1 + count) = (lexer.after index).next.2.after count := by
      intro lexer count
      rw [after_add, after_succ]
    simp only [hbehindLine]
    exact hbehind.after_eq hlines hreads hreads' count

end Lexer

namespace Tokens

/-- Blank lines and comment lines behind a line break leave the tokens up to it as they are, and
move all tokens behind it and a failure by their length. -/
theorem ofSource_blankLines {before lines behind : String} {index : Nat}
    (hlines : BlankLines lines.toList) (hfeed : before.toList.getLast? = some '\n')
    (hkind : ((ofSource (before ++ behind)).get index).kind = .newline)
    (hstart : ((ofSource (before ++ behind)).get index).span.start <
      ((ofSource (before ++ behind)).get index).span.stop)
    (hstop : ((ofSource (before ++ behind)).get index).span.stop = before.utf8ByteSize) :
    (∀ earlier ≤ index, (ofSource (before ++ lines ++ behind)).get earlier =
        (ofSource (before ++ behind)).get earlier) ∧
      (∀ later > index, (ofSource (before ++ lines ++ behind)).get later =
        ((ofSource (before ++ behind)).get later).shift lines.utf8ByteSize) ∧
      (ofSource (before ++ lines ++ behind)).tokens.size =
        (ofSource (before ++ behind)).tokens.size ∧
      (ofSource (before ++ lines ++ behind)).failure =
        (ofSource (before ++ behind)).failure.map (SyntaxError.shift lines.utf8ByteSize) := by
  obtain ⟨text, htext⟩ : ∃ text, before.toList = text ++ ['\n'] :=
    List.getLast?_eq_some_iff.mp hfeed
  have hsource : (before ++ behind).toList = text ++ '\n' :: behind.toList := by
    simp [htext]
  have hsource' : (before ++ lines ++ behind).toList =
      text ++ '\n' :: (lines.toList ++ behind.toList) := by
    simp [htext]
  have hbefore : before.utf8ByteSize = Text.byteLength text + 1 := by
    rw [Text.utf8ByteSize_eq_byteLength, htext, Text.byteLength_append]
    rfl
  rw [get_ofSource_eq_next] at hkind hstart hstop
  obtain ⟨hsame, hmoved⟩ := Lexer.after_blankLines (Lexer.ofSource_reading _)
    (Lexer.ofSource_reading _) (Lexer.ofSource_alongside hsource hsource') hlines hkind hstart
    (hstop.trans hbefore)
  rw [← Text.utf8ByteSize_eq_byteLength] at hmoved
  have hearlier : ∀ earlier ≤ index, (ofSource (before ++ lines ++ behind)).get earlier =
      (ofSource (before ++ behind)).get earlier := by
    intro earlier hearlier
    rw [get_ofSource_eq_next, get_ofSource_eq_next, hsame earlier hearlier]
  have hlater : ∀ later > index, (ofSource (before ++ lines ++ behind)).get later =
      ((ofSource (before ++ behind)).get later).shift lines.utf8ByteSize := by
    intro later hlater
    obtain ⟨count, rfl⟩ := Nat.exists_eq_add_of_le (Nat.succ_le_of_lt hlater)
    rw [get_ofSource_eq_next, get_ofSource_eq_next]
    exact (hmoved count).1
  refine ⟨hearlier, hlater, size_ofSource_eq fun count => ?_, ?_⟩
  · rcases Nat.lt_or_ge index count with hlt | hge
    · rw [hlater count hlt]
      rfl
    · rw [hearlier count hge]
  · -- The failures are known where both runs have ended.
    obtain ⟨count, hle, hle'⟩ : ∃ count,
        (Lexer.run (before ++ behind)).length ≤ index + 1 + (count + 1) ∧
        (Lexer.run (before ++ lines ++ behind)).length ≤ index + 1 + (count + 1) :=
      ⟨(Lexer.run (before ++ behind)).length + (Lexer.run (before ++ lines ++ behind)).length,
        by omega, by omega⟩
    rw [failure_ofSource, failure_ofSource, ← (ended_of_run_le hle).1, ← (ended_of_run_le hle').1,
      (hmoved count).2]
    rfl

/-- A line with a comment and an empty one in front of the block of a compound statement. -/
theorem ofSource_blankLines_commented :
    BlankLines " \t# c\n\n".toList ∧
      ((ofSource ("if x:\n" ++ " y\n")).get 3).kind = .newline ∧
      ((ofSource ("if x:\n" ++ " y\n")).get 3).span = ⟨5, 6⟩ ∧
      (∀ earlier ≤ 3, (ofSource ("if x:\n" ++ " \t# c\n\n" ++ " y\n")).get earlier =
        (ofSource ("if x:\n" ++ " y\n")).get earlier) ∧
      (∀ later > 3, (ofSource ("if x:\n" ++ " \t# c\n\n" ++ " y\n")).get later =
        ((ofSource ("if x:\n" ++ " y\n")).get later).shift 7) := by
  have hlines : BlankLines " \t# c\n\n".toList := by
    have hblanks : ∀ c ∈ [' ', '\t'], Text.blanks.contains c := List.all_eq_true.mp (by decide)
    have hbody : ∀ c ∈ [' ', 'c'], ¬EndsLine c := by
      intro c hc
      simp only [List.mem_cons, List.not_mem_nil, or_false] at hc
      rcases hc with rfl | rfl <;> decide
    have hcomment : IsBlankLine [' ', '\t', '#', ' ', 'c', '\n'] :=
      ⟨[' ', '\t'], ['#', ' ', 'c'], rfl, hblanks, .inr ⟨[' ', 'c'], rfl, hbody⟩⟩
    exact .cons hcomment (.cons isBlankLine_lineFeed .nil)
  have hkind : ((ofSource ("if x:\n" ++ " y\n")).get 3).kind = .newline := by decide +kernel
  have hspan : ((ofSource ("if x:\n" ++ " y\n")).get 3).span = ⟨5, 6⟩ := by decide +kernel
  obtain ⟨hearlier, hlater, -⟩ := ofSource_blankLines hlines (by decide) hkind
    (by rw [hspan]; decide) (by rw [hspan]; decide)
  exact ⟨hlines, hkind, hspan, hearlier, hlater⟩

/-- Behind a backslash that joins the last line with nothing, a blank line holds the line break that
ends the line. -/
theorem ofSource_blankLines_joined :
    BlankLines "\n".toList ∧ "x\\\n".toList.getLast? = some '\n' ∧
      ((ofSource ("x\\\n" ++ "")).get 1).kind = .newline ∧
      ((ofSource ("x\\\n" ++ "")).get 1).span = ⟨3, "x\\\n".utf8ByteSize⟩ ∧
      ((ofSource ("x\\\n" ++ "\n" ++ "")).get 1).span = ⟨3, 4⟩ ∧
      (ofSource ("x\\\n" ++ "\n" ++ "")).get 1 ≠ (ofSource ("x\\\n" ++ "")).get 1 := by
  have hspan : ((ofSource ("x\\\n" ++ "")).get 1).span = ⟨3, 3⟩ := by decide +kernel
  have hspan' : ((ofSource ("x\\\n" ++ "\n" ++ "")).get 1).span = ⟨3, 4⟩ := by decide +kernel
  refine ⟨.cons isBlankLine_lineFeed .nil, by decide, by decide +kernel, hspan, hspan', fun hsame => ?_⟩
  rw [hsame, hspan] at hspan'
  cases hspan'

end Tokens

end PythonOutline
