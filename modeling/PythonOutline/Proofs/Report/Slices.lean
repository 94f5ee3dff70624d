import PythonOutline.Proofs.Report.ShownLine
import PythonOutline.Proofs.Text.Slice

/-! # The pieces of a report

A report is made of pieces of the source. They can be cut out of it at byte offsets, as every
offset at which one starts or ends is a boundary, and as none ends in front of its start. So a
report can be made for any error, also for one that starts inside a character, behind its end or
behind the source. -/

namespace PythonOutline.Report

open PythonOutline.Text

/-- The offsets between which the line of a boundary is shown, cut out of the source: it
starts behind the last line feed and ends in front of the next one, and in front of a carriage
return there. -/
def lineBounds? (source : List Char) (offset : Nat) : Option (Nat × Nat) := do
  let before ← slice? source 0 offset
  let rest ← slice? source offset (byteLength source)
  let first := offset - byteLength (lastLine before)
  let last := offset + byteLength (rest.takeWhile (· != '\n'))
  let line ← slice? source first last
  return (first, max first (if line.getLast? = some '\r' then last - 1 else last))

/-- The rows of a report on an error at a position, given what is shown of its line, and how many
spaces and carets stand below. -/
def layout (name : String) (error : SyntaxError) (position : Position) (shown : List Char)
    (spaces carets : Nat) : String :=
  let number := toString position.line
  let gutter := run number.length ' '
  "error[" ++ error.code ++ "]: " ++ error.message ++ "\n" ++
  " --> " ++ name ++ ":" ++ number ++ ":" ++ toString position.column ++ "\n" ++
  gutter ++ " |\n" ++
  number ++ " | " ++ String.ofList (expandTabs shown) ++ "\n" ++
  gutter ++ " | " ++ run spaces ' ' ++ run carets '^' ++ "\n"

/-- A report whose pieces are cut out of the source at byte offsets. It cannot be made if an offset
is out of range or inside a character, or if a piece would end in front of its start. -/
def renderSlices? (name : String) (source : List Char) (error : SyntaxError) : Option String := do
  let start := lastBoundary source error.span.start
  let (first, last) ← lineBounds? source start
  let shown ← slice? source first last
  let stop := max start (min (max last start) (lastBoundary source error.span.stop))
  let before ← slice? source first (min start last)
  let covered ← slice? source start stop
  return layout name error (error.span.position source) shown (expandTabs before).length
    (max covered.length 1)

/-- The part of a span that lies in what is shown of the line it starts on. -/
def marked (source : List Char) (span : Span) : List Char :=
  let number := (span.position source).line
  let last := byteLength (firstLines source (number - 1)) + byteLength (shownText source number)
  slice source (lastBoundary source span.start) (min (lastBoundary source span.stop) last)

variable {source before after piece : List Char} {span : Span} {line : ShownLine}

private theorem slice?_piece (before piece after : List Char) {start stop : Nat}
    (hstart : start = byteLength before) (hstop : stop = start + byteLength piece) :
    slice? (before ++ (piece ++ after)) start stop = some piece :=
  slice?_eq_some_iff.mpr ⟨before, after, rfl, hstart.symm, hstop⟩

private theorem byteLength_withoutReturn (line : List Char) :
    byteLength (withoutReturn line) =
      if line.getLast? = some '\r' then byteLength line - 1 else byteLength line := by
  unfold withoutReturn
  split
  · rename_i hlast
    have hline := congrArg byteLength (List.dropLast_append_getLast? _ hlast)
    rw [byteLength_append] at hline
    have hreturn : byteLength ['\r'] = 1 := rfl
    omega
  · rfl

/-- The bounds of a line, found from any place in it, leave its break out. -/
private theorem lineBounds?_line {front rest : List Char} (hfront : IsLines front)
    (hline : '\n' ∉ before ++ after) (hrest : ∀ c others, rest = c :: others → c = '\n') :
    lineBounds? (front ++ (before ++ after ++ rest)) (byteLength (front ++ before)) =
      some (byteLength front, byteLength front + byteLength (withoutReturn (before ++ after))) := by
  rw [List.mem_append, not_or] at hline
  have htake : (after ++ rest).takeWhile (· != '\n') = after := by
    have hafter : ∀ c ∈ after, (c != '\n') = true := fun c hc => by
      simpa using fun heq : c = '\n' => hline.2 (heq ▸ hc)
    rw [List.takeWhile_append_of_pos hafter]
    cases rest with
    | nil => simp
    | cons c others =>
      obtain rfl := hrest c others rfl
      simp
  generalize hstart : byteLength (front ++ before) = start
  have hbefore : slice? (front ++ (before ++ after ++ rest)) 0 start = some (front ++ before) := by
    simpa [hstart] using slice?_piece [] (front ++ before) (after ++ rest) rfl (Nat.zero_add _).symm
  have hbehind : slice? (front ++ (before ++ after ++ rest)) start
      (byteLength (front ++ (before ++ after ++ rest))) = some (after ++ rest) := by
    simpa using slice?_piece (front ++ before) (after ++ rest) [] hstart.symm
      (by simp [← hstart, Nat.add_assoc])
  rw [byteLength_append] at hstart
  have hwhole : slice? (front ++ (before ++ after ++ rest)) (byteLength front)
      (start + byteLength after) = some (before ++ after) :=
    slice?_piece front (before ++ after) rest rfl (by rw [byteLength_append]; omega)
  have hfirst : start - byteLength before = byteLength front := by omega
  simp only [lineBounds?, hbefore, hbehind, Option.bind_eq_bind, Option.bind_some,
    lastLine_lines hfront hline.1, htake, hfirst, hwhole, Option.pure_def, Option.some.injEq,
    Prod.mk.injEq, true_and]
  rw [byteLength_withoutReturn, byteLength_append]
  split <;> omega

/-- A piece that would end in front of its start is empty. -/
theorem slice_of_slice?_max {start stop : Nat}
    (hslice : slice? source start (max start stop) = some piece) : slice source start stop = piece := by
  rcases Nat.le_total start stop with hle | hle
  · rw [Nat.max_eq_right hle] at hslice
    exact slice_of_slice? hslice
  · rw [Nat.max_eq_left hle] at hslice
    obtain ⟨before, after, -, -, hlength⟩ := slice?_eq_some_iff.mp hslice
    have hpiece : piece = [] := by
      by_contra hne
      have hpos := byteLength_pos hne
      omega
    rcases Nat.eq_or_lt_of_le hle with rfl | hlt
    · exact slice_of_slice? hslice
    · rw [slice, slice?, if_neg (Nat.not_le_of_lt hlt), hpiece]
      rfl

/-- How a report covers the source: the bounds of the line, the piece in front of the error and the
piece that belongs to it. -/
theorem ShownLine.At.pieces (hat : line.At source span.start) :
    ∃ first last, lineBounds? source (lastBoundary source span.start) = some (first, last) ∧
      first = byteLength (firstLines source ((span.position source).line - 1)) ∧
      last = first + byteLength line.text ∧
      slice? source first last = some line.text ∧
      slice? source first (min (lastBoundary source span.start) last) = some line.before ∧
      slice? source (lastBoundary source span.start)
          (max (lastBoundary source span.start)
            (min (max last (lastBoundary source span.start)) (lastBoundary source span.stop))) =
        some (cut line.after (extent source span)).1 := by
  have hnumber : (span.position source).line - 1 = (cut source span.start).1.count '\n' := by
    rw [Span.position, Position.line_locate, Nat.add_sub_cancel]
  rw [hnumber, extent, ← byteLength_cut source span.start]
  cases hat with
  | @within front before after hidden rest hfront hline hshown hrest hsource hcut =>
    subst hsource
    have hbounds := lineBounds?_line hfront hline hrest
    have hbefore : '\n' ∉ before := fun hmem => hline (List.mem_append_left _ hmem)
    have hlines := firstLines_line hfront hbefore (after ++ hidden ++ rest)
    have hsplit : front ++ (before ++ (after ++ hidden) ++ rest) =
        front ++ before ++ (after ++ (hidden ++ rest)) := by simp
    have hstop := max_lastBoundary_append (front ++ before) (after ++ (hidden ++ rest)) span.stop
    have hcovered := min_lastBoundary_append after (hidden ++ rest)
      (span.stop - byteLength (front ++ before))
    rw [← List.append_assoc before] at hlines
    rw [← hsplit] at hstop
    rw [hcut]
    dsimp only
    generalize hstart : byteLength (front ++ before) = start at *
    have hpiece := cut_fst_append_snd after (span.stop - start)
    rw [← byteLength_cut after] at hcovered
    generalize cut after (span.stop - start) = covered at *
    rw [hshown] at hbounds
    rw [byteLength_append] at hstart
    refine ⟨_, _, hbounds, by rw [hlines], rfl, ?_, ?_, ?_⟩
    · simpa using slice?_piece front (before ++ after) (hidden ++ rest) rfl rfl
    · rw [byteLength_append, Nat.min_eq_left (by omega)]
      simpa using slice?_piece front before (after ++ hidden ++ rest) rfl hstart.symm
    · have hend : max start (min (max (byteLength front + byteLength (before ++ after)) start)
          (lastBoundary (front ++ (before ++ (after ++ hidden) ++ rest)) span.stop)) =
          start + byteLength covered.1 := by
        rw [byteLength_append]
        omega
      rw [hend, hsplit, ← hpiece]
      simpa using slice?_piece (front ++ before) covered.1 (covered.2 ++ (hidden ++ rest))
        (by rw [byteLength_append, hstart]) rfl
  | @behind front before rest hfront hline hrest hsource hcut =>
    subst hsource
    have hwhole : '\n' ∉ before ++ ['\r'] := by simpa using hline
    have hbounds := @lineBounds?_line (before ++ ['\r']) [] front rest hfront
      (by rwa [List.append_nil]) hrest
    have hlines := firstLines_line hfront hwhole rest
    have hreturn : byteLength ['\r'] = 1 := rfl
    rw [hcut]
    dsimp only
    generalize hstart : byteLength (front ++ (before ++ ['\r'])) = start at *
    rw [List.append_nil, withoutReturn_append] at hbounds
    rw [byteLength_append, byteLength_append, hreturn] at hstart
    refine ⟨_, _, hbounds, by rw [hlines], rfl, ?_, ?_, ?_⟩
    · simpa using slice?_piece front before (['\r'] ++ rest) rfl rfl
    · rw [Nat.min_eq_right (by omega)]
      simpa using slice?_piece front before (['\r'] ++ rest) rfl rfl
    · have hend : max start (min (max (byteLength front + byteLength before) start)
          (lastBoundary (front ++ (before ++ ['\r'] ++ rest)) span.stop)) = start + byteLength [] := by
        rw [byteLength_nil]
        omega
      rw [hend]
      simpa [cut, cutFrom] using slice?_piece (front ++ (before ++ ['\r'])) [] rest
        (by rw [byteLength_append, byteLength_append, hreturn, hstart]) rfl

/-- A report is laid out from the line of its error and the columns in it. -/
theorem render_eq_layout (name : String) (source : List Char) (error : SyntaxError) :
    render name source error =
      layout name error (error.span.position source) (ShownLine.find source error.span.start).text
        (expandTabs (ShownLine.find source error.span.start).before).length
        (max (cut (ShownLine.find source error.span.start).after
          (extent source error.span)).1.length 1) :=
  rfl

/-- A report can be cut out of the source at byte offsets. -/
theorem renderSlices?_eq (name : String) (source : List Char) (error : SyntaxError) :
    renderSlices? name source error = some (render name source error) := by
  obtain ⟨first, last, hbounds, -, -, hshown, hbefore, hcovered⟩ :=
    (ShownLine.find_at source error.span.start).pieces
  simp only [renderSlices?, hbounds, hshown, hbefore, hcovered, Option.bind_eq_bind,
    Option.bind_some, Option.pure_def, render_eq_layout]

/-- The part of a span that the carets stand for is the part of it in what is shown of its line. -/
theorem marked_eq (source : List Char) (span : Span) :
    marked source span =
      (cut (ShownLine.find source span.start).after (extent source span)).1 := by
  have hat := ShownLine.find_at source span.start
  have htext := hat.text_eq
  obtain ⟨first, last, -, hfirst, hlast, -, -, hcovered⟩ := hat.pieces
  refine slice_of_slice?_max ?_
  rw [← hcovered]
  congr 1
  have hstop : byteLength (firstLines source ((span.position source).line - 1)) +
      byteLength (shownText source (span.position source).line) = last := by
    rw [hlast, hfirst, htext, Span.position]
  rw [hstop]
  omega

end PythonOutline.Report
