import PythonOutline.Proofs.Text.Boundary

/-! # Texts with other line breaks

A line feed is one of three line breaks. Writing a text anew with another one in place of its line
feeds leaves all other characters as they are, so a run of characters that are no line ends stays
the same, and what follows it is written anew too. The places of a text and those of the text
written anew stand for each other, in the same order. -/

namespace PythonOutline

/-- A line break other than a line feed. -/
inductive LineBreak where
  /-- A lone carriage return. -/
  | carriageReturn
  /-- A carriage return and a line feed. -/
  | returnFeed
  deriving DecidableEq, Repr

namespace LineBreak

/-- The characters behind the carriage return that a line break starts with. -/
def behindReturn : LineBreak → List Char
  | carriageReturn => []
  | returnFeed => ['\n']

/-- A text with another line break for every line feed. -/
def respell (lineBreak : LineBreak) : List Char → List Char
  | [] => []
  | c :: cs =>
    if c = '\n' then '\r' :: (lineBreak.behindReturn ++ lineBreak.respell cs)
    else c :: lineBreak.respell cs

/-- A source with another line break for every line feed. -/
def write (lineBreak : LineBreak) (source : String) : String :=
  String.ofList (lineBreak.respell source.toList)

/-- A class of characters without line ends. -/
def Inline (inClass : Char → Bool) : Prop :=
  inClass '\n' = false ∧ inClass '\r' = false

variable {lineBreak : LineBreak} {inClass : Char → Bool} {c : Char} {text : List Char}

@[simp]
theorem respell_nil : lineBreak.respell [] = [] :=
  rfl

@[simp]
theorem respell_feed (text : List Char) :
    lineBreak.respell ('\n' :: text) = '\r' :: (lineBreak.behindReturn ++ lineBreak.respell text) := by
  simp [respell]

/-- A character other than a line feed is kept. -/
theorem respell_cons (hc : c ≠ '\n') (text : List Char) :
    lineBreak.respell (c :: text) = c :: lineBreak.respell text := by
  simp [respell, hc]

/-- Texts behind each other are spelled anew one after another. -/
theorem respell_append (before after : List Char) :
    lineBreak.respell (before ++ after) = lineBreak.respell before ++ lineBreak.respell after := by
  induction before with
  | nil => rfl
  | cons c before ih =>
    by_cases hc : c = '\n'
    · subst hc
      simp [ih]
    · simp [respell_cons hc, ih]

/-- A text of one line stays as it is. -/
theorem respell_eq_self (hline : '\n' ∉ text) : lineBreak.respell text = text := by
  induction text with
  | nil => rfl
  | cons c text ih =>
    obtain ⟨hc, htext⟩ : c ≠ '\n' ∧ '\n' ∉ text := by simpa [eq_comm] using hline
    rw [respell_cons hc, ih htext]

@[simp]
theorem respell_eq_nil_iff : lineBreak.respell text = [] ↔ text = [] := by
  cases text with
  | nil => simp
  | cons c text =>
    by_cases hc : c = '\n'
    · subst hc
      simp
    · simp [respell_cons hc]

/-- Lone carriage returns leave no line feed. -/
theorem feed_notMem_respell : '\n' ∉ carriageReturn.respell text := by
  induction text with
  | nil => simp
  | cons c text ih =>
    by_cases hc : c = '\n'
    · subst hc
      simpa [behindReturn] using ih
    · rw [respell_cons hc, List.mem_cons, not_or]
      exact ⟨Ne.symm hc, ih⟩

/-- With carriage returns as line breaks, no text starts with a line feed. -/
theorem head?_respell_carriageReturn (text : List Char) :
    (carriageReturn.respell text).head? ≠ some '\n' :=
  fun hhead => feed_notMem_respell (List.mem_of_mem_head? hhead)

/-- Who does not tell the two line ends apart sees no difference in a text. -/
theorem any_respell (hclass : inClass '\n' = inClass '\r') :
    (lineBreak.respell text).any inClass = text.any inClass := by
  induction text with
  | nil => rfl
  | cons c text ih =>
    by_cases hc : c = '\n'
    · subst hc
      cases lineBreak <;> simp [behindReturn, hclass, ih]
    · simp [respell_cons hc, ih]

/-- A class without line ends sees no difference at the start of a text. -/
theorem head?_any_respell (hclass : Inline inClass) :
    (lineBreak.respell text).head?.any inClass = text.head?.any inClass := by
  cases text with
  | nil => rfl
  | cons c text =>
    by_cases hc : c = '\n'
    · subst hc
      simp [hclass.1, hclass.2]
    · simp [respell_cons hc]

/-- A text starts with the same character in both spellings, unless it starts with a line break. -/
theorem head?_respell_eq_some_iff (hfeed : c ≠ '\n') (hreturn : c ≠ '\r') :
    (lineBreak.respell text).head? = some c ↔ text.head? = some c := by
  cases text with
  | nil => simp
  | cons d text =>
    by_cases hd : d = '\n'
    · subst hd
      simp [hfeed.symm, hreturn.symm]
    · simp [respell_cons hd]

/-- A run of characters that are no line ends stays the same. -/
theorem takeWhile_respell (hclass : Inline inClass) :
    (lineBreak.respell text).takeWhile inClass = text.takeWhile inClass := by
  induction text with
  | nil => rfl
  | cons c text ih =>
    by_cases hc : c = '\n'
    · subst hc
      simp [hclass.1, hclass.2]
    · by_cases hclass : inClass c
      · simp [respell_cons hc, hclass, ih]
      · simp [respell_cons hc, hclass]

/-- A spelling without line ends starts a text in either form. -/
theorem isPrefixOf_respell {spelling : List Char}
    (hspelling : ∀ c ∈ spelling, c ≠ '\n' ∧ c ≠ '\r') :
    spelling.isPrefixOf (lineBreak.respell text) = spelling.isPrefixOf text := by
  induction spelling generalizing text with
  | nil => simp
  | cons d spelling ih =>
    obtain ⟨⟨hfeed, hreturn⟩, hspelling⟩ := List.forall_mem_cons.mp hspelling
    cases text with
    | nil => rfl
    | cons c text =>
      by_cases hc : c = '\n'
      · rw [hc, respell_feed, List.isPrefixOf, List.isPrefixOf, beq_eq_false_iff_ne.mpr hfeed,
          beq_eq_false_iff_ne.mpr hreturn, Bool.false_and, Bool.false_and]
      · rw [respell_cons hc, List.isPrefixOf, List.isPrefixOf, ih hspelling]

private theorem byteLength_le_respell (lineBreak : LineBreak) (text : List Char) :
    Text.byteLength text ≤ Text.byteLength (lineBreak.respell text) := by
  induction text with
  | nil => exact Nat.le_refl _
  | cons c text ih =>
    by_cases hc : c = '\n'
    · have hfeed : ('\n' : Char).utf8Size = 1 := rfl
      have hreturn : ('\r' : Char).utf8Size = 1 := rfl
      rw [hc, respell_feed, Text.byteLength_cons, Text.byteLength_cons, Text.byteLength_append, hfeed,
        hreturn]
      omega
    · rw [respell_cons hc, Text.byteLength_cons, Text.byteLength_cons]
      omega

/-- A text of which two lines break takes more bytes with a carriage return and a line feed. -/
theorem notMem_of_byteLength_eq
    (hlength : Text.byteLength (returnFeed.respell text) = Text.byteLength text) : '\n' ∉ text := by
  induction text with
  | nil => simp
  | cons c text ih =>
    have hle := byteLength_le_respell returnFeed text
    by_cases hc : c = '\n'
    · have hfeed : ('\n' : Char).utf8Size = 1 := rfl
      have hreturn : ('\r' : Char).utf8Size = 1 := rfl
      rw [hc, respell_feed, Text.byteLength_cons, Text.byteLength_cons, Text.byteLength_append, hfeed,
        hreturn, behindReturn, Text.byteLength_cons, Text.byteLength_nil] at hlength
      omega
    · rw [respell_cons hc, Text.byteLength_cons, Text.byteLength_cons] at hlength
      rw [List.mem_cons, not_or]
      exact ⟨fun heq => hc heq.symm, ih (by omega)⟩

/-! ## Places -/

/-- Two offsets at the same place of a text and of the text written anew. -/
def Place (lineBreak : LineBreak) (source : List Char) (offset offset' : Nat) : Prop :=
  ∃ passed rest, source = passed ++ rest ∧ offset = Text.byteLength passed ∧
    offset' = Text.byteLength (lineBreak.respell passed)

namespace Place

variable {source : List Char} {offset offset' later later' : Nat}

/-- The starts of both texts are the same place. -/
theorem start (lineBreak : LineBreak) (source : List Char) : lineBreak.Place source 0 0 :=
  ⟨[], source, rfl, rfl, rfl⟩

/-- The ends of both texts are the same place. -/
theorem stop (lineBreak : LineBreak) (source : List Char) :
    lineBreak.Place source (Text.byteLength source) (Text.byteLength (lineBreak.respell source)) :=
  ⟨source, [], (List.append_nil _).symm, rfl, rfl⟩

/-- Of two places one is behind the other, with the same text between them in its two spellings. -/
theorem between (hplace : lineBreak.Place source offset offset')
    (hlater : lineBreak.Place source later later') (hle : offset ≤ later) :
    ∃ before text after, source = before ++ (text ++ after) ∧ offset = Text.byteLength before ∧
      offset' = Text.byteLength (lineBreak.respell before) ∧
      later = offset + Text.byteLength text ∧
      later' = offset' + Text.byteLength (lineBreak.respell text) := by
  obtain ⟨before, rest, rfl, rfl, rfl⟩ := hplace
  obtain ⟨passed, after, hsource, rfl, rfl⟩ := hlater
  rcases List.append_eq_append_iff.mp hsource with ⟨text, rfl, rfl⟩ | ⟨text, rfl, rfl⟩
  · refine ⟨before, text, after, rfl, rfl, rfl, ?_, ?_⟩
    · rw [Text.byteLength_append]
    · rw [respell_append, Text.byteLength_append]
  · -- The place that comes first is not the later one, so there is nothing between the two.
    have hempty : text = [] := by
      apply Classical.byContradiction
      intro hne
      have hpos := Text.byteLength_pos hne
      rw [Text.byteLength_append] at hle
      omega
    subst hempty
    exact ⟨passed, [], rest, by simp, by simp, by simp, by simp, by simp⟩

private theorem le_iff (hplace : lineBreak.Place source offset offset')
    (hlater : lineBreak.Place source later later') : offset ≤ later ↔ offset' ≤ later' := by
  rcases Nat.le_total offset later with hle | hge
  · obtain ⟨_, _, _, _, _, _, _, hbetween⟩ := hplace.between hlater hle
    exact iff_of_true hle (hbetween ▸ Nat.le_add_right _ _)
  · obtain ⟨_, text, _, _, _, _, hoffset, hoffset'⟩ := hlater.between hplace hge
    by_cases htext : text = []
    · subst htext
      simp [hoffset, hoffset']
    · have hpos := Text.byteLength_pos htext
      have hpos' := byteLength_le_respell lineBreak text
      omega

/-- Of two places, the first one is the first one in both texts. -/
theorem least (hplace : lineBreak.Place source offset offset')
    (hlater : lineBreak.Place source later later') :
    lineBreak.Place source (min offset later) (min offset' later') := by
  by_cases hle : offset ≤ later
  · rw [Nat.min_eq_left hle, Nat.min_eq_left ((hplace.le_iff hlater).mp hle)]
    exact hplace
  · have hle' := mt (hplace.le_iff hlater).mpr hle
    rw [Nat.min_eq_right (by omega), Nat.min_eq_right (by omega)]
    exact hlater

/-- Of two places, the last one is the last one in both texts. -/
theorem greatest (hplace : lineBreak.Place source offset offset')
    (hlater : lineBreak.Place source later later') :
    lineBreak.Place source (max offset later) (max offset' later') := by
  by_cases hle : offset ≤ later
  · rw [Nat.max_eq_right hle, Nat.max_eq_right ((hplace.le_iff hlater).mp hle)]
    exact hlater
  · have hle' := mt (hplace.le_iff hlater).mpr hle
    rw [Nat.max_eq_left (by omega), Nat.max_eq_left (by omega)]
    exact hplace

/-- The texts between two places are the two spellings of one text. -/
theorem slice (hplace : lineBreak.Place source offset offset')
    (hlater : lineBreak.Place source later later') :
    Text.slice (lineBreak.respell source) offset' later' =
      lineBreak.respell (Text.slice source offset later) := by
  by_cases hle : offset ≤ later
  · obtain ⟨before, text, after, rfl, rfl, rfl, rfl, rfl⟩ := hplace.between hlater hle
    simp [Text.slice, Text.slice?, respell_append, Text.dropBytes?_append, Text.takeBytes?_append]
  · have hle' := mt (hplace.le_iff hlater).mpr hle
    simp [Text.slice, Text.slice?, hle, hle']

end Place

end LineBreak

/-! ## Cursors -/

namespace Cursor

/-- Two cursors at the same place of a source and of the source written anew. -/
def Respells (lineBreak : LineBreak) (source : List Char) (cursor cursor' : Cursor) : Prop :=
  ∃ passed, (⟨source, 0⟩ : Cursor).Passes passed cursor ∧
    (⟨lineBreak.respell source, 0⟩ : Cursor).Passes (lineBreak.respell passed) cursor'

/-- A cursor on a text written anew whose offset is a distance ahead. -/
def respell (lineBreak : LineBreak) (distance : Nat) (cursor : Cursor) : Cursor :=
  ⟨lineBreak.respell cursor.rest, cursor.offset + distance⟩

variable {lineBreak : LineBreak} {source text text' : List Char} {cursor cursor' stop stop' : Cursor}
  {distance : Nat}

namespace Respells

/-- What is behind the cursor is spelled anew. -/
theorem rest_eq (hcursor : cursor.Respells lineBreak source cursor') :
    cursor'.rest = lineBreak.respell cursor.rest := by
  obtain ⟨passed, ⟨hrest, -⟩, ⟨hrest', -⟩⟩ := hcursor
  dsimp only at hrest hrest'
  rw [hrest, LineBreak.respell_append] at hrest'
  exact (List.append_cancel_left hrest').symm

/-- The cursors stand at the same place. -/
theorem place (hcursor : cursor.Respells lineBreak source cursor') :
    lineBreak.Place source cursor.offset cursor'.offset := by
  obtain ⟨passed, ⟨hrest, hoffset⟩, ⟨-, hoffset'⟩⟩ := hcursor
  exact ⟨passed, cursor.rest, hrest, by simpa using hoffset, by simpa using hoffset'⟩

/-- The cursor is in the source. -/
theorem isIn (hcursor : cursor.Respells lineBreak source cursor') : cursor.IsIn source := by
  obtain ⟨passed, hpasses, -⟩ := hcursor
  exact ⟨passed, hpasses⟩

/-- The cursor on the text written anew is a distance ahead of the other. -/
theorem eq_respell (hcursor : cursor.Respells lineBreak source cursor') :
    ∃ distance, cursor' = cursor.respell lineBreak distance := by
  have hrest := hcursor.rest_eq
  obtain ⟨passed, ⟨-, hoffset⟩, ⟨-, hoffset'⟩⟩ := hcursor
  have hle := LineBreak.byteLength_le_respell lineBreak passed
  dsimp only at hoffset hoffset'
  refine ⟨cursor'.offset - cursor.offset, ?_⟩
  rw [respell, ← hrest, Nat.add_sub_cancel' (by omega)]

end Respells

/-- Two texts that lead from a place to another are the spellings of one text. -/
theorem Passes.text_eq (hrest : cursor'.rest = lineBreak.respell cursor.rest)
    (hpasses : cursor.Passes text stop) (hpasses' : cursor'.Passes text' stop')
    (hstop : stop'.rest = lineBreak.respell stop.rest) : text' = lineBreak.respell text := by
  have htext := hpasses'.rest_eq
  rw [hrest, hpasses.rest_eq, LineBreak.respell_append, hstop] at htext
  exact (List.append_cancel_right htext).symm

/-- From one place two cursors reach another where the same text is left to read. -/
theorem Respells.reaches (hcursor : cursor.Respells lineBreak source cursor')
    (hreaches : cursor.Reaches stop) (hreaches' : cursor'.Reaches stop')
    (hstop : stop'.rest = lineBreak.respell stop.rest) :
    stop.Respells lineBreak source stop' ∧
      cursor'.textTo stop' = lineBreak.respell (cursor.textTo stop) := by
  obtain ⟨text, hpasses⟩ := hreaches
  obtain ⟨text', hpasses'⟩ := hreaches'
  obtain rfl := hpasses.text_eq hcursor.rest_eq hpasses' hstop
  rw [hpasses.textTo_eq, hpasses'.textTo_eq]
  obtain ⟨passed, hpassed, hpassed'⟩ := hcursor
  refine ⟨⟨passed ++ text, hpassed.trans hpasses, ?_⟩, rfl⟩
  rw [LineBreak.respell_append]
  exact hpassed'.trans hpasses'

/-- Two cursors that keep their distance have passed no line end. -/
theorem feed_notMem_textTo (hreaches : cursor.Reaches stop)
    (hreaches' : (cursor.respell .returnFeed distance).Reaches (stop.respell .returnFeed distance)) :
    '\n' ∉ cursor.textTo stop := by
  obtain ⟨text, hpasses⟩ := hreaches
  obtain ⟨text', hpasses'⟩ := hreaches'
  obtain rfl := hpasses.text_eq rfl hpasses' rfl
  rw [hpasses.textTo_eq]
  apply LineBreak.notMem_of_byteLength_eq
  have hoffset := hpasses.offset_eq
  have hoffset' := hpasses'.offset_eq
  simp only [respell] at hoffset'
  omega

end Cursor

end PythonOutline
