import PythonOutline.Text.Cursor

/-! # Character boundaries and the text between cursors

An offset is a boundary of a text if the text can be cut there. Every scanner moves a cursor over a
piece of text; `Cursor.Passes` names the piece, so that what a scanner did is told by the text it
passed and not by offsets. Offsets of cursors that were reached by passing text are boundaries.
-/

namespace PythonOutline

namespace Text

@[simp]
theorem byteLength_nil : byteLength [] = 0 :=
  rfl

@[simp]
theorem byteLength_cons (c : Char) (cs : List Char) :
    byteLength (c :: cs) = c.utf8Size + byteLength cs :=
  rfl

@[simp]
theorem byteLength_append (before after : List Char) :
    byteLength (before ++ after) = byteLength before + byteLength after := by
  induction before with
  | nil => simp
  | cons c cs ih => simp [ih, Nat.add_assoc]

/-- A text that is not empty takes at least one byte. -/
theorem byteLength_pos {text : List Char} (hne : text ≠ []) : 0 < byteLength text := by
  cases text with
  | nil => exact absurd rfl hne
  | cons c cs =>
    have hc : 0 < c.utf8Size := c.utf8Size_pos
    simp only [byteLength_cons]
    omega

/-- The length of a string in bytes is that of its characters. -/
theorem utf8ByteSize_eq_byteLength (text : String) :
    text.utf8ByteSize = byteLength text.toList := by
  have hlist : ∀ cs : List Char, (String.ofList cs).utf8ByteSize = byteLength cs := by
    intro cs
    induction cs with
    | nil => rfl
    | cons c cs ih =>
      have hcons : String.ofList (c :: cs) = String.singleton c ++ String.ofList cs := by
        apply String.toList_injective
        simp
      rw [hcons, String.utf8ByteSize_append, String.utf8ByteSize_singleton, ih, byteLength_cons]
  have htext := hlist text.toList
  rwa [String.ofList_toList] at htext

/-- The first bytes of a text are those of the piece in front of the cut. -/
theorem takeBytes?_append (before after : List Char) :
    takeBytes? (byteLength before) (before ++ after) = some before := by
  induction before with
  | nil => simp [takeBytes?]
  | cons c cs ih =>
    have hc : 0 < c.utf8Size := c.utf8Size_pos
    obtain ⟨n, hn⟩ : ∃ n, c.utf8Size + byteLength cs = n + 1 :=
      Nat.exists_eq_add_one.mpr (by omega)
    have hle : c.utf8Size ≤ n + 1 := by omega
    have hrest : n + 1 - c.utf8Size = byteLength cs := by omega
    simp [byteLength_cons, hn, takeBytes?, hle, hrest, ih]

/-- Dropping as many bytes as a piece has leaves what stands behind it. -/
theorem dropBytes?_append (before after : List Char) :
    dropBytes? (byteLength before) (before ++ after) = some after := by
  induction before with
  | nil => simp [dropBytes?]
  | cons c cs ih =>
    have hc : 0 < c.utf8Size := c.utf8Size_pos
    obtain ⟨n, hn⟩ : ∃ n, c.utf8Size + byteLength cs = n + 1 :=
      Nat.exists_eq_add_one.mpr (by omega)
    have hle : c.utf8Size ≤ n + 1 := by omega
    have hrest : n + 1 - c.utf8Size = byteLength cs := by omega
    simp [byteLength_cons, hn, dropBytes?, hle, hrest, ih]

/-- Bytes can be dropped exactly if they are the bytes of a piece in front. -/
theorem dropBytes?_eq_some_iff {offset : Nat} {text after : List Char} :
    dropBytes? offset text = some after ↔
      ∃ before, text = before ++ after ∧ byteLength before = offset := by
  constructor
  · intro hdrop
    fun_induction dropBytes? offset text with
    | case1 text =>
      cases hdrop
      exact ⟨[], rfl, rfl⟩
    | case2 n => cases hdrop
    | case3 n c cs hle ih =>
      obtain ⟨before, rfl, hlength⟩ := ih hdrop
      exact ⟨c :: before, rfl, by rw [byteLength_cons, hlength]; omega⟩
    | case4 n c cs hle => cases hdrop
  · rintro ⟨before, rfl, rfl⟩
    exact dropBytes?_append before after

/-- An offset at which a text can be cut. -/
def IsBoundary (text : List Char) (offset : Nat) : Prop :=
  ∃ before after, text = before ++ after ∧ byteLength before = offset

private theorem isBoundary_iff {text : List Char} {offset : Nat} :
    IsBoundary text offset ↔ (dropBytes? offset text).isSome := by
  rw [Option.isSome_iff_exists]
  constructor
  · rintro ⟨before, after, hsplit⟩
    exact ⟨after, dropBytes?_eq_some_iff.mpr ⟨before, hsplit⟩⟩
  · rintro ⟨after, hdrop⟩
    obtain ⟨before, hsplit⟩ := dropBytes?_eq_some_iff.mp hdrop
    exact ⟨before, after, hsplit⟩

instance (text : List Char) (offset : Nat) : Decidable (IsBoundary text offset) :=
  decidable_of_iff _ isBoundary_iff.symm

/-- No boundary lies behind the end of a text. -/
theorem IsBoundary.le_byteLength {text : List Char} {offset : Nat}
    (hboundary : IsBoundary text offset) : offset ≤ byteLength text := by
  obtain ⟨before, after, rfl, rfl⟩ := hboundary
  simp

end Text

namespace Cursor

/-- A cursor reaches a later one by passing a text. -/
structure Passes (cursor : Cursor) (text : List Char) (later : Cursor) : Prop where
  rest_eq : cursor.rest = text ++ later.rest
  offset_eq : later.offset = cursor.offset + Text.byteLength text

variable {cursor middle later : Cursor} {text more : List Char}

/-- No text is passed by staying. -/
theorem Passes.refl (cursor : Cursor) : cursor.Passes [] cursor :=
  ⟨rfl, rfl⟩

/-- Texts behind each other are passed one after another. -/
theorem Passes.trans (hfirst : cursor.Passes text middle) (hsecond : middle.Passes more later) :
    cursor.Passes (text ++ more) later := by
  refine ⟨?_, ?_⟩
  · rw [hfirst.rest_eq, hsecond.rest_eq, List.append_assoc]
  · rw [hsecond.offset_eq, hfirst.offset_eq, Text.byteLength_append, Nat.add_assoc]

/-- Passing the first character of a text and then the rest of it. -/
theorem Passes.cons {c : Char} {cs : List Char} {offset : Nat}
    (hrest : (⟨cs, offset + c.utf8Size⟩ : Cursor).Passes text later) :
    (⟨c :: cs, offset⟩ : Cursor).Passes (c :: text) later := by
  refine ⟨?_, ?_⟩
  · simpa using hrest.rest_eq
  · simpa [Nat.add_assoc] using hrest.offset_eq

/-- Passing a text does not lead back. -/
theorem Passes.offset_le (hpasses : cursor.Passes text later) : cursor.offset ≤ later.offset := by
  rw [hpasses.offset_eq]
  exact Nat.le_add_right _ _

/-- Passing some text leads forwards. -/
theorem Passes.offset_lt (hpasses : cursor.Passes text later) (hne : text ≠ []) :
    cursor.offset < later.offset := by
  rw [hpasses.offset_eq]
  exact Nat.lt_add_of_pos_right (Text.byteLength_pos hne)

/-- Where a cursor gets to is determined by the text it passes. -/
theorem Passes.eq {rest : List Char} {offset : Nat}
    (hpasses : (⟨text ++ rest, offset⟩ : Cursor).Passes text later) :
    later = ⟨rest, offset + Text.byteLength text⟩ := by
  obtain ⟨hrest, hoffset⟩ := hpasses
  have hcancel : rest = later.rest := List.append_cancel_left hrest
  cases later
  simp_all

/-- The text between two cursors is the text passed. -/
theorem Passes.textTo_eq (hpasses : cursor.Passes text later) : cursor.textTo later = text := by
  have hlength : later.offset - cursor.offset = Text.byteLength text := by
    rw [hpasses.offset_eq, Nat.add_sub_cancel_left]
  rw [textTo, hlength, hpasses.rest_eq, Text.takeBytes?_append]
  rfl

/-- A cursor that was reached from the start of a source by passing text. -/
def IsIn (cursor : Cursor) (source : List Char) : Prop :=
  ∃ passed, (⟨source, 0⟩ : Cursor).Passes passed cursor

/-- A cursor in a source stands on a boundary between characters. -/
theorem IsIn.isBoundary {source : List Char} (hin : cursor.IsIn source) :
    Text.IsBoundary source cursor.offset := by
  obtain ⟨passed, hpasses⟩ := hin
  exact ⟨passed, cursor.rest, hpasses.rest_eq, by simpa using hpasses.offset_eq.symm⟩

/-- Passing text does not lead out of the source. -/
theorem IsIn.passes {source : List Char} (hin : cursor.IsIn source)
    (hpasses : cursor.Passes text later) : later.IsIn source := by
  obtain ⟨passed, hpassed⟩ := hin
  exact ⟨passed ++ text, hpassed.trans hpasses⟩

/-- What is read and what is still to be read make up the source. -/
theorem IsIn.offset_add {source : List Char} (hin : cursor.IsIn source) :
    cursor.offset + Text.byteLength cursor.rest = Text.byteLength source := by
  obtain ⟨passed, hpasses⟩ := hin
  have hrest : source = passed ++ cursor.rest := hpasses.rest_eq
  have hoffset : cursor.offset = Text.byteLength passed := by simpa using hpasses.offset_eq
  rw [hrest, Text.byteLength_append, hoffset]

/-- A run of a class is passed up to the first character that is not in it. -/
theorem passes_skipRun (inClass : Char → Bool) (cs : List Char) (offset : Nat) :
    (⟨cs, offset⟩ : Cursor).Passes (cs.takeWhile inClass) (skipRun inClass cs offset) := by
  induction cs generalizing offset with
  | nil => exact Passes.refl _
  | cons c cs ih =>
    by_cases hc : inClass c
    · simp only [skipRun, hc, ↓reduceIte, List.takeWhile_cons_of_pos]
      exact (ih _).cons
    · simp only [skipRun, hc, Bool.false_eq_true, ↓reduceIte, not_false_eq_true,
        List.takeWhile_cons_of_neg]
      exact Passes.refl _

/-- Skipping a class of characters passes the longest run of them. -/
theorem passes_skipWhile (cursor : Cursor) (inClass : Char → Bool) :
    cursor.Passes (cursor.rest.takeWhile inClass) (cursor.skipWhile inClass) :=
  passes_skipRun inClass cursor.rest cursor.offset

/-- One character is passed, if there is one. -/
theorem passes_advance (cursor : Cursor) :
    cursor.Passes (cursor.rest.take 1) cursor.advance := by
  obtain ⟨rest, offset⟩ := cursor
  cases rest with
  | nil => exact Passes.refl _
  | cons c cs => exact (Passes.refl _).cons

/-- Advancing by a number of characters passes that many of them, or all that are left. -/
theorem passes_advanceBy (cursor : Cursor) (count : Nat) :
    cursor.Passes (cursor.rest.take count) (cursor.advanceBy count) := by
  induction count generalizing cursor with
  | zero => simpa [advanceBy] using Passes.refl cursor
  | succ count ih =>
    have hstep := (passes_advance cursor).trans (ih cursor.advance)
    have htake : cursor.rest.take 1 ++ cursor.advance.rest.take count =
        cursor.rest.take (count + 1) := by
      obtain ⟨rest, offset⟩ := cursor
      cases rest <;> simp [advance]
    rwa [htake] at hstep

/-- A cursor reaches a later one by passing some text. -/
def Reaches (cursor later : Cursor) : Prop :=
  ∃ text, cursor.Passes text later

/-- A cursor reaches itself. -/
theorem Reaches.refl (cursor : Cursor) : cursor.Reaches cursor :=
  ⟨[], .refl cursor⟩

/-- Cursors are reached one after another. -/
theorem Reaches.trans (hfirst : cursor.Reaches middle) (hsecond : middle.Reaches later) :
    cursor.Reaches later := by
  obtain ⟨text, hfirst⟩ := hfirst
  obtain ⟨more, hsecond⟩ := hsecond
  exact ⟨text ++ more, hfirst.trans hsecond⟩

/-- A cursor that is reached is not before. -/
theorem Reaches.offset_le (hreaches : cursor.Reaches later) : cursor.offset ≤ later.offset := by
  obtain ⟨text, hpasses⟩ := hreaches
  exact hpasses.offset_le

/-- What is reached behind a character is reached from in front of it. -/
theorem Reaches.cons {c : Char} {cs : List Char} {offset : Nat}
    (hrest : (⟨cs, offset + c.utf8Size⟩ : Cursor).Reaches later) :
    (⟨c :: cs, offset⟩ : Cursor).Reaches later := by
  obtain ⟨text, hpasses⟩ := hrest
  exact ⟨c :: text, hpasses.cons⟩

/-- The next character is reached. -/
theorem reaches_advance (cursor : Cursor) : cursor.Reaches cursor.advance :=
  ⟨_, passes_advance cursor⟩

/-- A number of characters can be passed at once. -/
theorem reaches_advanceBy (cursor : Cursor) (count : Nat) :
    cursor.Reaches (cursor.advanceBy count) :=
  ⟨_, passes_advanceBy cursor count⟩

/-- Advancing over a character moves the offset. -/
theorem offset_lt_advance {cursor : Cursor} {c : Char} (hpeek : cursor.peek? = some c) :
    cursor.offset < cursor.advance.offset := by
  obtain ⟨rest, offset⟩ := cursor
  cases rest with
  | nil => simp [peek?] at hpeek
  | cons d cs => exact Nat.lt_add_of_pos_right d.utf8Size_pos

end Cursor

end PythonOutline
