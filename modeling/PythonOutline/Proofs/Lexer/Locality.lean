import PythonOutline.Proofs.Lexer.LineBreak
import PythonOutline.Proofs.Operator.Lexing

/-! # The extent of a token is determined by its own text

What stands behind a token may go on differently without making the token longer or shorter, as long
as it goes on with a space or a line feed where it differs, or ends there. `StopsLike` is that
relation of texts. The scanners of numbers, string literals, words and operators are followed on two
texts that are the same up to a goal and stop alike there: a scan that does not pass the one goal
ends at the same place of the other text. Hence `Lexer.significant_stopsLike`, which moves a token
in front of other text. -/

namespace PythonOutline

instance (c : Char) : Decidable (EndsLexeme c) :=
  inferInstanceAs (Decidable (_ ∨ _))

/-- A text that stops a token where another one does: they are the same up to a character that ends
every token, or to the end of either. -/
inductive StopsLike : List Char → List Char → Prop where
  | refl (rest : List Char) : StopsLike rest rest
  | nil (rest : List Char) : StopsLike rest []
  | ends {c : Char} (hend : EndsLexeme c) (rest tail : List Char) : StopsLike rest (c :: tail)
  | cons (c : Char) {rest rest' : List Char} (hrest : StopsLike rest rest') :
      StopsLike (c :: rest) (c :: rest')

/-- A class of characters that holds none of those that end a token. -/
def ExcludesEnds (inClass : Char → Bool) : Prop :=
  inClass ' ' = false ∧ inClass '\n' = false

instance (inClass : Char → Bool) : Decidable (ExcludesEnds inClass) :=
  inferInstanceAs (Decidable (_ ∧ _))

private theorem ExcludesEnds.eq_false {inClass : Char → Bool} {c : Char}
    (hclass : ExcludesEnds inClass) (hend : EndsLexeme c) : inClass c = false := by
  rcases hend with rfl | rfl
  · exact hclass.1
  · exact hclass.2

namespace StopsLike

variable {rest rest' : List Char} {inClass : Char → Bool} {c : Char}

/-- The same text in front changes nothing about where tokens stop. -/
theorem append (text : List Char) (hstops : StopsLike rest rest') :
    StopsLike (text ++ rest) (text ++ rest') := by
  induction text with
  | nil => exact hstops
  | cons c text ih => exact .cons c ih

/-- No character of a class comes to stand in front. -/
theorem any_head? (hstops : StopsLike rest rest') (hclass : ExcludesEnds inClass)
    (hany : rest'.head?.any inClass) : rest.head?.any inClass := by
  cases hstops with
  | refl => exact hany
  | nil => cases hany
  | ends hend =>
    rw [List.head?_cons, Option.any_some, hclass.eq_false hend] at hany
    cases hany
  | cons => exact hany

private theorem head?_eq_some (hstops : StopsLike rest rest') (hc : ¬EndsLexeme c)
    (hhead : rest'.head? = some c) : rest.head? = some c := by
  cases hstops with
  | refl => exact hhead
  | nil => cases hhead
  | ends hend =>
    cases hhead
    exact absurd hend hc
  | cons => exact hhead

/-- No spelling comes to stand in front. -/
theorem isPrefixOf (hstops : StopsLike rest rest') {spelling : List Char}
    (hspelling : ∀ c ∈ spelling, ¬EndsLexeme c) (hstarts : spelling.isPrefixOf rest') :
    spelling.isPrefixOf rest := by
  induction hstops generalizing spelling with
  | refl => exact hstarts
  | nil =>
    cases spelling with
    | nil => rfl
    | cons => cases hstarts
  | @ends c hend rest tail =>
    cases spelling with
    | nil => rfl
    | cons d spelling =>
      simp only [List.isPrefixOf, Bool.and_eq_true, beq_iff_eq] at hstarts
      exact absurd hend (hstarts.1 ▸ hspelling d List.mem_cons_self)
  | @cons c rest rest' _ ih =>
    cases spelling with
    | nil => rfl
    | cons d spelling =>
      simp only [List.isPrefixOf, Bool.and_eq_true] at hstarts ⊢
      exact ⟨hstarts.1, ih (List.forall_mem_cons.mp hspelling).2 hstarts.2⟩

end StopsLike

/-- Two cursors in front of the same text, behind which each has its goal. -/
def Cursor.Beside (goal goal' cursor cursor' : Cursor) : Prop :=
  ∃ text, cursor.Passes text goal ∧ cursor'.Passes text goal'

section

variable {goal goal' cursor cursor' stop : Cursor} {inClass : Char → Bool} {c : Char}

namespace Cursor

/-- Whoever passes text passes its first character. -/
theorem Reaches.advance (hreaches : cursor.Reaches stop) (hlt : cursor.offset < stop.offset) :
    cursor.advance.Reaches stop := by
  obtain ⟨rest, offset⟩ := cursor
  obtain ⟨text, hrest, hoffset⟩ := hreaches
  cases text with
  | nil =>
    simp only [Text.byteLength_nil] at hoffset hlt
    omega
  | cons c text =>
    obtain rfl : rest = c :: (text ++ stop.rest) := hrest
    rw [Text.byteLength_cons] at hoffset
    exact ⟨text, rfl, by simp only [hoffset, Cursor.advance]; omega⟩

/-- A text leads to one cursor. -/
theorem Passes.later_eq {later : Cursor} {text : List Char} (hpasses : cursor.Passes text stop)
    (hpasses' : cursor.Passes text later) : stop = later := by
  obtain ⟨rest, offset⟩ := cursor
  obtain rfl : rest = text ++ stop.rest := hpasses.rest_eq
  rw [hpasses'.eq]
  exact hpasses.eq

/-- What is passed on the way to a goal is the first part of what is passed to the goal. -/
theorem Passes.eq_append {all text behind : List Char} (hall : cursor.Passes all goal)
    (hpasses : cursor.Passes text stop) (hbehind : stop.Passes behind goal) : all = text ++ behind := by
  have hrest := (hpasses.trans hbehind).rest_eq
  rw [hall.rest_eq] at hrest
  exact List.append_cancel_right hrest

namespace Beside

/-- Cursors beside each other stop tokens alike if their goals do. -/
theorem stopsLike (hbeside : Beside goal goal' cursor cursor')
    (hstops : StopsLike goal.rest goal'.rest) : StopsLike cursor.rest cursor'.rest := by
  obtain ⟨text, hpasses, hpasses'⟩ := hbeside
  rw [hpasses.rest_eq, hpasses'.rest_eq]
  exact hstops.append text

private theorem any_peek? (hbeside : Beside goal goal' cursor cursor')
    (hstops : StopsLike goal.rest goal'.rest) (hclass : ExcludesEnds inClass)
    (hany : cursor'.peek?.any inClass) : cursor.peek?.any inClass :=
  (hbeside.stopsLike hstops).any_head? hclass hany

private theorem peek?_eq_some (hbeside : Beside goal goal' cursor cursor')
    (hstops : StopsLike goal.rest goal'.rest) (hc : ¬EndsLexeme c) (hpeek : cursor'.peek? = some c) :
    cursor.peek? = some c :=
  (hbeside.stopsLike hstops).head?_eq_some hc hpeek

/-- The other goal is reached together with the first one. -/
theorem eq_goal (hbeside : Beside goal goal' goal cursor') : cursor' = goal' := by
  obtain ⟨text, hpasses, hpasses'⟩ := hbeside
  obtain rfl : text = [] := by
    refine Decidable.byContradiction fun hne => ?_
    exact absurd (hpasses.offset_lt hne) (Nat.lt_irrefl _)
  obtain ⟨rest, offset⟩ := cursor'
  obtain ⟨rest', offset'⟩ := goal'
  obtain ⟨hrest, hoffset⟩ := hpasses'
  simp_all

/-- In front of the goals the two texts are passed together. -/
theorem cons {cs : List Char} {offset : Nat} (hbeside : Beside goal goal' ⟨c :: cs, offset⟩ cursor')
    (hreaches : (⟨cs, offset + c.utf8Size⟩ : Cursor).Reaches goal) :
    ∃ cs' offset', cursor' = ⟨c :: cs', offset'⟩ ∧
      Beside goal goal' ⟨cs, offset + c.utf8Size⟩ ⟨cs', offset' + c.utf8Size⟩ := by
  obtain ⟨text, ⟨hrest, hoffset⟩, hrest', hoffset'⟩ := hbeside
  obtain ⟨rest', offset'⟩ := cursor'
  have hle := hreaches.offset_le
  have hsize := c.utf8Size_pos
  cases text with
  | nil =>
    simp only [Text.byteLength_nil] at hoffset hle
    omega
  | cons d text =>
    simp only [List.cons_append, List.cons.injEq] at hrest hrest'
    obtain ⟨rfl, hrest⟩ := hrest
    rw [Text.byteLength_cons] at hoffset hoffset'
    exact ⟨text ++ goal'.rest, offset', by rw [hrest'], text,
      ⟨hrest, by simp only [hoffset]; omega⟩, ⟨rfl, by simp only [hoffset']; omega⟩⟩

/-- Cursors beside each other see the same character in front of their goals, and stay so behind
it. -/
theorem advance (hbeside : Beside goal goal' cursor cursor') (hpeek : cursor.peek? = some c)
    (hreaches : cursor.advance.Reaches goal) :
    cursor'.peek? = some c ∧ Beside goal goal' cursor.advance cursor'.advance := by
  obtain ⟨rest, offset⟩ := cursor
  cases rest with
  | nil => cases hpeek
  | cons d cs =>
    obtain rfl : d = c := by simpa [peek?] using hpeek
    obtain ⟨cs', offset', rfl, hbehind⟩ := hbeside.cons hreaches
    exact ⟨rfl, hbehind⟩

/-- What is passed on one text is passed on the other one. -/
theorem passes {stop' : Cursor} {text : List Char} (hbeside : Beside goal goal' cursor cursor')
    (hend : Beside goal goal' stop stop') (hpasses : cursor.Passes text stop) :
    cursor'.Passes text stop' := by
  obtain ⟨all, hall, hall'⟩ := hbeside
  obtain ⟨behind, hbehind, hbehind'⟩ := hend
  have hsplit := hall.eq_append hpasses hbehind
  have hoffset := hall'.offset_eq
  have hoffset' := hbehind'.offset_eq
  rw [hsplit, Text.byteLength_append] at hoffset
  refine ⟨?_, by omega⟩
  rw [hall'.rest_eq, hsplit, List.append_assoc, ← hbehind'.rest_eq]

/-- The text between cursors beside each other is the same. -/
theorem textTo_eq {stop' : Cursor} (hbeside : Beside goal goal' cursor cursor')
    (hend : Beside goal goal' stop stop') (hreaches : cursor.Reaches stop) :
    cursor'.textTo stop' = cursor.textTo stop := by
  obtain ⟨text, hpasses⟩ := hreaches
  rw [hpasses.textTo_eq, (hbeside.passes hend hpasses).textTo_eq]

/-- Two texts start with the same characters in front of the goals. -/
theorem take_eq {text : List Char} (hbeside : Beside goal goal' cursor cursor')
    (hpasses : cursor.Passes text stop) (hreaches : stop.Reaches goal) :
    cursor'.rest.take text.length = cursor.rest.take text.length := by
  obtain ⟨all, hall, hall'⟩ := hbeside
  obtain ⟨behind, hbehind⟩ := hreaches
  have hsplit := hall.eq_append hpasses hbehind
  rw [hall.rest_eq, hall'.rest_eq, hsplit, List.append_assoc, List.append_assoc, List.take_left,
    List.take_left]

end Beside

end Cursor

/-- A second scan ends beside a stop of the first one. -/
def EndsBeside {ε : Type} (goal goal' stop : Cursor) (result' : Except ε Cursor) : Prop :=
  ∃ stop', result' = .ok stop' ∧ Cursor.Beside goal goal' stop stop'

/-! ## Numbers -/

variable {digits : Text.CharSet}

/-- Digits end in front of what is neither a digit nor an underscore between digits. -/
theorem scanDigitsFrom_stop {seenDigit lastSeparator : Bool} {cs : List Char} {offset : Nat}
    (hdigit : ¬cs.head?.any digits.contains)
    (hseparator : ¬(cs.head? = some '_' ∧ seenDigit ∧ ¬lastSeparator)) :
    scanDigitsFrom digits seenDigit lastSeparator cs offset =
      (seenDigit && !lastSeparator, ⟨cs, offset⟩) := by
  cases cs with
  | nil => rfl
  | cons c cs =>
    rw [List.head?_cons, Option.any_some] at hdigit
    rw [List.head?_cons, Option.some.injEq] at hseparator
    rw [scanDigitsFrom, if_neg hdigit, if_neg hseparator]

/-- Digits in front of a goal are scanned beside it too. Where they end at the goal, what stands
behind it is no digit in either text. -/
private theorem scanDigitsFrom_beside (hdigits : ExcludesEnds digits.contains)
    (hstops : StopsLike goal.rest goal'.rest) (seenDigit lastSeparator : Bool) {cs : List Char}
    {offset : Nat} (hbeside : Cursor.Beside goal goal' ⟨cs, offset⟩ cursor')
    (hreaches : (scanDigitsFrom digits seenDigit lastSeparator cs offset).2.Reaches goal) :
    ∃ stop', scanDigitsFrom digits seenDigit lastSeparator cursor'.rest cursor'.offset =
        ((scanDigitsFrom digits seenDigit lastSeparator cs offset).1, stop') ∧
      Cursor.Beside goal goal' (scanDigitsFrom digits seenDigit lastSeparator cs offset).2 stop' := by
  -- Where the first scan ends, the second one has no digit and no underscore in front either.
  have hend : ∀ {seenDigit lastSeparator : Bool} {cs : List Char} {offset : Nat} {cursor' : Cursor},
      Cursor.Beside goal goal' ⟨cs, offset⟩ cursor' → ¬cs.head?.any digits.contains →
      ¬(cs.head? = some '_' ∧ seenDigit ∧ ¬lastSeparator) →
      scanDigitsFrom digits seenDigit lastSeparator cursor'.rest cursor'.offset =
        (seenDigit && !lastSeparator, cursor') := by
    intro seenDigit lastSeparator cs offset cursor' hbeside hdigit hseparator
    have hlike := hbeside.stopsLike hstops
    refine scanDigitsFrom_stop (mt (hlike.any_head? hdigits) hdigit) ?_
    exact mt (And.imp_left (hlike.head?_eq_some (by decide))) hseparator
  fun_induction scanDigitsFrom digits seenDigit lastSeparator cs offset generalizing cursor' with
  | case1 => exact ⟨cursor', hend hbeside (by simp) (by simp), hbeside⟩
  | case2 seenDigit lastSeparator c cs offset hc ih =>
    obtain ⟨cs', offset', rfl, hbehind⟩ :=
      hbeside.cons ((scanDigitsFrom_reaches _ _ _ _ _).trans hreaches)
    rw [scanDigitsFrom, if_pos hc]
    exact ih hbehind hreaches
  | case3 seenDigit lastSeparator c cs offset hc hseparator ih =>
    have hsize : c.utf8Size = 1 := by rw [hseparator.1]; rfl
    have hbehind := (scanDigitsFrom_reaches _ _ _ _ _).trans hreaches
    rw [← hsize] at hbehind
    obtain ⟨cs', offset', rfl, hbehind⟩ := hbeside.cons hbehind
    rw [hsize] at hbehind
    rw [scanDigitsFrom, if_neg hc, if_pos hseparator]
    exact ih hbehind hreaches
  | case4 seenDigit lastSeparator c cs offset hc hseparator =>
    exact ⟨cursor', hend hbeside (by simpa using hc) (by simpa using hseparator), hbeside⟩

private theorem scanDigits_beside (hdigits : ExcludesEnds digits.contains)
    (hstops : StopsLike goal.rest goal'.rest) (hbeside : Cursor.Beside goal goal' cursor cursor')
    (hscan : scanDigits digits cursor = .ok stop) (hreaches : stop.Reaches goal) :
    EndsBeside goal goal' stop (scanDigits digits cursor') := by
  simp only [scanDigits] at hscan ⊢
  split at hscan
  · rename_i hformed
    cases hscan
    obtain ⟨stop', hscan', hbehind⟩ :=
      scanDigitsFrom_beside hdigits hstops false false hbeside hreaches
    rw [hscan', if_pos hformed]
    exact ⟨stop', rfl, hbehind⟩
  · cases hscan

private theorem scanOptionalDigits_beside (hstops : StopsLike goal.rest goal'.rest)
    (hbeside : Cursor.Beside goal goal' cursor cursor')
    (hscan : scanOptionalDigits cursor = .ok stop) (hreaches : stop.Reaches goal) :
    EndsBeside goal goal' stop (scanOptionalDigits cursor') := by
  have hdigits : ExcludesEnds Text.decimalDigits.contains := by decide
  unfold scanOptionalDigits at hscan ⊢
  split at hscan
  · rename_i hpeek
    obtain ⟨c, hc, hdigit⟩ : ∃ c, cursor.peek? = some c ∧ Text.decimalDigits.contains c := by
      simpa [Option.any_eq_true] using hpeek
    have hlt := Nat.lt_of_lt_of_le (scanDigits_offset_lt hc hdigit hscan) hreaches.offset_le
    obtain ⟨hc', -⟩ := hbeside.advance hc
      (((scanDigits_reaches hscan).trans hreaches).advance hlt)
    rw [if_pos (by simp [hc', hdigit])]
    exact scanDigits_beside hdigits hstops hbeside hscan hreaches
  · rename_i hpeek
    cases hscan
    rw [if_neg (mt (hbeside.any_peek? hstops hdigits) hpeek)]
    exact ⟨cursor', rfl, hbeside⟩

/-- What an announced run of digits excludes, and the two characters that announce it. -/
theorem radixDigits?_cases {text : List Char} (hradix : radixDigits? text = some digits) :
    ExcludesEnds digits.contains ∧ ∃ letter cs, text = '0' :: letter :: cs ∧
      ∀ cs', radixDigits? ('0' :: letter :: cs') = some digits := by
  unfold radixDigits? at hradix
  split at hradix
  · rename_i letter cs
    refine ⟨?_, letter, cs, rfl, fun cs' => hradix⟩
    split at hradix
    · cases hradix
      decide
    · split at hradix
      · cases hradix
        decide
      · split at hradix
        · cases hradix
          decide
        · cases hradix
  · cases hradix

private theorem scanRadixDigits_beside (hdigits : ExcludesEnds digits.contains)
    (hstops : StopsLike goal.rest goal'.rest) (hbeside : Cursor.Beside goal goal' cursor cursor')
    (hscan : scanRadixDigits digits cursor = .ok stop) (hreaches : stop.Reaches goal) :
    EndsBeside goal goal' stop (scanRadixDigits digits cursor') := by
  obtain ⟨rest, offset⟩ := cursor
  obtain ⟨rest', offset'⟩ := cursor'
  rw [scanRadixDigits_eq] at hscan ⊢
  split at hscan
  · rename_i hhead
    obtain ⟨cs, rfl⟩ : ∃ cs, rest = '_' :: cs := by
      cases rest with
      | nil => cases hhead
      | cons c cs => exact ⟨cs, by rw [Option.some.inj hhead]⟩
    rw [List.tail_cons] at hscan
    dsimp only at hscan
    by_cases hformed : (scanDigitsFrom digits false true cs (offset + 1)).1
    · rw [if_pos hformed] at hscan
      cases hscan
      have hpassed := (scanDigitsFrom_reaches digits false true cs (offset + 1)).trans hreaches
      obtain ⟨cs', offset'', hcursor', hbehind⟩ := hbeside.cons hpassed
      cases hcursor'
      obtain ⟨stop', hscan', hend⟩ :=
        scanDigitsFrom_beside hdigits hstops false true hbehind hreaches
      have hscan' : scanDigitsFrom digits false true cs' (offset' + 1) =
          ((scanDigitsFrom digits false true cs (offset + 1)).1, stop') := hscan'
      rw [List.head?_cons, if_pos rfl, List.tail_cons, hscan']
      dsimp only
      rw [if_pos hformed]
      exact ⟨stop', rfl, hend⟩
    · rw [if_neg hformed] at hscan
      cases hscan
  · rename_i hhead
    rw [if_neg (mt ((hbeside.stopsLike hstops).head?_eq_some (by decide)) hhead)]
    exact scanDigits_beside hdigits hstops hbeside hscan hreaches

private theorem scanRadixNumber_beside (hradix : radixDigits? cursor.rest = some digits)
    (hstops : StopsLike goal.rest goal'.rest) (hbeside : Cursor.Beside goal goal' cursor cursor')
    (hscan : scanRadixNumber digits cursor = .ok stop) (hreaches : stop.Reaches goal) :
    EndsBeside goal goal' stop (scanNumber cursor') := by
  obtain ⟨hdigits, letter, cs, hrest, hradix'⟩ := radixDigits?_cases hradix
  obtain ⟨rest, offset⟩ := cursor
  obtain rfl : rest = '0' :: letter :: cs := hrest
  obtain ⟨behind, hscanDigits, htail⟩ := bind_eq_ok_iff.mp hscan
  have hbehind : behind = stop ∧ ¬stop.peek?.any Char.isAlphanum := by
    split at htail
    · cases htail
    · rename_i hpeek
      cases htail
      exact ⟨rfl, hpeek⟩
  obtain ⟨rfl, hpeek⟩ := hbehind
  have hletter := (scanRadixDigits_reaches hscanDigits).trans hreaches
  -- The zero and the letter are passed on both texts.
  obtain ⟨behindZero, offset', rfl, hzero⟩ := hbeside.cons (.cons hletter)
  obtain ⟨cs', behindOffset, hcursor', hboth⟩ := hzero.cons hletter
  cases hcursor'
  obtain ⟨stop', hscan', hend⟩ := scanRadixDigits_beside hdigits hstops hboth hscanDigits hreaches
  have halphanum : ExcludesEnds Char.isAlphanum := by decide
  refine ⟨stop', ?_, hend⟩
  rw [scanNumber]
  dsimp only
  rw [hradix']
  refine bind_eq_ok_iff.mpr ⟨stop', hscan', ?_⟩
  rw [if_neg (mt (hend.any_peek? hstops halphanum) hpeek)]

/-- No exponent comes to stand in front. -/
theorem StopsLike.startsExponent {rest rest' : List Char} (hstops : StopsLike rest rest')
    (hstarts : startsExponent rest') : startsExponent rest := by
  have hdigit : ExcludesEnds Char.isDigit := by decide
  cases hstops with
  | refl => exact hstarts
  | nil => cases hstarts
  | @ends c hend rest tail =>
    cases tail with
    | nil => cases hstarts
    | cons d tail => rcases hend with rfl | rfl <;> cases hstarts
  | @cons letter rest rest' hstops =>
    cases hstops with
    | refl => exact hstarts
    | nil => cases hstarts
    | @ends c hend rest tail =>
      rcases hend with rfl | rfl <;> simp [PythonOutline.startsExponent] at hstarts
    | @cons c rest rest' hstops =>
      simp only [PythonOutline.startsExponent, Bool.and_eq_true, Bool.or_eq_true] at hstarts ⊢
      exact hstarts.imp_right (Or.imp_right (And.imp_right (hstops.any_head? hdigit)))

/-- An exponent in front of a goal is scanned beside it too: its letter, its sign, and its
digits. -/
private theorem scanExponent_beside (hstarts : startsExponent cursor.rest)
    (hstops : StopsLike goal.rest goal'.rest) (hbeside : Cursor.Beside goal goal' cursor cursor')
    (hscan : scanExponent cursor = .ok stop) (hreaches : stop.Reaches goal) :
    startsExponent cursor'.rest ∧ EndsBeside goal goal' stop (scanExponent cursor') := by
  have hdigits : ExcludesEnds Text.decimalDigits.contains := by decide
  obtain ⟨rest, offset⟩ := cursor
  obtain ⟨letter, c, cs, rfl⟩ : ∃ letter c cs, rest = letter :: c :: cs := by
    cases rest with
    | nil => cases hstarts
    | cons letter rest =>
      cases rest with
      | nil => cases hstarts
      | cons c cs => exact ⟨letter, c, cs, rfl⟩
  simp only [startsExponent, Bool.and_eq_true, Bool.or_eq_true, decide_eq_true_eq] at hstarts
  obtain ⟨hletter, hnumber⟩ := hstarts
  -- A run of digits that reaches the goal is passed from its first digit on.
  have hdigit : ∀ {d : Char} {ds : List Char} {offset : Nat}, d.isDigit →
      scanDigits Text.decimalDigits ⟨d :: ds, offset⟩ = .ok stop →
      (⟨ds, offset + d.utf8Size⟩ : Cursor).Reaches goal := by
    intro d ds offset hd hscan
    have hlt := scanDigits_offset_lt rfl (by rwa [Text.decimalDigits_contains]) hscan
    exact ((scanDigits_reaches hscan).trans hreaches).advance
      (Nat.lt_of_lt_of_le hlt hreaches.offset_le)
  have hdigits' := fun {behind behind' : Cursor} =>
    @scanDigits_beside goal goal' behind behind' stop Text.decimalDigits hdigits hstops
  simp only [scanExponent, Cursor.advance, Cursor.peek?, List.head?_cons, Option.some.injEq] at hscan
  by_cases hsign : c = '+' ∨ c = '-'
  · rw [if_pos hsign] at hscan
    have hhead : cs.head?.any Char.isDigit := by
      rcases hnumber with hc | hc
      · rcases hsign with rfl | rfl <;> cases hc
      · exact hc.2
    obtain ⟨d, ds, rfl, hd⟩ : ∃ d ds, cs = d :: ds ∧ d.isDigit := by
      cases cs with
      | nil => cases hhead
      | cons d ds => exact ⟨d, ds, rfl, hhead⟩
    have hbehind := hdigit hd hscan
    obtain ⟨behindLetter, offset', rfl, hletterBeside⟩ := hbeside.cons (.cons (.cons hbehind))
    obtain ⟨behindSign, signOffset, hcursor, hsignBeside⟩ := hletterBeside.cons (.cons hbehind)
    cases hcursor
    obtain ⟨ds', digitOffset, hcursor, -⟩ := hsignBeside.cons hbehind
    cases hcursor
    refine ⟨by simp [startsExponent, hletter, hsign, hd], ?_⟩
    simp only [scanExponent, Cursor.advance, Cursor.peek?, List.head?_cons, Option.some.injEq]
    rw [if_pos hsign]
    exact hdigits' hsignBeside hscan hreaches
  · rw [if_neg hsign] at hscan
    have hc : c.isDigit := hnumber.resolve_right fun hother => hsign hother.1
    have hbehind := hdigit hc hscan
    obtain ⟨behindLetter, offset', rfl, hletterBeside⟩ := hbeside.cons (.cons hbehind)
    obtain ⟨cs', digitOffset, hcursor, -⟩ := hletterBeside.cons hbehind
    cases hcursor
    refine ⟨by simp [startsExponent, hletter, hc], ?_⟩
    simp only [scanExponent, Cursor.advance, Cursor.peek?, List.head?_cons, Option.some.injEq]
    rw [if_neg hsign]
    exact hdigits' hletterBeside hscan hreaches

/-- A computation whose first step is chosen, for a step that is known to succeed. -/
theorem ite_bind_of_eq_ok {ε α β : Type} {choice : Prop} [Decidable choice] {first second : Except ε α}
    {others : α → Except ε β} {value : α} (hvalue : (if choice then first else second) = .ok value) :
    (if choice then first >>= others else second >>= others) = others value := by
  by_cases hchoice : choice
  · rw [if_pos hchoice] at hvalue ⊢
    rw [hvalue]
    rfl
  · rw [if_neg hchoice] at hvalue ⊢
    rw [hvalue]
    rfl

/-- The fraction of a number, with whether it has one. -/
theorem fraction_beside (hstops : StopsLike goal.rest goal'.rest)
    (hbeside : Cursor.Beside goal goal' cursor cursor')
    (hscan : (if cursor.peek? = some '.' then scanOptionalDigits cursor.advance else .ok cursor) =
      .ok stop)
    (hreaches : stop.Reaches goal) :
    (cursor'.peek? = some '.' ↔ cursor.peek? = some '.') ∧
      EndsBeside goal goal' stop
        (if cursor'.peek? = some '.' then scanOptionalDigits cursor'.advance else .ok cursor') := by
  by_cases hpoint : cursor.peek? = some '.'
  · rw [if_pos hpoint] at hscan
    have hbehind := (scanOptionalDigits_reaches hscan).trans hreaches
    obtain ⟨hpoint', hadvance⟩ := hbeside.advance hpoint hbehind
    refine ⟨iff_of_true hpoint' hpoint, ?_⟩
    rw [if_pos hpoint']
    exact scanOptionalDigits_beside hstops hadvance hscan hreaches
  · rw [if_neg hpoint] at hscan
    cases hscan
    have hpoint' := mt (hbeside.peek?_eq_some hstops (by decide)) hpoint
    refine ⟨iff_of_false hpoint' hpoint, ?_⟩
    rw [if_neg hpoint']
    exact ⟨cursor', rfl, hbeside⟩

/-- The exponent of a number, with whether it has one. -/
theorem exponent_beside (hstops : StopsLike goal.rest goal'.rest)
    (hbeside : Cursor.Beside goal goal' cursor cursor')
    (hscan : (if startsExponent cursor.rest then scanExponent cursor else .ok cursor) = .ok stop)
    (hreaches : stop.Reaches goal) :
    startsExponent cursor'.rest = startsExponent cursor.rest ∧
      EndsBeside goal goal' stop
        (if startsExponent cursor'.rest then scanExponent cursor' else .ok cursor') := by
  by_cases hstarts : startsExponent cursor.rest
  · rw [if_pos hstarts] at hscan
    obtain ⟨hstarts', hend⟩ := scanExponent_beside hstarts hstops hbeside hscan hreaches
    refine ⟨hstarts'.trans hstarts.symm, ?_⟩
    rw [if_pos hstarts']
    exact hend
  · rw [if_neg hstarts] at hscan
    cases hscan
    have hstarts' := mt (hbeside.stopsLike hstops).startsExponent hstarts
    refine ⟨by simp_all, ?_⟩
    rw [if_neg hstarts']
    exact ⟨cursor', rfl, hbeside⟩

/-- The imaginary unit of a number, with whether it has one. -/
theorem imaginary_beside (hstops : StopsLike goal.rest goal'.rest)
    (hbeside : Cursor.Beside goal goal' cursor cursor')
    (hreaches : (if cursor.peek? = some 'j' ∨ cursor.peek? = some 'J' then cursor.advance
      else cursor).Reaches goal) :
    (cursor'.peek? = some 'j' ∨ cursor'.peek? = some 'J' ↔
      cursor.peek? = some 'j' ∨ cursor.peek? = some 'J') ∧
      Cursor.Beside goal goal'
        (if cursor.peek? = some 'j' ∨ cursor.peek? = some 'J' then cursor.advance else cursor)
        (if cursor'.peek? = some 'j' ∨ cursor'.peek? = some 'J' then cursor'.advance
          else cursor') := by
  by_cases hunit : cursor.peek? = some 'j' ∨ cursor.peek? = some 'J'
  · rw [if_pos hunit] at hreaches ⊢
    have hunit' : cursor'.peek? = some 'j' ∨ cursor'.peek? = some 'J' :=
      hunit.imp (fun hpeek => (hbeside.advance hpeek hreaches).1)
        fun hpeek => (hbeside.advance hpeek hreaches).1
    refine ⟨iff_of_true hunit' hunit, ?_⟩
    rw [if_pos hunit']
    rcases hunit with hpeek | hpeek
    · exact (hbeside.advance hpeek hreaches).2
    · exact (hbeside.advance hpeek hreaches).2
  · rw [if_neg hunit] at hreaches ⊢
    have hunit' : ¬(cursor'.peek? = some 'j' ∨ cursor'.peek? = some 'J') :=
      mt (Or.imp (hbeside.peek?_eq_some hstops (by decide))
        (hbeside.peek?_eq_some hstops (by decide))) hunit
    refine ⟨iff_of_false hunit' hunit, ?_⟩
    rw [if_neg hunit']
    exact hbeside

/-- The parts of a decimal number, each behind the one before it. -/
theorem scanDecimalNumber_parts (hscan : scanDecimalNumber cursor = .ok stop) :
    ∃ integer fraction exponent, scanOptionalDigits cursor = .ok integer ∧
      (if integer.peek? = some '.' then scanOptionalDigits integer.advance else .ok integer) =
        .ok fraction ∧
      (if startsExponent fraction.rest then scanExponent fraction else .ok fraction) = .ok exponent ∧
      stop = (if exponent.peek? = some 'j' ∨ exponent.peek? = some 'J' then exponent.advance
        else exponent) ∧
      integer.Reaches fraction ∧ fraction.Reaches exponent ∧ exponent.Reaches stop ∧
      ¬(¬integer.peek? = some '.' ∧ ¬startsExponent fraction.rest ∧
        ¬(exponent.peek? = some 'j' ∨ exponent.peek? = some 'J') ∧
        hasLeadingZero (cursor.textTo integer)) := by
  obtain ⟨integer, hinteger, hscan⟩ := bind_eq_ok_iff.mp hscan
  obtain ⟨fraction, hfraction, hscan⟩ := ite_bind_eq_ok hscan
  obtain ⟨exponent, hexponent, hscan⟩ := ite_bind_eq_ok hscan
  dsimp only at hscan
  split at hscan
  · cases hscan
  rename_i hzero
  cases hscan
  refine ⟨integer, fraction, exponent, hinteger, hfraction, hexponent, rfl, ?_, ?_, ?_, ?_⟩
  · split at hfraction
    · exact integer.reaches_advance.trans (scanOptionalDigits_reaches hfraction)
    · cases hfraction
      exact .refl _
  · split at hexponent
    · exact scanExponent_reaches hexponent
    · cases hexponent
      exact .refl _
  · split
    · exact exponent.reaches_advance
    · exact .refl _
  · simpa using hzero

private theorem scanDecimalNumber_beside (hstops : StopsLike goal.rest goal'.rest)
    (hbeside : Cursor.Beside goal goal' cursor cursor')
    (hscan : scanDecimalNumber cursor = .ok stop) (hreaches : stop.Reaches goal) :
    EndsBeside goal goal' stop (scanDecimalNumber cursor') := by
  obtain ⟨integer, fraction, exponent, hinteger, hfraction, hexponent, rfl, hintegerReaches,
    hfractionReaches, hexponentReaches, hzero⟩ := scanDecimalNumber_parts hscan
  have hexponentGoal := hexponentReaches.trans hreaches
  have hfractionGoal := hfractionReaches.trans hexponentGoal
  obtain ⟨integer', hinteger', hintegerBeside⟩ :=
    scanOptionalDigits_beside hstops hbeside hinteger (hintegerReaches.trans hfractionGoal)
  obtain ⟨hpoint, fraction', hfraction', hfractionBeside⟩ :=
    fraction_beside hstops hintegerBeside hfraction hfractionGoal
  obtain ⟨hstarts, exponent', hexponent', hexponentBeside⟩ :=
    exponent_beside hstops hfractionBeside hexponent hexponentGoal
  obtain ⟨hunit, hend⟩ := imaginary_beside hstops hexponentBeside hreaches
  have htext := hbeside.textTo_eq hintegerBeside (scanOptionalDigits_reaches hinteger)
  refine ⟨_, ?_, hend⟩
  refine bind_eq_ok_iff.mpr ⟨integer', hinteger', ?_⟩
  refine (ite_bind_of_eq_ok hfraction').trans ((ite_bind_of_eq_ok hexponent').trans ?_)
  dsimp only
  rw [htext, hstarts]
  simp only [hpoint, hunit]
  rw [if_neg (by simpa using hzero)]

/-- A number that starts with a point in front of a digit passes both. -/
theorem scanNumber_point {d : Char} (hpoint : cursor.peek? = some '.')
    (hpeek : cursor.advance.peek? = some d) (hd : d.isDigit) (hscan : scanNumber cursor = .ok stop) :
    cursor.advance.advance.Reaches stop := by
  have hradix : radixDigits? cursor.rest = none := by
    cases hsome : radixDigits? cursor.rest with
    | none => rfl
    | some digits =>
      obtain ⟨-, letter, cs, hrest, -⟩ := radixDigits?_cases hsome
      rw [Cursor.peek?, hrest] at hpoint
      cases hpoint
  rw [scanNumber, hradix] at hscan
  obtain ⟨integer, fraction, exponent, hinteger, hfraction, -, -, -, hfractionReaches,
    hexponentReaches, -⟩ := scanDecimalNumber_parts hscan
  have hdot : ¬Text.decimalDigits.contains '.' = true := by decide
  rw [scanOptionalDigits, hpoint, Option.any_some, if_neg hdot] at hinteger
  cases hinteger
  have hdigit : Text.decimalDigits.contains d = true := by rwa [Text.decimalDigits_contains]
  rw [if_pos hpoint, scanOptionalDigits, hpeek, Option.any_some, if_pos hdigit] at hfraction
  have hlt := scanDigits_offset_lt hpeek hdigit hfraction
  exact ((scanDigits_reaches hfraction).advance hlt).trans (hfractionReaches.trans hexponentReaches)

/-- No zero with a radix letter comes to stand in front. -/
theorem StopsLike.radixDigits? {rest rest' : List Char} (hstops : StopsLike rest rest')
    (hradix : radixDigits? rest' = some digits) : radixDigits? rest = some digits := by
  obtain ⟨-, letter, cs, rfl, hannounced⟩ := radixDigits?_cases hradix
  have hletter : ¬EndsLexeme letter := by
    rintro (rfl | rfl) <;> cases hradix
  have hzero : ¬EndsLexeme '0' := by decide
  cases hstops with
  | refl => exact hradix
  | ends hend => exact absurd hend hzero
  | cons _ hstops =>
    cases hstops with
    | refl => exact hradix
    | ends hend => exact absurd hend hletter
    | cons => exact hannounced _

private theorem scanNumber_beside (hstops : StopsLike goal.rest goal'.rest)
    (hbeside : Cursor.Beside goal goal' cursor cursor') (hscan : scanNumber cursor = .ok stop)
    (hreaches : stop.Reaches goal) : EndsBeside goal goal' stop (scanNumber cursor') := by
  unfold scanNumber at hscan
  split at hscan
  · rename_i digits hradix
    exact scanRadixNumber_beside hradix hstops hbeside hscan hreaches
  · rename_i hradix
    have hradix' : radixDigits? cursor'.rest = none := by
      cases hsome : radixDigits? cursor'.rest with
      | none => rfl
      | some digits =>
        rw [(hbeside.stopsLike hstops).radixDigits? hsome] at hradix
        cases hradix
    rw [scanNumber, hradix']
    exact scanDecimalNumber_beside hstops hbeside hscan hreaches

/-! ## String literals -/

namespace StringMode

variable {mode : StringMode} {outer modes : List StringMode} {following following' : List Char}
  {skip : Nat}

/-- Two more quotes follow on both texts, if the first of them has them taken along. -/
theorem pair_stopsLike {quote : Char} (hquote : isQuote quote) (hstops : StopsLike following following')
    (htake : [quote, quote].isPrefixOf following → following'.take 2 = following.take 2) :
    [quote, quote].isPrefixOf following' = [quote, quote].isPrefixOf following := by
  have hends : ¬EndsLexeme quote := by
    rintro (rfl | rfl) <;> cases hquote
  rw [Bool.eq_iff_iff]
  refine ⟨hstops.isPrefixOf (by simpa using hends), fun hstarts => ?_⟩
  have hsame := htake hstarts
  rw [List.isPrefixOf_iff_prefix, List.prefix_iff_eq_take] at hstarts ⊢
  exact hstarts.trans hsame.symm

/-- A second brace follows on both texts, if the first of them has it taken along. -/
theorem brace_stopsLike (hc : c = '\x7b' ∨ c = '\x7d') (hstops : StopsLike following following')
    (htake : following.head? = some c → following'.take 1 = following.take 1) :
    following'.head? = some c ↔ following.head? = some c := by
  have hends : ¬EndsLexeme c := by
    rcases hc with rfl | rfl <;> decide
  refine ⟨hstops.head?_eq_some hends, fun hhead => ?_⟩
  have hsame := htake hhead
  cases following <;> cases following' <;> simp_all

/-- What a character does depends on what follows only by the characters that it takes along, and by
quotes and braces that do not follow. -/
theorem step_stopsLike (hmode : mode.IsQuoted) (hstops : StopsLike following following')
    (hstep : mode.step outer c following = some (skip, modes))
    (htake : following'.take skip = following.take skip) :
    mode.step outer c following' = some (skip, modes) := by
  cases mode with
  | text quote triple formatted =>
    rw [step] at hstep ⊢
    by_cases hc : c = '\\'
    · rwa [if_pos hc] at hstep ⊢
    rw [if_neg hc] at hstep ⊢
    by_cases hline : c = '\n' ∧ ¬triple = true
    · rwa [if_pos hline] at hstep ⊢
    rw [if_neg hline] at hstep ⊢
    by_cases hbrace : formatted = true ∧ (c = '\x7b' ∨ c = '\x7d')
    · rw [if_pos hbrace] at hstep ⊢
      have hhead := brace_stopsLike hbrace.2 hstops fun hhead => by
        rw [if_pos hhead] at hstep
        cases hstep
        exact htake
      simpa only [hhead] using hstep
    rw [if_neg hbrace] at hstep ⊢
    by_cases hquote : c = quote
    · rw [if_pos hquote] at hstep ⊢
      by_cases htriple : ¬triple = true
      · rwa [if_pos htriple] at hstep ⊢
      rw [if_neg htriple] at hstep ⊢
      have hpair := pair_stopsLike hmode hstops fun hpair => by
        rw [if_pos hpair] at hstep
        cases hstep
        exact htake
      simpa only [hpair] using hstep
    · rwa [if_neg hquote] at hstep ⊢
  | field brackets word =>
    rw [step] at hstep ⊢
    by_cases hword : ¬word.isEmpty = true ∧ Text.isIdentifierContinue c = true
    · rwa [if_pos hword] at hstep ⊢
    rw [if_neg hword] at hstep ⊢
    by_cases hquote : isQuote c
    · rw [if_pos hquote] at hstep ⊢
      simp only [openText] at hstep ⊢
      have hpair := pair_stopsLike hquote hstops fun hpair => by
        rw [if_pos hpair] at hstep
        cases hstep
        exact htake
      simpa only [hpair] using hstep
    · rwa [if_neg hquote] at hstep ⊢
  | formatSpec => exact hstep

end StringMode

/-- The characters that are to be taken along are passed before a literal is closed. -/
theorem scanStringFrom_skip {skip : Nat} {modes : List StringMode} {cs : List Char} {offset : Nat}
    (hscan : scanStringFrom skip modes cs offset = .closed stop) :
    ∃ text, text.length = skip ∧ ∃ middle, (⟨cs, offset⟩ : Cursor).Passes text middle ∧
      middle.Reaches stop := by
  induction skip generalizing cs offset with
  | zero => exact ⟨[], rfl, _, .refl _, scanStringFrom_reaches hscan⟩
  | succ skip ih =>
    cases cs with
    | nil => cases hscan
    | cons c cs =>
      rw [scanStringFrom] at hscan
      obtain ⟨text, rfl, middle, hpasses, hreaches⟩ := ih hscan
      exact ⟨c :: text, rfl, middle, hpasses.cons, hreaches⟩

/-- A string that ends at a goal or before it is scanned beside it too, whatever modes it has
open. -/
private theorem scanStringFrom_beside (hstops : StopsLike goal.rest goal'.rest) {skip : Nat}
    {modes : List StringMode} (hmodes : ∀ mode ∈ modes, mode.IsQuoted) {cs : List Char} {offset : Nat}
    (hbeside : Cursor.Beside goal goal' ⟨cs, offset⟩ cursor')
    (hscan : scanStringFrom skip modes cs offset = .closed stop) (hreaches : stop.Reaches goal) :
    ∃ stop', scanStringFrom skip modes cursor'.rest cursor'.offset = .closed stop' ∧
      Cursor.Beside goal goal' stop stop' := by
  fun_induction scanStringFrom skip modes cs offset generalizing cursor' with
  | case1 cs offset =>
    cases hscan
    exact ⟨cursor', by rw [scanStringFrom], hbeside⟩
  | case2 => cases hscan
  | case3 skip modes c cs offset ih =>
    obtain ⟨cs', offset', rfl, hbehind⟩ :=
      hbeside.cons ((scanStringFrom_reaches hscan).trans hreaches)
    rw [scanStringFrom]
    exact ih hmodes hbehind hscan
  | case4 => cases hscan
  | case5 mode outer c cs offset skip modes hstep ih =>
    obtain ⟨cs', offset', rfl, hbehind⟩ :=
      hbeside.cons ((scanStringFrom_reaches hscan).trans hreaches)
    obtain ⟨hmode, houter⟩ := List.forall_mem_cons.mp hmodes
    have htake : cs'.take skip = cs.take skip := by
      obtain ⟨text, rfl, middle, hpasses, hmiddle⟩ := scanStringFrom_skip hscan
      exact hbehind.take_eq hpasses (hmiddle.trans hreaches)
    have hstep' := StringMode.step_stopsLike hmode (hbehind.stopsLike hstops) hstep htake
    rw [scanStringFrom, hstep']
    exact ih (StringMode.step_isQuoted hmode houter hstep) hbehind hscan

/-! ## Words and operators -/

/-- A run that ends at a goal or before it ends at the same place beside it, if its class ends no
token. -/
private theorem Cursor.skipRun_beside (hclass : ExcludesEnds inClass)
    (hstops : StopsLike goal.rest goal'.rest) {cs : List Char} {offset : Nat}
    (hbeside : Beside goal goal' ⟨cs, offset⟩ cursor')
    (hreaches : (skipRun inClass cs offset).Reaches goal) :
    Beside goal goal' (skipRun inClass cs offset) (skipRun inClass cursor'.rest cursor'.offset) := by
  have hend : ∀ {cs : List Char} {offset : Nat} {cursor' : Cursor},
      Beside goal goal' ⟨cs, offset⟩ cursor' → ¬cs.head?.any inClass →
      skipRun inClass cursor'.rest cursor'.offset = cursor' := by
    intro cs offset cursor' hbeside hc
    have hc' := mt (hbeside.any_peek? hstops hclass) hc
    obtain ⟨rest', offset'⟩ := cursor'
    cases rest' with
    | nil => rfl
    | cons d rest' =>
      have hd : ¬inClass d = true := hc'
      rw [skipRun, if_neg hd]
  fun_induction skipRun inClass cs offset generalizing cursor' with
  | case1 =>
    rw [hend hbeside (by simp)]
    exact hbeside
  | case2 c cs offset hc ih =>
    have hpassed : (⟨cs, offset + c.utf8Size⟩ : Cursor).Reaches
        (skipRun inClass cs (offset + c.utf8Size)) :=
      ⟨_, passes_skipRun inClass cs _⟩
    obtain ⟨cs', offset', rfl, hbehind⟩ := hbeside.cons (hpassed.trans hreaches)
    rw [skipRun, if_pos hc]
    exact ih hbehind hreaches
  | case3 c cs offset hc =>
    rw [hend hbeside (by simpa using hc)]
    exact hbeside

/-- The longest operator of a text is as long as any other one. -/
theorem TokenKind.length_le_longestOperator? {text : List Char} {other : TokenKind × String}
    (hother : other ∈ operatorSpellings) (hstarts : other.2.toList.isPrefixOf text) :
    ∃ entry, longestOperator? text = some entry ∧ other.2.length ≤ entry.2.length := by
  obtain ⟨before, after, hsplit⟩ := List.append_of_mem hother
  unfold longestOperator?
  rw [hsplit, List.foldl_append, List.foldl_cons, if_pos hstarts]
  -- Once an operator is found that is as long as the given one, only longer ones take its place.
  refine List.foldlRecOn (motive := fun best =>
    ∃ entry : TokenKind × String, best = some entry ∧ other.2.length ≤ entry.2.length) after _ ?_ ?_
  · generalize before.foldl _ _ = best
    cases best with
    | none => exact ⟨other, rfl, Nat.le_refl _⟩
    | some found =>
      by_cases hlt : found.2.length < other.2.length
      · exact ⟨other, if_pos hlt, Nat.le_refl _⟩
      · exact ⟨found, if_neg hlt, Nat.le_of_not_lt hlt⟩
  · rintro best ⟨found, rfl, hle⟩ entry -
    split
    · by_cases hlt : found.2.length < entry.2.length
      · exact ⟨entry, if_pos hlt, by omega⟩
      · exact ⟨found, if_neg hlt, hle⟩
    · exact ⟨found, rfl, hle⟩

/-- The longest operator of a text is the one in front of it that no other one is longer than. -/
theorem TokenKind.longestOperator?_eq {text : List Char} {entry : TokenKind × String}
    (hentry : entry ∈ operatorSpellings) (hstarts : entry.2.toList <+: text)
    (hlongest : ∀ other ∈ operatorSpellings, other.2.toList <+: text →
      other.2.length ≤ entry.2.length) : longestOperator? text = some entry := by
  have hspelling : ∀ entry ∈ operatorSpellings, ∀ other ∈ operatorSpellings,
      entry.2 = other.2 → entry = other := by
    decide +kernel
  obtain ⟨found, hfound, hle⟩ :=
    length_le_longestOperator? hentry (List.isPrefixOf_iff_prefix.mpr hstarts)
  obtain ⟨hmem, hprefix⟩ := longestOperator?_eq_some hfound
  have hlength := Nat.le_antisymm hle (hlongest found hmem hprefix)
  have hsame : entry.2.toList = found.2.toList := by
    rw [List.prefix_iff_eq_take] at hstarts hprefix
    rw [hstarts, hprefix, String.length_toList, String.length_toList, hlength]
  rw [hfound, hspelling entry hentry found hmem (String.toList_injective hsame)]

/-- A text that stops an operator alike has the same longest operator, if that still stands
in front. -/
theorem StopsLike.longestOperator? {rest rest' : List Char} {entry : TokenKind × String}
    (hstops : StopsLike rest rest') (hlongest : TokenKind.longestOperator? rest = some entry)
    (hstarts : entry.2.toList.isPrefixOf rest') : TokenKind.longestOperator? rest' = some entry := by
  have hplain : ∀ entry ∈ TokenKind.operatorSpellings,
      ' ' ∉ entry.2.toList ∧ '\n' ∉ entry.2.toList := by
    decide +kernel
  have hends : ∀ entry ∈ TokenKind.operatorSpellings, ∀ c ∈ entry.2.toList, ¬EndsLexeme c := by
    rintro entry hentry c hc (rfl | rfl)
    · exact (hplain entry hentry).1 hc
    · exact (hplain entry hentry).2 hc
  obtain ⟨hentry, -⟩ := TokenKind.longestOperator?_eq_some hlongest
  refine TokenKind.longestOperator?_eq hentry (List.isPrefixOf_iff_prefix.mp hstarts) ?_
  intro other hother hprefix
  obtain ⟨longest, hfound, hle⟩ := TokenKind.length_le_longestOperator? hother
    (hstops.isPrefixOf (hends other hother) (List.isPrefixOf_iff_prefix.mpr hprefix))
  obtain rfl : entry = longest := Option.some.inj (hlongest.symm.trans hfound)
  exact hle

namespace Lexer

variable {kind : TokenKind}

private theorem number_eq_ok (hread : number cursor = .ok (kind, stop)) :
    scanNumber cursor = .ok stop := by
  unfold number at hread
  split at hread
  · rename_i hscan
    cases hread
    exact hscan
  · cases hread

private theorem number_beside (hstops : StopsLike goal.rest goal'.rest)
    (hbeside : Cursor.Beside goal goal' cursor cursor') (hread : number cursor = .ok (kind, goal)) :
    number cursor' = .ok (kind, goal') := by
  obtain ⟨stop', hscan', hend⟩ := scanNumber_beside hstops hbeside (number_eq_ok hread) (.refl _)
  unfold number at hread ⊢
  split at hread
  · cases hread
    rw [hscan', hend.eq_goal]
  · cases hread

/-- A string whose end is the goal is read beside it too. -/
private theorem string_beside (hstops : StopsLike goal.rest goal'.rest) {start : Nat} (start' : Nat)
    {formatted : Bool} (hquote : isQuote c) (hpeek : cursor.peek? = some c)
    (hbeside : Cursor.Beside goal goal' cursor cursor')
    (hread : string start formatted cursor = .ok (kind, goal)) :
    cursor'.peek? = some c ∧ string start' formatted cursor' = .ok (kind, goal') := by
  obtain ⟨rfl, hscan⟩ := string_eq_ok hread
  obtain ⟨rest, offset⟩ := cursor
  cases rest with
  | nil => cases hpeek
  | cons d cs =>
    obtain rfl : d = c := Option.some.inj hpeek
    have hscan : scanStringFrom (StringMode.openText d formatted cs).2
        [(StringMode.openText d formatted cs).1] cs (offset + d.utf8Size) = .closed goal := hscan
    obtain ⟨cs', offset', rfl, hbehind⟩ := hbeside.cons (scanStringFrom_reaches hscan)
    have hopen : StringMode.openText d formatted cs' = StringMode.openText d formatted cs := by
      have hpair := StringMode.pair_stopsLike hquote (hbehind.stopsLike hstops) fun hpair => by
        rw [StringMode.openText, if_pos hpair] at hscan
        obtain ⟨text, htext, middle, hpasses, hmiddle⟩ := scanStringFrom_skip hscan
        have htake := hbehind.take_eq hpasses hmiddle
        rwa [htext] at htake
      rw [StringMode.openText, StringMode.openText, hpair]
    have hmodes : ∀ mode ∈ [(StringMode.openText d formatted cs).1], mode.IsQuoted := by
      rw [List.forall_mem_singleton, StringMode.openText]
      split <;> exact hquote
    obtain ⟨stop', hscan', hend⟩ := scanStringFrom_beside hstops hmodes hbehind hscan (.refl _)
    have hclosed : scanString formatted ⟨d :: cs', offset'⟩ = .closed stop' := by
      rw [scanString]
      dsimp only
      rw [hopen]
      exact hscan'
    refine ⟨rfl, ?_⟩
    rw [string_eq, hclosed, hend.eq_goal]

/-- A word whose end is the goal is read beside it too, as a name, a keyword, or a string with a
prefix. -/
private theorem word_beside (hstops : StopsLike goal.rest goal'.rest)
    (hbeside : Cursor.Beside goal goal' cursor cursor') (hread : word cursor = .ok (kind, goal)) :
    word cursor' = .ok (kind, goal') := by
  have hclass : ExcludesEnds Text.isIdentifierContinue := by constructor <;> decide +kernel
  have hquotes : ExcludesEnds isQuote := by decide
  have hpasses := cursor.passes_skipWhile Text.isIdentifierContinue
  have hbehind : (cursor.skipWhile Text.isIdentifierContinue).Reaches goal →
      Cursor.Beside goal goal' (cursor.skipWhile Text.isIdentifierContinue)
        (cursor'.skipWhile Text.isIdentifierContinue) :=
    Cursor.skipRun_beside hclass hstops hbeside
  unfold word at hread ⊢
  dsimp only at hread ⊢
  split at hread
  · rename_i hstring
    rw [Bool.and_eq_true] at hstring
    obtain ⟨c, hpeek, hquote⟩ : ∃ c, (cursor.skipWhile Text.isIdentifierContinue).peek? = some c ∧
        isQuote c := by
      simpa [Option.any_eq_true] using hstring.1
    have hend := hbehind (scanString_passes (string_eq_ok hread).2).1
    obtain ⟨hpeek', hread'⟩ := string_beside hstops cursor'.offset hquote hpeek hend hread
    rw [hbeside.textTo_eq hend ⟨_, hpasses⟩, if_pos (by simp [hpeek', hquote, hstring.2])]
    exact hread'
  · rename_i hword
    cases hread
    have hend := hbehind (.refl _)
    rw [hbeside.textTo_eq hend ⟨_, hpasses⟩, if_neg, hend.eq_goal]
    rw [Bool.and_eq_true] at hword ⊢
    exact mt (And.imp_left (hend.any_peek? hstops hquotes)) hword

/-- An operator whose end is the goal is read beside it too: no longer one comes to stand in
front. -/
private theorem operator_beside (hstops : StopsLike goal.rest goal'.rest)
    (hbeside : Cursor.Beside goal goal' cursor cursor') (hread : operator cursor = .ok (kind, goal)) :
    operator cursor' = .ok (kind, goal') := by
  unfold operator at hread
  split at hread
  · rename_i kind spelling hlongest
    obtain ⟨-, hprefix⟩ := TokenKind.longestOperator?_eq_some hlongest
    cases hread
    have htake : cursor.rest.take spelling.length = spelling.toList := by
      rw [← String.length_toList]
      exact (List.prefix_iff_eq_take.mp hprefix).symm
    have hpasses := cursor.passes_advanceBy spelling.length
    rw [htake] at hpasses
    have hpasses' := hbeside.passes ⟨[], .refl _, .refl _⟩ hpasses
    have hlongest' := (hbeside.stopsLike hstops).longestOperator? hlongest
      (List.isPrefixOf_iff_prefix.mpr ⟨_, hpasses'.rest_eq.symm⟩)
    have hadvance := cursor'.passes_advanceBy spelling.length
    have htake' : cursor'.rest.take spelling.length = spelling.toList := by
      rw [hpasses'.rest_eq, ← String.length_toList, List.take_left]
    rw [htake'] at hadvance
    rw [operator, hlongest']
    dsimp only
    rw [hadvance.later_eq hpasses']
  · cases hread

/-- A token is read alike in front of a text that stops it alike. -/
theorem significant_beside (hstops : StopsLike goal.rest goal'.rest)
    (hbeside : Cursor.Beside goal goal' cursor cursor') (hpeek : cursor.peek? = some c)
    (hread : significant c cursor = .ok (kind, goal)) :
    significant c cursor' = .ok (kind, goal') := by
  have hextent := significant_extent hpeek
  rw [hread] at hextent
  obtain ⟨-, hreaches, hlt⟩ := hextent
  obtain ⟨hpeek', hadvance⟩ := hbeside.advance hpeek (hreaches.advance hlt)
  have hdigit : ExcludesEnds Char.isDigit := by decide
  unfold significant at hread ⊢
  split at hread
  · rename_i hstart
    rw [if_pos hstart]
    exact word_beside hstops hbeside hread
  rename_i hstart
  rw [if_neg hstart]
  split at hread
  · rename_i hnumber
    rw [if_pos]
    · exact number_beside hstops hbeside hread
    rw [Bool.or_eq_true] at hnumber ⊢
    refine hnumber.imp_right fun hpoint => ?_
    rw [Bool.and_eq_true, decide_eq_true_eq] at hpoint ⊢
    obtain ⟨rfl, hany⟩ := hpoint
    obtain ⟨d, hd, hdigit⟩ : ∃ d, cursor.advance.peek? = some d ∧ d.isDigit := by
      simpa [Option.any_eq_true] using hany
    obtain ⟨hd', -⟩ := hadvance.advance hd (scanNumber_point hpeek hd hdigit (number_eq_ok hread))
    exact ⟨rfl, by simp [hd', hdigit]⟩
  rename_i hnumber
  rw [if_neg]
  · split at hread
    · rename_i hquote
      rw [if_pos hquote]
      exact (string_beside hstops _ hquote hpeek hbeside hread).2
    · rename_i hquote
      rw [if_neg hquote]
      exact operator_beside hstops hbeside hread
  · rw [Bool.or_eq_true, Bool.and_eq_true] at hnumber ⊢
    exact mt (Or.imp_right (And.imp_right (hadvance.any_peek? hstops hdigit))) hnumber

/-- The extent of a token is determined by its own text: it is read alike wherever that text is
written, in front of a text that stops it alike. -/
theorem significant_stopsLike {text rest rest' : List Char} {offset : Nat} (offset' : Nat)
    (hstops : StopsLike rest rest') (hhead : text.head? = some c)
    (hread : significant c ⟨text ++ rest, offset⟩ = .ok (kind, ⟨rest, offset + Text.byteLength text⟩)) :
    significant c ⟨text ++ rest', offset'⟩ = .ok (kind, ⟨rest', offset' + Text.byteLength text⟩) := by
  refine significant_beside hstops ⟨text, ⟨rfl, rfl⟩, ⟨rfl, rfl⟩⟩ ?_ hread
  cases text with
  | nil => cases hhead
  | cons d text => exact hhead

end Lexer

end

end PythonOutline
