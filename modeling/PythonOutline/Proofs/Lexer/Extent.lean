import PythonOutline.Proofs.Lexer.StringStride

/-! # The extent of single tokens

A number, a string literal, a word and an operator each pass at least one character and end at a
cursor of the source. A text that is none of them is reported from where it starts.
-/

namespace PythonOutline

/-- A computation that may fail succeeds if its first step does and the others do behind it. -/
theorem bind_eq_ok_iff {ε α β : Type} {first : Except ε α} {others : α → Except ε β} {result : β} :
    (first >>= others) = .ok result ↔ ∃ value, first = .ok value ∧ others value = .ok result := by
  cases first with
  | error error => simp [bind, Except.bind]
  | ok value => simp [bind, Except.bind]

/-- The same with a choice in the first step. -/
theorem ite_bind_eq_ok {ε α β : Type} {choice : Prop} [Decidable choice] {first second : Except ε α}
    {others : α → Except ε β} {result : β}
    (hrun : (if choice then first >>= others else second >>= others) = .ok result) :
    ∃ value, (if choice then first else second) = .ok value ∧ others value = .ok result := by
  split at hrun
  · rename_i hchoice
    simpa [hchoice] using bind_eq_ok_iff.mp hrun
  · rename_i hchoice
    simpa [hchoice] using bind_eq_ok_iff.mp hrun

/-! ## Numbers -/

/-- Digits are scanned forwards. -/
theorem scanDigitsFrom_reaches (digits : Text.CharSet) (seenDigit lastSeparator : Bool)
    (cs : List Char) (offset : Nat) :
    (⟨cs, offset⟩ : Cursor).Reaches (scanDigitsFrom digits seenDigit lastSeparator cs offset).2 := by
  fun_induction scanDigitsFrom digits seenDigit lastSeparator cs offset with
  | case1 => exact .refl _
  | case2 _ _ c cs offset _ ih => exact .cons ih
  | case3 _ _ c cs offset _ hc ih =>
    obtain ⟨rfl, -⟩ := hc
    exact .cons ih
  | case4 => exact .refl _

/-- Digits that have to be there are scanned forwards. -/
theorem scanDigits_reaches {digits : Text.CharSet} {cursor stop : Cursor}
    (hscan : scanDigits digits cursor = .ok stop) : cursor.Reaches stop := by
  have hreaches := scanDigitsFrom_reaches digits false false cursor.rest cursor.offset
  simp only [scanDigits] at hscan
  split at hscan
  · cases hscan
    exact hreaches
  · cases hscan

/-- Digits that start with a digit take at least that one. -/
theorem scanDigits_offset_lt {digits : Text.CharSet} {cursor stop : Cursor} {c : Char}
    (hpeek : cursor.peek? = some c) (hc : digits.contains c)
    (hscan : scanDigits digits cursor = .ok stop) : cursor.offset < stop.offset := by
  obtain ⟨rest, offset⟩ := cursor
  cases rest with
  | nil => simp [Cursor.peek?] at hpeek
  | cons d cs =>
    obtain rfl : d = c := by simpa [Cursor.peek?] using hpeek
    have hreaches := scanDigitsFrom_reaches digits true false cs (offset + d.utf8Size)
    have hsize := d.utf8Size_pos
    simp only [scanDigits, scanDigitsFrom, hc, ↓reduceIte] at hscan
    split at hscan
    · cases hscan
      have hle := hreaches.offset_le
      simp only at hle ⊢
      omega
    · cases hscan

/-- Digits of another base are scanned forwards. -/
theorem scanRadixDigits_reaches {digits : Text.CharSet} {cursor stop : Cursor}
    (hscan : scanRadixDigits digits cursor = .ok stop) : cursor.Reaches stop := by
  obtain ⟨rest, offset⟩ := cursor
  have hunderscore : ∀ cs, (⟨'_' :: cs, offset⟩ : Cursor).Reaches
      (scanDigitsFrom digits false true cs (offset + 1)).2 :=
    fun cs => .cons (scanDigitsFrom_reaches digits false true cs _)
  have hdigits := scanDigitsFrom_reaches digits false false rest offset
  unfold scanRadixDigits at hscan
  split at hscan
  rename_i wellFormed behind hresult
  split at hscan
  · cases hscan
    split at hresult
    · rename_i cs hrest
      obtain rfl : rest = '_' :: cs := hrest
      simpa [hresult] using hunderscore cs
    · simpa [hresult] using hdigits
  · cases hscan

/-- Digits that may be missing are scanned forwards. -/
theorem scanOptionalDigits_reaches {cursor stop : Cursor}
    (hscan : scanOptionalDigits cursor = .ok stop) : cursor.Reaches stop := by
  unfold scanOptionalDigits at hscan
  split at hscan
  · exact scanDigits_reaches hscan
  · cases hscan
    exact .refl _

private theorem scanRadixNumber_reaches {digits : Text.CharSet} {cursor stop : Cursor}
    (hscan : scanRadixNumber digits cursor = .ok stop) :
    (cursor.advanceBy 2).Reaches stop := by
  obtain ⟨behind, hdigits, hscan⟩ := bind_eq_ok_iff.mp hscan
  split at hscan
  · cases hscan
  · cases hscan
    exact scanRadixDigits_reaches hdigits

/-- An exponent is scanned forwards. -/
theorem scanExponent_reaches {cursor stop : Cursor} (hscan : scanExponent cursor = .ok stop) :
    cursor.Reaches stop := by
  have hletter := cursor.reaches_advance
  unfold scanExponent at hscan
  refine hletter.trans ?_
  have hdigits := scanDigits_reaches hscan
  split at hdigits
  · exact (Cursor.reaches_advance _).trans hdigits
  · exact hdigits

/-- A decimal number passes its integer part, its point, its fraction and what follows. -/
theorem scanDecimalNumber_reaches {cursor stop : Cursor}
    (hscan : scanDecimalNumber cursor = .ok stop) :
    ∃ integer, scanOptionalDigits cursor = .ok integer ∧ cursor.Reaches integer ∧
      (if integer.peek? = some '.' then integer.advance else integer).Reaches stop := by
  obtain ⟨integer, hinteger, hscan⟩ := bind_eq_ok_iff.mp hscan
  refine ⟨integer, hinteger, scanOptionalDigits_reaches hinteger, ?_⟩
  obtain ⟨fraction, hfraction, hscan⟩ := ite_bind_eq_ok hscan
  obtain ⟨exponent, hexponent, hscan⟩ := ite_bind_eq_ok hscan
  have hfractionReaches :
      (if integer.peek? = some '.' then integer.advance else integer).Reaches fraction := by
    split at hfraction
    · rename_i hpoint
      simp only [hpoint, ↓reduceIte]
      exact scanOptionalDigits_reaches hfraction
    · rename_i hpoint
      cases hfraction
      simp only [hpoint, ↓reduceIte]
      exact .refl _
  have hexponentReaches : fraction.Reaches exponent := by
    split at hexponent
    · exact scanExponent_reaches hexponent
    · cases hexponent
      exact .refl _
  refine (hfractionReaches.trans hexponentReaches).trans ?_
  simp only at hscan
  split at hscan
  · cases hscan
  · cases hscan
    split
    · exact Cursor.reaches_advance _
    · exact .refl _

/-- The decimal digits are the ASCII ones. -/
theorem Text.decimalDigits_contains {c : Char} : Text.decimalDigits.contains c = c.isDigit := by
  have hzero : ('0' : Char).toNat = 48 := rfl
  have hnine : ('9' : Char).toNat = 57 := rfl
  simp only [decimalDigits, CharSet.contains, CharSet.insertRange, CharSet.empty, inRanges,
    List.any_cons, List.any_nil, hzero, hnine, Bool.or_false, Char.isDigit]
  rfl

/-- A number literal that starts with a digit or a point passes at least that. -/
theorem scanNumber_passes {cursor stop : Cursor} {c : Char} (hpeek : cursor.peek? = some c)
    (hc : c.isDigit ∨ c = '.') (hscan : scanNumber cursor = .ok stop) :
    cursor.Reaches stop ∧ cursor.offset < stop.offset := by
  unfold scanNumber at hscan
  split at hscan
  · have hstart := cursor.reaches_advanceBy 2
    have hnumber := scanRadixNumber_reaches hscan
    have hle := (Cursor.reaches_advance cursor.advance).trans hnumber |>.offset_le
    have hlt := Cursor.offset_lt_advance hpeek
    exact ⟨hstart.trans hnumber, by omega⟩
  · obtain ⟨integer, hinteger, hreaches, hrest⟩ := scanDecimalNumber_reaches hscan
    have hpoint : integer.Reaches
        (if integer.peek? = some '.' then integer.advance else integer) := by
      split
      · exact Cursor.reaches_advance _
      · exact .refl _
    refine ⟨(hreaches.trans hpoint).trans hrest, ?_⟩
    have hle := hrest.offset_le
    unfold scanOptionalDigits at hinteger
    rw [hpeek, Option.any_some, Text.decimalDigits_contains] at hinteger
    split at hinteger
    · rename_i hdigit
      rw [← Text.decimalDigits_contains] at hdigit
      have hlt := scanDigits_offset_lt hpeek hdigit hinteger
      have hle' := hpoint.offset_le
      omega
    · rename_i hdigit
      cases hinteger
      obtain rfl : c = '.' := by simpa [hdigit] using hc
      have hlt := Cursor.offset_lt_advance hpeek
      simp only [hpeek, ↓reduceIte] at hle
      omega

/-! ## String literals -/

/-- A string is closed behind where its scan began. -/
theorem scanStringFrom_reaches {skip : Nat} {modes : List StringMode} {cs : List Char} {offset : Nat}
    {stop : Cursor} (hscan : scanStringFrom skip modes cs offset = .closed stop) :
    (⟨cs, offset⟩ : Cursor).Reaches stop := by
  fun_induction scanStringFrom skip modes cs offset with
  | case1 cs offset =>
    cases hscan
    exact .refl _
  | case2 => cases hscan
  | case3 skip modes c cs offset ih => exact .cons (ih hscan)
  | case4 mode outer c cs offset hstep => cases hscan
  | case5 mode outer c cs offset skip modes hstep ih => exact .cons (ih hscan)

/-- A string literal passes at least its opening quote. -/
theorem scanString_passes {formatted : Bool} {quote stop : Cursor}
    (hscan : scanString formatted quote = .closed stop) :
    quote.Reaches stop ∧ quote.offset < stop.offset := by
  obtain ⟨rest, offset⟩ := quote
  cases rest with
  | nil => cases hscan
  | cons c cs =>
    have hreaches := scanStringFrom_reaches hscan
    have hsize := c.utf8Size_pos
    have hle := hreaches.offset_le
    refine ⟨.cons hreaches, ?_⟩
    simp only at hle ⊢
    omega

/-! ## Words -/

/-- Every character that may start an identifier may continue one. -/
theorem Text.isIdentifierContinue_of_start {c : Char} (hc : Text.isIdentifierStart c) :
    Text.isIdentifierContinue c := by
  unfold isIdentifierStart at hc
  unfold isIdentifierContinue
  split at hc
  · rename_i hascii
    rw [if_pos hascii]
    simp only [asciiIdentifierContinue, CharSet.contains, CharSet.insertRange, inRanges,
      List.any_cons, Bool.or_eq_true] at hc ⊢
    exact .inr hc
  · rename_i hascii
    rw [if_neg hascii, hc]
    rfl

/-- A kind of token that is made of text: every kind but those for line structure and the two that
end a token sequence. -/
def TokenKind.IsSolid (kind : TokenKind) : Prop :=
  kind.isSignificant ∧ kind ≠ .endOfInput ∧ kind ≠ .invalid

instance (kind : TokenKind) : Decidable kind.IsSolid :=
  inferInstanceAs (Decidable (_ ∧ _))

/-- A solid kind is none of the others. -/
theorem TokenKind.IsSolid.ne {kind other : TokenKind} (hsolid : kind.IsSolid)
    (hother : ¬other.IsSolid) : kind ≠ other := by
  rintro rfl
  exact hother hsolid

private theorem TokenKind.isSolid_of_keyword? {word : String} {kind : TokenKind}
    (hkeyword : keyword? word = some kind) : kind.IsSolid := by
  have hall : ∀ entry ∈ keywordSpellings, entry.1.IsSolid := by decide
  simp only [keyword?, Option.map_eq_some_iff] at hkeyword
  obtain ⟨entry, hfind, rfl⟩ := hkeyword
  exact hall entry (List.mem_of_find?_eq_some hfind)

/-! ## Operators -/

/-- The longest operator of a text is an operator, and the text starts with it. -/
theorem TokenKind.longestOperator?_eq_some {text : List Char} {entry : TokenKind × String}
    (hlongest : longestOperator? text = some entry) :
    entry ∈ operatorSpellings ∧ entry.2.toList <+: text := by
  unfold longestOperator? at hlongest
  revert hlongest
  -- Whatever has been found so far is an operator in front of the text.
  refine List.foldlRecOn (motive := fun best =>
      best = some entry → entry ∈ operatorSpellings ∧ entry.2.toList <+: text)
    operatorSpellings _ nofun ?_
  intro best hbest found hfound hchosen
  split at hchosen
  · rename_i hprefix
    have hstarts : found ∈ operatorSpellings ∧ found.2.toList <+: text :=
      ⟨hfound, List.isPrefixOf_iff_prefix.mp hprefix⟩
    split at hchosen
    · cases hchosen
      exact hstarts
    · split at hchosen
      · cases hchosen
        exact hstarts
      · exact hbest hchosen
  · exact hbest hchosen

/-! ## Any token made of text -/

namespace Lexer

/-- A token made of text is solid, passes at least one character, and ends at its cursor. A failure
is reported from the start of the token. -/
def Extent (cursor : Cursor) : Except LexFailure (TokenKind × Cursor) → Prop
  | .ok (kind, stop) => kind.IsSolid ∧ cursor.Reaches stop ∧ cursor.offset < stop.offset
  | .error failure => failure.error.span.start = cursor.offset

/-- A number has an extent, or its failure has one. -/
theorem number_extent {cursor : Cursor} {c : Char} (hpeek : cursor.peek? = some c)
    (hc : c.isDigit ∨ c = '.') : Extent cursor (number cursor) := by
  unfold number
  split
  · rename_i stop hscan
    exact ⟨by decide, scanNumber_passes hpeek hc hscan⟩
  · rfl

private theorem string_extent {cursor quote : Cursor} {formatted : Bool}
    (hquote : cursor.Reaches quote) :
    Extent cursor (string cursor.offset formatted quote) := by
  rw [string_eq]
  split
  · rename_i stop hscan
    obtain ⟨hreaches, hlt⟩ := scanString_passes hscan
    have hle := hquote.offset_le
    exact ⟨by decide, hquote.trans hreaches, by omega⟩
  · rfl

/-- A word extends over the characters of its name, or of the string it is the prefix of. -/
private theorem word_extent {cursor : Cursor} {c : Char} (hpeek : cursor.peek? = some c)
    (hc : Text.isIdentifierStart c) : Extent cursor (word cursor) := by
  have hpasses := cursor.passes_skipWhile Text.isIdentifierContinue
  have hletter : cursor.rest.takeWhile Text.isIdentifierContinue ≠ [] := by
    obtain ⟨rest, offset⟩ := cursor
    cases rest with
    | nil => simp [Cursor.peek?] at hpeek
    | cons d cs =>
      obtain rfl : d = c := by simpa [Cursor.peek?] using hpeek
      simp [Text.isIdentifierContinue_of_start hc]
  simp only [word]
  split
  · exact string_extent ⟨_, hpasses⟩
  · refine ⟨?_, ⟨_, hpasses⟩, hpasses.offset_lt hletter⟩
    cases hkeyword : TokenKind.keyword? _ with
    | none => decide
    | some kind => exact TokenKind.isSolid_of_keyword? hkeyword

/-- An operator extends over its spelling. -/
private theorem operator_extent {cursor : Cursor} {c : Char} (hpeek : cursor.peek? = some c) :
    Extent cursor (operator cursor) := by
  have hall : ∀ entry ∈ TokenKind.operatorSpellings, entry.1.IsSolid ∧ entry.2.length ≠ 0 := by
    decide
  unfold operator
  split
  · rename_i kind spelling hlongest
    obtain ⟨hmem, -⟩ := TokenKind.longestOperator?_eq_some hlongest
    obtain ⟨hsolid, hlength⟩ := hall _ hmem
    obtain ⟨count, hcount⟩ := Nat.exists_eq_succ_of_ne_zero hlength
    have hle := (cursor.advance.reaches_advanceBy count).offset_le
    have hlt := Cursor.offset_lt_advance hpeek
    refine ⟨hsolid, cursor.reaches_advanceBy _, ?_⟩
    simp only at hcount
    rw [hcount, Cursor.advanceBy]
    omega
  · rfl

/-- Whatever stands at a cursor has the extent of a token, or is reported from there. -/
theorem significant_extent {cursor : Cursor} {c : Char} (hpeek : cursor.peek? = some c) :
    Extent cursor (significant c cursor) := by
  unfold significant
  split
  · rename_i hc
    exact word_extent hpeek hc
  · split
    · rename_i hc
      simp only [Bool.or_eq_true, Bool.and_eq_true, decide_eq_true_eq] at hc
      exact number_extent hpeek (hc.imp_right And.left)
    · split
      · exact string_extent (.refl cursor)
      · exact operator_extent hpeek

end Lexer

end PythonOutline
