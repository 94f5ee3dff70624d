import Mathlib.Data.List.Basic
import PythonOutline.Proofs.Lexer.Extent
import PythonOutline.Proofs.Text.LineBreak

/-! # Tokens within a line

Numbers, words and operators hold no line ends. On a text that is written with other line
breaks they are therefore read as before: the cursors behind them keep the distance that they
had in front. -/

namespace PythonOutline

/-- Two results of reading a text in two ways: related values, or failures. A value that the first
way may lose, or the second one may gain, can also stand beside a failure. -/
inductive AgreeBut {ε ε' α α' : Type} (lost : α → Prop) (gained : α' → Prop)
    (related : α → α' → Prop) : Except ε α → Except ε' α' → Prop where
  | ok {value : α} {value' : α'} (hvalue : related value value') :
      AgreeBut lost gained related (.ok value) (.ok value')
  | error {error : ε} {error' : ε'} : AgreeBut lost gained related (.error error) (.error error')
  | onlyFirst {value : α} {error' : ε'} (hlost : lost value) :
      AgreeBut lost gained related (.ok value) (.error error')
  | onlySecond {error : ε} {value' : α'} (hgained : gained value') :
      AgreeBut lost gained related (.error error) (.ok value')

/-- Two results of reading a text in two ways: related values, or failures. -/
abbrev Agree {ε ε' α α' : Type} (related : α → α' → Prop) : Except ε α → Except ε' α' → Prop :=
  AgreeBut (fun _ => False) (fun _ => False) related

section

variable {ε ε' α α' β β' : Type} {lost : α → Prop} {gained : α' → Prop} {related : α → α' → Prop}
  {lostNext : β → Prop} {gainedNext : β' → Prop} {relatedNext : β → β' → Prop}
  {first : Except ε α} {first' : Except ε' α'} {others : α → Except ε β}
  {others' : α' → Except ε' β'}

namespace AgreeBut

/-- Agreement is kept when more may differ. -/
theorem mono {lost' : α → Prop} {gained' : α' → Prop} {related' : α → α' → Prop}
    (hfirst : AgreeBut lost gained related first first')
    (hrelated : ∀ value value', related value value' → related' value value')
    (hlost : ∀ value, first = .ok value → lost value → lost' value)
    (hgained : ∀ value', first' = .ok value' → gained value' → gained' value') :
    AgreeBut lost' gained' related' first first' := by
  cases hfirst with
  | ok hvalue => exact .ok (hrelated _ _ hvalue)
  | error => exact .error
  | onlyFirst hvalue => exact .onlyFirst (hlost _ rfl hvalue)
  | onlySecond hvalue => exact .onlySecond (hgained _ rfl hvalue)

/-- A failure agrees with what was gained. -/
theorem ofError {error : ε} (hgained : ∀ value', first' = .ok value' → gained value') :
    AgreeBut lost gained related (.error error) first' := by
  cases first' with
  | ok => exact .onlySecond (hgained _ rfl)
  | error => exact .error

/-- What was lost agrees with a failure. -/
theorem ofError' {error' : ε'} (hlost : ∀ value, first = .ok value → lost value) :
    AgreeBut lost gained related first (.error error') := by
  cases first with
  | ok => exact .onlyFirst (hlost _ rfl)
  | error => exact .error

/-- One step after another, which knows what came of the first one, and what is lost or gained. -/
theorem bindOk (hfirst : AgreeBut lost gained related first first')
    (hothers : ∀ value value', related value value' → first = .ok value → first' = .ok value' →
      AgreeBut lostNext gainedNext relatedNext (others value) (others' value'))
    (hlost : ∀ value result, first = .ok value → lost value → others value = .ok result →
      lostNext result)
    (hgained : ∀ value' result', first' = .ok value' → gained value' → others' value' = .ok result' →
      gainedNext result') :
    AgreeBut lostNext gainedNext relatedNext (first >>= others) (first' >>= others') := by
  cases hfirst with
  | ok hvalue => exact hothers _ _ hvalue rfl rfl
  | error => exact .error
  | onlyFirst hvalue => exact .ofError' fun result hresult => hlost _ result rfl hvalue hresult
  | onlySecond hvalue => exact .ofError fun result' hresult' => hgained _ result' rfl hvalue hresult'

end AgreeBut

namespace Agree

/-- One step after another, which knows what came of the first one. -/
theorem bindOk (hfirst : Agree related first first')
    (hothers : ∀ value value', related value value' → first = .ok value → first' = .ok value' →
      AgreeBut lostNext gainedNext relatedNext (others value) (others' value')) :
    AgreeBut lostNext gainedNext relatedNext (first >>= others) (first' >>= others') :=
  AgreeBut.bindOk hfirst hothers (fun _ _ _ => False.elim) fun _ _ _ => False.elim

/-- One step behind another agrees if both do. -/
theorem bind (hfirst : Agree related first first')
    (hothers : ∀ value value', related value value' →
      AgreeBut lostNext gainedNext relatedNext (others value) (others' value')) :
    AgreeBut lostNext gainedNext relatedNext (first >>= others) (first' >>= others') :=
  hfirst.bindOk fun value value' hvalue _ _ => hothers value value' hvalue

/-- Two ways that go on in the same one. -/
theorem iteBind (related : α → α' → Prop) {choice : Prop} [Decidable choice] {second : Except ε α}
    {second' : Except ε' α'} (hfirst : choice → Agree related first first')
    (hsecond : ¬choice → Agree related second second')
    (hothers : ∀ value value', related value value' →
      AgreeBut lostNext gainedNext relatedNext (others value) (others' value')) :
    AgreeBut lostNext gainedNext relatedNext (if choice then first >>= others else second >>= others)
      (if choice then first' >>= others' else second' >>= others') := by
  by_cases hchoice : choice
  · rw [if_pos hchoice, if_pos hchoice]
    exact (hfirst hchoice).bind hothers
  · rw [if_neg hchoice, if_neg hchoice]
    exact (hsecond hchoice).bind hothers

end Agree

end

/-- Two results of reading a text and the text written anew. A value that is folded over lines may
be lost with a carriage return and a line feed, where a backslash does not reach over both of them;
one may be gained with carriage returns, which end no literal. -/
abbrev LineBreak.Agrees (lineBreak : LineBreak) {ε ε' α α' : Type} (folded : α → Prop)
    (folded' : α' → Prop) (related : α → α' → Prop) : Except ε α → Except ε' α' → Prop :=
  AgreeBut (fun value => lineBreak = .returnFeed ∧ folded value)
    (fun value' => lineBreak = .carriageReturn ∧ folded' value') related

open LineBreak

variable {lineBreak : LineBreak} {distance : Nat} {cursor : Cursor} {inClass : Char → Bool}

/-! ## Cursors -/

namespace Cursor

/-- Characters other than those of line breaks come next in both spellings. -/
theorem peek?_respell_eq_some_iff {c : Char} (hfeed : c ≠ '\n') (hreturn : c ≠ '\r') :
    (cursor.respell lineBreak distance).peek? = some c ↔ cursor.peek? = some c :=
  head?_respell_eq_some_iff hfeed hreturn

/-- A class without characters of line breaks tells both spellings alike. -/
theorem peek?_any_respell (hclass : Inline inClass) :
    (cursor.respell lineBreak distance).peek?.any inClass = cursor.peek?.any inClass :=
  head?_any_respell hclass

/-- One character that is no line feed is passed in both spellings. -/
theorem advance_respell (hpeek : cursor.peek? ≠ some '\n') :
    (cursor.respell lineBreak distance).advance = cursor.advance.respell lineBreak distance := by
  obtain ⟨rest, offset⟩ := cursor
  cases rest with
  | nil => rfl
  | cons c cs =>
    have hc : c ≠ '\n' := by simpa [peek?] using hpeek
    simp only [respell, respell_cons hc, advance, mk.injEq, true_and]
    omega

private theorem advanceBy_respell {count : Nat} (hline : '\n' ∉ cursor.rest.take count) :
    (cursor.respell lineBreak distance).advanceBy count =
      (cursor.advanceBy count).respell lineBreak distance := by
  induction count generalizing cursor with
  | zero => rfl
  | succ count ih =>
    obtain ⟨rest, offset⟩ := cursor
    have hpeek : (⟨rest, offset⟩ : Cursor).peek? ≠ some '\n' := by
      cases rest with
      | nil => simp [peek?]
      | cons c cs =>
        intro hc
        obtain rfl : c = '\n' := by simpa [peek?] using hc
        simp at hline
    have hrest : '\n' ∉ (⟨rest, offset⟩ : Cursor).advance.rest.take count := by
      cases rest with
      | nil => simp [advance]
      | cons c cs =>
        rw [List.take_succ_cons, List.mem_cons, not_or] at hline
        exact hline.2
    rw [advanceBy, advanceBy, advance_respell hpeek, ih hrest]

/-- Characters of a class without line breaks are passed in both spellings. -/
theorem skipWhile_respell (hclass : Inline inClass) :
    (cursor.respell lineBreak distance).skipWhile inClass =
      (cursor.skipWhile inClass).respell lineBreak distance := by
  obtain ⟨rest, offset⟩ := cursor
  have hrun : ∀ offset, skipRun inClass (lineBreak.respell rest) (offset + distance) =
      (skipRun inClass rest offset).respell lineBreak distance := by
    induction rest with
    | nil => exact fun _ => rfl
    | cons c cs ih =>
      intro offset
      by_cases hc : c = '\n'
      · subst hc
        simp [skipRun, hclass.1, hclass.2, respell]
      · by_cases hin : inClass c
        · rw [respell_cons hc, skipRun, skipRun, if_pos hin, if_pos hin, Nat.add_right_comm, ih]
        · rw [respell_cons hc, skipRun, skipRun, if_neg hin, if_neg hin, respell, respell_cons hc]
  exact hrun offset

end Cursor

/-! ## Numbers -/

/-- Two scans that end with cursors at the distance where they started, or both fail. -/
def Keeps (lineBreak : LineBreak) (distance : Nat) (result result' : Except Cursor Cursor) : Prop :=
  Agree (fun stop stop' => stop' = stop.respell lineBreak distance) result result'

variable {digits : Text.CharSet}

private theorem scanDigitsFrom_respell (hdigits : Inline digits.contains)
    (seenDigit lastSeparator : Bool) (cs : List Char) (offset : Nat) :
    scanDigitsFrom digits seenDigit lastSeparator (lineBreak.respell cs) (offset + distance) =
      ((scanDigitsFrom digits seenDigit lastSeparator cs offset).1,
        (scanDigitsFrom digits seenDigit lastSeparator cs offset).2.respell lineBreak distance) := by
  induction cs generalizing seenDigit lastSeparator offset with
  | nil => rfl
  | cons c cs ih =>
    by_cases hc : c = '\n'
    · subst hc
      simp [scanDigitsFrom, hdigits.1, hdigits.2, Cursor.respell]
    · rw [respell_cons hc, scanDigitsFrom, scanDigitsFrom]
      split
      · rw [Nat.add_right_comm, ih]
      · split
        · rw [Nat.add_right_comm, ih]
        · rw [Cursor.respell, respell_cons hc]

private theorem scanDigits_respell (hdigits : Inline digits.contains) :
    Keeps lineBreak distance (scanDigits digits cursor)
      (scanDigits digits (cursor.respell lineBreak distance)) := by
  simp only [scanDigits, Cursor.respell, scanDigitsFrom_respell hdigits]
  split
  · exact .ok rfl
  · exact .error

/-- Behind a radix letter the digits start at once where there is no underscore. -/
theorem scanRadixDigits_eq (digits : Text.CharSet) (rest : List Char) (offset : Nat) :
    scanRadixDigits digits ⟨rest, offset⟩ =
      if rest.head? = some '_' then
        let (wellFormed, stop) := scanDigitsFrom digits false true rest.tail (offset + 1)
        if wellFormed then .ok stop else .error stop
      else scanDigits digits ⟨rest, offset⟩ := by
  cases rest with
  | nil => rfl
  | cons c cs =>
    by_cases hc : c = '_'
    · subst hc
      rfl
    · simp [scanRadixDigits, scanDigits, hc]

private theorem scanRadixDigits_respell (hdigits : Inline digits.contains) :
    Keeps lineBreak distance (scanRadixDigits digits cursor)
      (scanRadixDigits digits (cursor.respell lineBreak distance)) := by
  obtain ⟨rest, offset⟩ := cursor
  have hhead : (lineBreak.respell rest).head? = some '_' ↔ rest.head? = some '_' :=
    head?_respell_eq_some_iff (by decide) (by decide)
  rw [Cursor.respell, scanRadixDigits_eq, scanRadixDigits_eq]
  by_cases hunderscore : rest.head? = some '_'
  · obtain ⟨cs, rfl⟩ : ∃ cs, rest = '_' :: cs := by
      cases rest with
      | nil => cases hunderscore
      | cons c cs => exact ⟨cs, by rw [Option.some.inj hunderscore]⟩
    rw [if_pos hunderscore, if_pos (hhead.mpr hunderscore), respell_cons (by decide), List.tail_cons,
      List.tail_cons, Nat.add_right_comm, scanDigitsFrom_respell hdigits]
    dsimp only
    split
    · exact .ok rfl
    · exact .error
  · rw [if_neg hunderscore, if_neg (mt hhead.mp hunderscore)]
    exact scanDigits_respell hdigits

private theorem scanOptionalDigits_respell :
    Keeps lineBreak distance (scanOptionalDigits cursor)
      (scanOptionalDigits (cursor.respell lineBreak distance)) := by
  have hdigits : Inline Text.decimalDigits.contains := ⟨rfl, rfl⟩
  simp only [scanOptionalDigits, Cursor.peek?_any_respell hdigits]
  split
  · exact scanDigits_respell hdigits
  · exact .ok rfl

/-- Digits that are announced hold no line end, and neither do the zero and the letter. -/
theorem radixDigits?_eq_some {text : List Char} (hradix : radixDigits? text = some digits) :
    Inline digits.contains ∧ '\n' ∉ text.take 2 := by
  unfold radixDigits? at hradix
  split at hradix
  · rename_i letter cs
    have hline : letter ≠ '\n' := by
      rintro rfl
      cases hradix
    refine ⟨?_, by simp [hline.symm]⟩
    split at hradix
    · cases hradix
      exact ⟨rfl, rfl⟩
    · split at hradix
      · cases hradix
        exact ⟨rfl, rfl⟩
      · split at hradix
        · cases hradix
          exact ⟨rfl, rfl⟩
        · cases hradix
  · cases hradix

private theorem radixDigits?_respell (text : List Char) :
    radixDigits? (lineBreak.respell text) = radixDigits? text := by
  -- A line end is no radix letter.
  have hnone : ∀ (zero letter : Char) (cs : List Char), letter = '\n' ∨ letter = '\r' →
      radixDigits? (zero :: letter :: cs) = none := by
    intro zero letter cs hletter
    unfold radixDigits?
    split
    · rename_i heq
      obtain ⟨-, rfl, -⟩ : zero = '0' ∧ letter = _ ∧ cs = _ := by simpa using heq
      rcases hletter with rfl | rfl <;> rfl
    · rfl
  cases text with
  | nil => rfl
  | cons zero text =>
    by_cases hzero : zero = '\n'
    · subst hzero
      rfl
    rw [respell_cons hzero]
    cases text with
    | nil => rfl
    | cons letter text =>
      by_cases hletter : letter = '\n'
      · subst hletter
        rw [respell_feed, hnone _ _ _ (.inl rfl), hnone _ _ _ (.inr rfl)]
      · rw [respell_cons hletter]
        unfold radixDigits?
        split <;> simp_all

private theorem startsExponent_respell (text : List Char) :
    startsExponent (lineBreak.respell text) = startsExponent text := by
  have hdigit : Inline Char.isDigit := ⟨rfl, rfl⟩
  have hfalse : ∀ (letter : Char) (cs : List Char), letter = '\n' ∨ letter = '\r' →
      startsExponent (letter :: cs) = false := by
    intro letter cs hletter
    cases cs with
    | nil => rfl
    | cons c cs => rcases hletter with rfl | rfl <;> rfl
  cases text with
  | nil => rfl
  | cons letter text =>
    by_cases hletter : letter = '\n'
    · subst hletter
      rw [respell_feed, hfalse _ _ (.inl rfl), hfalse _ _ (.inr rfl)]
    rw [respell_cons hletter]
    cases text with
    | nil => rfl
    | cons c text =>
      by_cases hc : c = '\n'
      · subst hc
        simp [startsExponent]
      · rw [respell_cons hc, startsExponent, startsExponent, head?_any_respell hdigit]

private theorem hasLeadingZero_respell (digits : List Char) :
    hasLeadingZero (lineBreak.respell digits) = hasLeadingZero digits := by
  have hzero : (lineBreak.respell digits).head? = some '0' ↔ digits.head? = some '0' :=
    head?_respell_eq_some_iff (by decide) (by decide)
  rw [hasLeadingZero, hasLeadingZero, any_respell rfl, decide_eq_decide.mpr hzero]

private theorem scanRadixNumber_respell (hradix : radixDigits? cursor.rest = some digits) :
    Keeps lineBreak distance (scanRadixNumber digits cursor)
      (scanRadixNumber digits (cursor.respell lineBreak distance)) := by
  have halphanum : Inline Char.isAlphanum := ⟨rfl, rfl⟩
  obtain ⟨hdigits, hline⟩ := radixDigits?_eq_some hradix
  rw [scanRadixNumber, scanRadixNumber, Cursor.advanceBy_respell hline]
  refine (scanRadixDigits_respell hdigits).bind ?_
  rintro stop _ rfl
  rw [Cursor.peek?_any_respell halphanum]
  split
  · exact .error
  · exact .ok rfl

private theorem scanExponent_respell (hexponent : startsExponent cursor.rest) :
    Keeps lineBreak distance (scanExponent cursor)
      (scanExponent (cursor.respell lineBreak distance)) := by
  have hdigits : Inline Text.decimalDigits.contains := ⟨rfl, rfl⟩
  have hletter : cursor.peek? ≠ some '\n' := by
    obtain ⟨rest, offset⟩ := cursor
    intro hpeek
    cases rest with
    | nil => cases hpeek
    | cons c cs =>
      obtain rfl : c = '\n' := Option.some.inj hpeek
      cases cs <;> cases hexponent
  rw [scanExponent, scanExponent, Cursor.advance_respell hletter]
  have hsign : ∀ c : Char, c ≠ '\n' → c ≠ '\r' →
      ((cursor.advance.respell lineBreak distance).peek? = some c ↔ cursor.advance.peek? = some c) :=
    fun c => Cursor.peek?_respell_eq_some_iff
  simp only [hsign '+' (by decide) (by decide), hsign '-' (by decide) (by decide)]
  split
  · rename_i hpeek
    rw [Cursor.advance_respell (by rcases hpeek with hpeek | hpeek <;> simp [hpeek])]
    exact scanDigits_respell hdigits
  · exact scanDigits_respell hdigits

/-- The text up to where a number goes on holds a leading zero in either form. -/
theorem hasLeadingZero_textTo {stop : Cursor} (hreaches : cursor.Reaches stop)
    (hreaches' : (cursor.respell lineBreak distance).Reaches (stop.respell lineBreak distance)) :
    hasLeadingZero ((cursor.respell lineBreak distance).textTo (stop.respell lineBreak distance)) =
      hasLeadingZero (cursor.textTo stop) := by
  obtain ⟨text, hpasses⟩ := hreaches
  obtain ⟨text', hpasses'⟩ := hreaches'
  obtain rfl := hpasses.text_eq rfl hpasses' rfl
  rw [hpasses.textTo_eq, hpasses'.textTo_eq, hasLeadingZero_respell]

private theorem scanDecimalNumber_respell :
    Keeps lineBreak distance (scanDecimalNumber cursor)
      (scanDecimalNumber (cursor.respell lineBreak distance)) := by
  let Ahead (stop stop' : Cursor) : Prop := stop' = stop.respell lineBreak distance
  have hpeek : ∀ (cursor : Cursor) (c : Char), c ≠ '\n' → c ≠ '\r' →
      ((cursor.respell lineBreak distance).peek? = some c ↔ cursor.peek? = some c) :=
    fun _ c => Cursor.peek?_respell_eq_some_iff
  have hadvance : ∀ {cursor : Cursor} {c : Char}, c ≠ '\n' → cursor.peek? = some c →
      (cursor.respell lineBreak distance).advance = cursor.advance.respell lineBreak distance := by
    intro cursor c hc hpeek
    exact Cursor.advance_respell (by simpa [hpeek] using hc)
  unfold scanDecimalNumber
  refine scanOptionalDigits_respell.bindOk ?_
  rintro integer _ rfl hinteger hinteger'
  have hzero := hasLeadingZero_textTo (scanOptionalDigits_reaches hinteger)
    (scanOptionalDigits_reaches hinteger')
  simp only [hpeek integer '.' (by decide) (by decide), hzero]
  refine Agree.iteBind Ahead (fun hpoint => ?_) (fun _ => .ok rfl) ?_
  · rw [hadvance (by decide) hpoint]
    exact scanOptionalDigits_respell
  rintro fraction _ rfl
  have hexponent : startsExponent (fraction.respell lineBreak distance).rest =
      startsExponent fraction.rest := startsExponent_respell _
  simp only [hexponent]
  refine Agree.iteBind Ahead (fun hexponent => scanExponent_respell hexponent) (fun _ => .ok rfl) ?_
  rintro exponent _ rfl
  simp only [hpeek exponent 'j' (by decide) (by decide), hpeek exponent 'J' (by decide) (by decide)]
  split
  · exact .error
  · split
    · rename_i himaginary
      rcases himaginary with hunit | hunit
      · exact .ok (hadvance (by decide) hunit)
      · exact .ok (hadvance (by decide) hunit)
    · exact .ok rfl

private theorem scanNumber_respell (lineBreak : LineBreak) (distance : Nat) (cursor : Cursor) :
    Keeps lineBreak distance (scanNumber cursor)
      (scanNumber (cursor.respell lineBreak distance)) := by
  have hradix : radixDigits? (cursor.respell lineBreak distance).rest = radixDigits? cursor.rest :=
    radixDigits?_respell _
  rw [scanNumber, scanNumber, hradix]
  split
  · exact scanRadixNumber_respell ‹_›
  · exact scanDecimalNumber_respell

/-! ## Operators -/

private theorem TokenKind.longestOperator?_respell (text : List Char) :
    longestOperator? (lineBreak.respell text) = longestOperator? text := by
  have hline : ∀ entry ∈ operatorSpellings, ∀ c ∈ entry.2.toList, c ≠ '\n' ∧ c ≠ '\r' := by
    have hall : ∀ entry ∈ operatorSpellings,
        entry.2.toList.all (fun c => c ≠ '\n' ∧ c ≠ '\r') = true := by
      decide +kernel
    simpa using hall
  unfold longestOperator?
  refine List.foldl_ext _ _ _ fun best entry hentry => ?_
  rw [isPrefixOf_respell (hline entry hentry)]

namespace Lexer

/-- Two tokens within a line, or failures: the tokens are of one kind, and the cursors behind them
keep their distance. -/
def EndsAhead (lineBreak : LineBreak) (distance : Nat) (ending ending' : TokenKind × Cursor) : Prop :=
  ending' = (ending.1, ending.2.respell lineBreak distance)

/-- Numbers are read alike in both spellings. -/
theorem number_respell (cursor : Cursor) :
    Agree (EndsAhead lineBreak distance) (number cursor)
      (number (cursor.respell lineBreak distance)) := by
  have hscan := scanNumber_respell lineBreak distance cursor
  unfold number
  generalize scanNumber cursor = result, scanNumber (cursor.respell lineBreak distance) = result'
    at hscan
  cases hscan with
  | ok hstop =>
    subst hstop
    exact .ok rfl
  | error => exact .error
  | onlyFirst hlost => exact hlost.elim
  | onlySecond hgained => exact hgained.elim

/-- Operators are read alike in both spellings. -/
theorem operator_respell (cursor : Cursor) :
    Agree (EndsAhead lineBreak distance) (operator cursor)
      (operator (cursor.respell lineBreak distance)) := by
  have hlongest : TokenKind.longestOperator? (cursor.respell lineBreak distance).rest =
      TokenKind.longestOperator? cursor.rest := TokenKind.longestOperator?_respell _
  unfold operator
  rw [hlongest]
  split
  · rename_i kind spelling hentry
    obtain ⟨hmem, hprefix⟩ := TokenKind.longestOperator?_eq_some hentry
    have hspelling : '\n' ∉ spelling.toList := by
      have hline : ∀ entry ∈ TokenKind.operatorSpellings, '\n' ∉ entry.2.toList := by decide +kernel
      exact hline _ hmem
    have htake : cursor.rest.take spelling.length = spelling.toList := by
      rw [← String.length_toList]
      exact (List.prefix_iff_eq_take.mp hprefix).symm
    exact .ok (Prod.ext rfl (Cursor.advanceBy_respell (by rwa [htake])))
  · exact .error

end Lexer

end PythonOutline
