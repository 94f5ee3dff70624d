import PythonOutline.Proofs.Literal.RoundTrip

/-! # The texts of number literals

The grammar of the language for numbers, production by production: digits between which single
underscores may stand, radix numbers, integers, floats and imaginary numbers. The scanner passes
exactly the texts of this grammar, in whatever text they stand, and a text of the grammar alone is
one token.
-/

namespace PythonOutline

namespace Literal

/-! ## The grammar -/

/-- Digits between which single underscores may stand. -/
inductive Digits (isDigit : Char → Bool) : List Char → Prop where
  | single {c : Char} (hc : isDigit c) : Digits isDigit [c]
  | cons {c : Char} {text : List Char} (hc : isDigit c) (htext : Digits isDigit text) :
      Digits isDigit (c :: text)
  | separated {c : Char} {text : List Char} (hc : isDigit c) (htext : Digits isDigit text) :
      Digits isDigit (c :: '_' :: text)

/-- The radices that a letter behind a zero announces. -/
inductive Radix where
  | hexadecimal
  | octal
  | binary

/-- The letters that announce a radix. -/
def Radix.letters : Radix → List Char
  | .hexadecimal => ['x', 'X']
  | .octal => ['o', 'O']
  | .binary => ['b', 'B']

/-- The digits of a radix. -/
def Radix.isDigit : Radix → Char → Bool
  | .hexadecimal, c => c.isDigit || 'a' ≤ c && c ≤ 'f' || 'A' ≤ c && c ≤ 'F'
  | .octal, c => '0' ≤ c && c ≤ '7'
  | .binary, c => '0' ≤ c && c ≤ '1'

/-- An integer in decimal: without a leading zero, or made of zeros only. -/
inductive DecimalInteger : List Char → Prop where
  | nonzero {text : List Char} (hdigits : Digits Char.isDigit text)
      (hhead : text.head? ≠ some '0') : DecimalInteger text
  | zeros {text : List Char} (hdigits : Digits (· = '0') text) : DecimalInteger text

/-- A float with a point, which has digits on at least one side of it. -/
inductive PointFloat : List Char → Prop where
  | fraction {integer fraction : List Char} (hinteger : integer = [] ∨ Digits Char.isDigit integer)
      (hfraction : Digits Char.isDigit fraction) : PointFloat (integer ++ '.' :: fraction)
  | integer {integer : List Char} (hinteger : Digits Char.isDigit integer) :
      PointFloat (integer ++ ['.'])

/-- An exponent: its letter, at most one sign, and digits. -/
inductive Exponent : List Char → Prop where
  | intro {letter : Char} {sign digits : List Char} (hletter : letter = 'e' ∨ letter = 'E')
      (hsign : sign = [] ∨ sign = ['+'] ∨ sign = ['-']) (hdigits : Digits Char.isDigit digits) :
      Exponent (letter :: (sign ++ digits))

/-- A float: with a point, an exponent, or both. -/
inductive FloatNumber : List Char → Prop where
  | point {text : List Char} (hpoint : PointFloat text) : FloatNumber text
  | exponent {mantissa exponent : List Char}
      (hmantissa : Digits Char.isDigit mantissa ∨ PointFloat mantissa)
      (hexponent : Exponent exponent) : FloatNumber (mantissa ++ exponent)

/-- The texts that are numbers. -/
inductive IsNumber : List Char → Prop where
  | radix {radix : Radix} {letter : Char} {digits : List Char} (hletter : letter ∈ radix.letters)
      (hdigits : Digits radix.isDigit digits) : IsNumber ('0' :: letter :: digits)
  | separatedRadix {radix : Radix} {letter : Char} {digits : List Char}
      (hletter : letter ∈ radix.letters) (hdigits : Digits radix.isDigit digits) :
      IsNumber ('0' :: letter :: '_' :: digits)
  | decimal {text : List Char} (hinteger : DecimalInteger text) : IsNumber text
  | float {text : List Char} (hfloat : FloatNumber text) : IsNumber text
  | imaginary {text : List Char} {unit : Char}
      (htext : Digits Char.isDigit text ∨ FloatNumber text) (hunit : unit = 'j' ∨ unit = 'J') :
      IsNumber (text ++ [unit])

variable {isDigit : Char → Bool} {text following : List Char}

/-! ## Digits -/

/-- Digits of a base are digits of each base that has them. -/
theorem Digits.mono {isDigit' : Char → Bool} (hmono : ∀ c, isDigit c → isDigit' c)
    (hdigits : Digits isDigit text) : Digits isDigit' text := by
  induction hdigits with
  | single hc => exact .single (hmono _ hc)
  | cons hc _ ih => exact .cons (hmono _ hc) ih
  | separated hc _ ih => exact .separated (hmono _ hc) ih

/-- Digits are made of digits and underscores. -/
theorem Digits.forall_mem (hdigits : Digits isDigit text) :
    ∀ c ∈ text, isDigit c ∨ c = '_' := by
  induction hdigits with
  | single hc => simpa using .inl hc
  | cons hc _ ih => exact List.forall_mem_cons.mpr ⟨.inl hc, ih⟩
  | separated hc _ ih =>
    exact List.forall_mem_cons.mpr ⟨.inl hc, List.forall_mem_cons.mpr ⟨.inr rfl, ih⟩⟩

/-- Digits start with a digit. -/
theorem Digits.exists_cons (hdigits : Digits isDigit text) :
    ∃ c cs, text = c :: cs ∧ isDigit c := by
  cases hdigits with
  | single hc => exact ⟨_, _, rfl, hc⟩
  | cons hc _ => exact ⟨_, _, rfl, hc⟩
  | separated hc _ => exact ⟨_, _, rfl, hc⟩

/-- Decimal digits of which all are zeros are digits of zeros. -/
theorem Digits.zeros (hdigits : Digits Char.isDigit text) (hzeros : ∀ c ∈ text, c = '0' ∨ c = '_') :
    Digits (· = '0') text := by
  have hzero : ∀ {c : Char}, c.isDigit → c = '0' ∨ c = '_' → decide (c = '0') := by
    rintro c hc (rfl | rfl)
    · rfl
    · cases hc
  induction hdigits with
  | single hc => exact .single (hzero hc (hzeros _ List.mem_cons_self))
  | cons hc _ ih =>
    obtain ⟨hhead, htail⟩ := List.forall_mem_cons.mp hzeros
    exact .cons (hzero hc hhead) (ih htail)
  | separated hc _ ih =>
    obtain ⟨hhead, htail⟩ := List.forall_mem_cons.mp hzeros
    exact .separated (hzero hc hhead) (ih (List.forall_mem_cons.mp htail).2)

/-- A decimal integer is made of digits. -/
theorem DecimalInteger.digits (hinteger : DecimalInteger text) : Digits Char.isDigit text := by
  cases hinteger with
  | nonzero hdigits _ => exact hdigits
  | zeros hdigits =>
    refine hdigits.mono fun c hc => ?_
    obtain rfl : c = '0' := of_decide_eq_true hc
    rfl

/-- The check behind the scan tells the integers from other digits. -/
theorem Digits.hasLeadingZero_eq_false_iff (hdigits : Digits Char.isDigit text) :
    hasLeadingZero text = false ↔ DecimalInteger text := by
  constructor
  · intro hcheck
    by_cases hhead : text.head? = some '0'
    · refine .zeros (hdigits.zeros fun c hc => ?_)
      simp only [hasLeadingZero, hhead, decide_true, Bool.true_and, List.any_eq_false] at hcheck
      have hother := hcheck c hc
      by_contra hne
      rw [not_or] at hne
      exact hother (by simp [hne.1, hne.2])
    · exact .nonzero hdigits hhead
  · rintro (⟨-, hhead⟩ | hzeros)
    · simp [hasLeadingZero, hhead]
    · have hnone : (text.any fun c => c != '0' && c != '_') = false := by
        refine List.any_eq_false.mpr fun c hc => ?_
        rcases hzeros.forall_mem c hc with hzero | rfl
        · obtain rfl : c = '0' := of_decide_eq_true hzero
          simp
        · simp
      rw [hasLeadingZero, hnone, Bool.and_false]

/-- What may stand behind some digits: more digits, and, behind a digit, nothing at all or an
underscore and digits. -/
def DigitsBehind (isDigit : Char → Bool) (seenDigit lastSeparator : Bool) (text : List Char) :
    Prop :=
  Digits isDigit text ∨ seenDigit ∧ lastSeparator = false ∧
    (text = [] ∨ ∃ digits, text = '_' :: digits ∧ Digits isDigit digits)

/-- A digit and what may stand behind it are digits. -/
theorem DigitsBehind.cons {c : Char} (hc : isDigit c)
    (htext : DigitsBehind isDigit true false text) : Digits isDigit (c :: text) := by
  rcases htext with hdigits | ⟨-, -, rfl | ⟨digits, rfl, hdigits⟩⟩
  · exact .cons hc hdigits
  · exact .single hc
  · exact .separated hc hdigits

/-- A scan that finds nothing out of place passes digits. -/
theorem scanDigitsFrom_sound {set : Text.CharSet} {seenDigit lastSeparator : Bool} {cs : List Char}
    {offset : Nat} (hscan : (scanDigitsFrom set seenDigit lastSeparator cs offset).1) :
    ∃ text, (⟨cs, offset⟩ : Cursor).Passes text
        (scanDigitsFrom set seenDigit lastSeparator cs offset).2 ∧
      DigitsBehind set.contains seenDigit lastSeparator text := by
  have hends : ∀ {seenDigit lastSeparator : Bool}, (seenDigit && !lastSeparator) →
      DigitsBehind set.contains seenDigit lastSeparator [] := by
    intro seenDigit lastSeparator hend
    simp only [Bool.and_eq_true, Bool.not_eq_true'] at hend
    exact .inr ⟨hend.1, hend.2, .inl rfl⟩
  fun_induction scanDigitsFrom set seenDigit lastSeparator cs offset with
  | case1 _ _ offset => exact ⟨[], .refl _, hends hscan⟩
  | case2 _ _ c cs offset hc ih =>
    obtain ⟨text, hpasses, htext⟩ := ih hscan
    exact ⟨c :: text, hpasses.cons, .inl (htext.cons hc)⟩
  | case3 seenDigit _ c cs offset _ hc ih =>
    obtain ⟨rfl, hseen, hlast⟩ := hc
    obtain ⟨text, hpasses, hdigits | ⟨-, hlast', -⟩⟩ := ih hscan
    · exact ⟨'_' :: text, hpasses.cons,
        .inr ⟨hseen, by simpa using hlast, .inr ⟨text, rfl, hdigits⟩⟩⟩
    · cases hlast'
  | case4 _ _ c cs offset => exact ⟨[], .refl _, hends hscan⟩

/-- A text that no digits go on with. -/
def EndsDigits (isDigit : Char → Bool) (following : List Char) : Prop :=
  ∀ c cs, following = c :: cs → isDigit c = false ∧ c ≠ '_'

/-- No digits go on at the end of the text. -/
theorem EndsDigits.nil : EndsDigits isDigit [] :=
  nofun

/-- No digits go on with a character that is neither a digit nor an underscore. -/
theorem EndsDigits.cons {c : Char} {cs : List Char} (hc : isDigit c = false) (hne : c ≠ '_') :
    EndsDigits isDigit (c :: cs) := by
  rintro _ _ ⟨⟩
  exact ⟨hc, hne⟩

/-- Digits are passed up to their end. -/
theorem scanDigitsFrom_digits {set : Text.CharSet} (hdigits : Digits set.contains text)
    (hends : EndsDigits set.contains following) (seenDigit lastSeparator : Bool) (offset : Nat) :
    scanDigitsFrom set seenDigit lastSeparator (text ++ following) offset =
      (true, ⟨following, offset + Text.byteLength text⟩) := by
  have hunderscore : ('_' : Char).utf8Size = 1 := rfl
  induction hdigits generalizing seenDigit lastSeparator offset with
  | single hc =>
    cases following with
    | nil => simp [scanDigitsFrom, hc]
    | cons d ds =>
      obtain ⟨hd, hne⟩ := hends d ds rfl
      simp [scanDigitsFrom, hc, hd, hne]
  | cons hc _ ih => simp [scanDigitsFrom, hc, ih, Nat.add_assoc]
  | separated hc _ ih =>
    simp [scanDigitsFrom, hc, ih, hunderscore, Nat.add_assoc]

private theorem scanDigits_sound {set : Text.CharSet} {cursor stop : Cursor}
    (hscan : scanDigits set cursor = .ok stop) :
    ∃ text, cursor.Passes text stop ∧ Digits set.contains text := by
  unfold scanDigits at hscan
  dsimp only at hscan
  split at hscan
  · rename_i hwell
    cases hscan
    obtain ⟨text, hpasses, hdigits | ⟨hseen, -⟩⟩ := scanDigitsFrom_sound hwell
    · exact ⟨text, hpasses, hdigits⟩
    · cases hseen
  · cases hscan

private theorem scanDigits_digits {set : Text.CharSet} (hdigits : Digits set.contains text)
    (hends : EndsDigits set.contains following) (offset : Nat) :
    scanDigits set ⟨text ++ following, offset⟩ =
      .ok ⟨following, offset + Text.byteLength text⟩ := by
  rw [scanDigits, scanDigitsFrom_digits hdigits hends]
  rfl

/-! ## Radix numbers -/

/-- The set of the digits of a radix. -/
def Radix.digitSet : Radix → Text.CharSet
  | .hexadecimal => Text.hexDigits
  | .octal => Text.octalDigits
  | .binary => Text.binaryDigits

private theorem Radix.contains_digitSet (radix : Radix) :
    radix.digitSet.contains = radix.isDigit := by
  funext c
  rw [Bool.eq_iff_iff]
  cases radix with
  | hexadecimal =>
    simp [digitSet, isDigit, Text.hexDigits, Text.CharSet.contains, Text.CharSet.insertRange,
      Text.CharSet.empty, Text.inRanges, Char.isDigit, Char.le_def, UInt32.le_iff_toNat_le]
    tauto
  | octal =>
    simp [digitSet, isDigit, Text.octalDigits, Text.CharSet.contains, Text.CharSet.insertRange,
      Text.CharSet.empty, Text.inRanges, Char.le_def, UInt32.le_iff_toNat_le]
  | binary =>
    simp [digitSet, isDigit, Text.binaryDigits, Text.CharSet.contains, Text.CharSet.insertRange,
      Text.CharSet.empty, Text.inRanges, Char.le_def, UInt32.le_iff_toNat_le]

private theorem Radix.radixDigits?_eq_some_iff {set : Text.CharSet} {cs : List Char} :
    radixDigits? cs = some set ↔
      ∃ (radix : Radix) (letter : Char) (others : List Char), cs = '0' :: letter :: others ∧
        letter ∈ radix.letters ∧ set = radix.digitSet := by
  constructor
  · intro hradix
    unfold radixDigits? at hradix
    split at hradix
    · rename_i letter others
      split_ifs at hradix with hhex hoctal hbinary <;> cases hradix
      · exact ⟨.hexadecimal, letter, others, rfl, by simpa [letters] using hhex, rfl⟩
      · exact ⟨.octal, letter, others, rfl, by simpa [letters] using hoctal, rfl⟩
      · exact ⟨.binary, letter, others, rfl, by simpa [letters] using hbinary, rfl⟩
    · cases hradix
  · rintro ⟨radix, letter, others, rfl, hletter, rfl⟩
    cases radix <;> simp only [letters, List.mem_cons, List.not_mem_nil, or_false] at hletter <;>
      rcases hletter with rfl | rfl <;> rfl

/-- Behind a radix letter digits are passed, and at most one underscore in front of them. -/
theorem scanRadixDigits_sound {set : Text.CharSet} {cursor stop : Cursor}
    (hscan : scanRadixDigits set cursor = .ok stop) :
    ∃ text, cursor.Passes text stop ∧
      (Digits set.contains text ∨
        ∃ digits, text = '_' :: digits ∧ Digits set.contains digits) := by
  obtain ⟨rest, offset⟩ := cursor
  rw [scanRadixDigits_eq] at hscan
  split at hscan
  · rename_i hunderscore
    obtain ⟨cs, rfl⟩ := List.head?_eq_some_iff.mp hunderscore
    dsimp only at hscan
    split at hscan
    · rename_i hwell
      cases hscan
      obtain ⟨text, hpasses, hdigits | ⟨hseen, -⟩⟩ := scanDigitsFrom_sound hwell
      · exact ⟨'_' :: text, hpasses.cons, .inr ⟨text, rfl, hdigits⟩⟩
      · cases hseen
    · cases hscan
  · obtain ⟨text, hpasses, hdigits⟩ := scanDigits_sound hscan
    exact ⟨text, hpasses, .inl hdigits⟩

private theorem scanRadixNumber_sound {set : Text.CharSet} {cursor stop : Cursor}
    (hradix : radixDigits? cursor.rest = some set)
    (hscan : scanRadixNumber set cursor = .ok stop) :
    ∃ text, cursor.Passes text stop ∧ IsNumber text := by
  obtain ⟨radix, letter, others, hrest, hletter, rfl⟩ := Radix.radixDigits?_eq_some_iff.mp hradix
  obtain ⟨rest, offset⟩ := cursor
  obtain rfl : rest = '0' :: letter :: others := hrest
  obtain ⟨behind, hdigits, hscan⟩ := bind_eq_ok_iff.mp hscan
  split at hscan
  · cases hscan
  · cases hscan
    obtain ⟨text, hpasses, hdigits⟩ := scanRadixDigits_sound hdigits
    refine ⟨'0' :: letter :: text, hpasses.cons.cons, ?_⟩
    rw [radix.contains_digitSet] at hdigits
    rcases hdigits with hdigits | ⟨digits, rfl, hdigits⟩
    · exact .radix hletter hdigits
    · exact .separatedRadix hletter hdigits

private theorem scanRadixDigits_digits {set : Text.CharSet} {digits : List Char}
    (hdigits : Digits set.contains digits) (htext : text = digits ∨ text = '_' :: digits)
    (hunderscore : set.contains '_' = false) (offset : Nat) :
    scanRadixDigits set ⟨text, offset⟩ = .ok ⟨[], offset + Text.byteLength text⟩ := by
  have hscan := scanDigitsFrom_digits hdigits .nil false
  simp only [List.append_nil] at hscan
  rw [scanRadixDigits_eq]
  rcases htext with rfl | rfl
  · obtain ⟨c, cs, rfl, hc⟩ := hdigits.exists_cons
    have hne : c ≠ '_' := by
      rintro rfl
      rw [hunderscore] at hc
      cases hc
    simp [scanDigits, hscan, hne]
  · have hsize : ('_' : Char).utf8Size = 1 := rfl
    simp [hscan, hsize, Nat.add_assoc]

private theorem scanNumber_radix {radix : Radix} {letter : Char} {digits : List Char}
    (hletter : letter ∈ radix.letters) (hdigits : Digits radix.isDigit digits)
    (htext : text = digits ∨ text = '_' :: digits) (offset : Nat) :
    scanNumber ⟨'0' :: letter :: text, offset⟩ =
      .ok ⟨[], offset + Text.byteLength ('0' :: letter :: text)⟩ := by
  have hradix : radixDigits? ('0' :: letter :: text) = some radix.digitSet :=
    Radix.radixDigits?_eq_some_iff.mpr ⟨radix, letter, text, rfl, hletter, rfl⟩
  have hunderscore : radix.digitSet.contains '_' = false := by
    cases radix <;> rfl
  rw [← radix.contains_digitSet] at hdigits
  have hscan := scanRadixDigits_digits hdigits htext hunderscore
  simp [scanNumber, hradix, scanRadixNumber, Cursor.advanceBy, Cursor.advance, hscan,
    Cursor.peek?, bind, Except.bind, Nat.add_assoc]

/-! ## Decimal numbers -/

/-- The digits of a decimal number in front of its point, and the point with the digits
behind it. -/
inductive Mantissa : List Char → List Char → Prop where
  | integer {integer : List Char} (hinteger : Digits Char.isDigit integer) : Mantissa integer []
  | point {integer : List Char} (hinteger : Digits Char.isDigit integer) : Mantissa integer ['.']
  | fraction {integer fraction : List Char} (hinteger : integer = [] ∨ Digits Char.isDigit integer)
      (hfraction : Digits Char.isDigit fraction) : Mantissa integer ('.' :: fraction)

private theorem Mantissa.digits_or_pointFloat {integer fraction : List Char}
    (hmantissa : Mantissa integer fraction) :
    Digits Char.isDigit (integer ++ fraction) ∨ PointFloat (integer ++ fraction) := by
  cases hmantissa with
  | integer hinteger => exact .inl (by rwa [List.append_nil])
  | point hinteger => exact .inr (.integer hinteger)
  | fraction hinteger hfraction => exact .inr (.fraction hinteger hfraction)

private theorem PointFloat.exists_mantissa (hpoint : PointFloat text) :
    ∃ integer digits, text = integer ++ '.' :: digits ∧ Mantissa integer ('.' :: digits) := by
  cases hpoint with
  | fraction hinteger hfraction => exact ⟨_, _, rfl, .fraction hinteger hfraction⟩
  | integer hinteger => exact ⟨_, _, rfl, .point hinteger⟩

/-- The parts of a decimal number: its mantissa, its exponent and its imaginary unit. Digits with
nothing behind them have no leading zero. -/
structure DecimalParts (integer fraction exponent unit : List Char) : Prop where
  isMantissa : Mantissa integer fraction
  isExponent : exponent = [] ∨ Exponent exponent
  isUnit : unit = [] ∨ unit = ['j'] ∨ unit = ['J']
  plain : fraction = [] → exponent = [] → unit = [] → hasLeadingZero integer = false

variable {integer fraction exponent unit : List Char}

/-- What decimal parts make up is a number. -/
theorem DecimalParts.isNumber (hparts : DecimalParts integer fraction exponent unit) :
    IsNumber (integer ++ (fraction ++ (exponent ++ unit))) := by
  obtain ⟨hmantissa, hexponent, hunit, hplain⟩ := hparts
  have hfront := hmantissa.digits_or_pointFloat
  have hnumber : Digits Char.isDigit (integer ++ fraction ++ exponent) ∨
      FloatNumber (integer ++ fraction ++ exponent) := by
    rcases hexponent with rfl | hexponent
    · rw [List.append_nil]
      exact hfront.imp_right .point
    · exact .inr (.exponent hfront hexponent)
  rw [← List.append_assoc fraction, ← List.append_assoc, ← List.append_assoc]
  rcases hunit with rfl | rfl | rfl
  · rw [List.append_nil]
    rcases hexponent with rfl | hexponent
    · rw [List.append_nil]
      cases hmantissa with
      | integer hinteger =>
        rw [List.append_nil]
        exact .decimal (hinteger.hasLeadingZero_eq_false_iff.mp (hplain rfl rfl rfl))
      | point hinteger => exact .float (.point (.integer hinteger))
      | fraction hinteger hfraction => exact .float (.point (.fraction hinteger hfraction))
    · exact .float (.exponent hfront hexponent)
  · exact .imaginary hnumber (.inl rfl)
  · exact .imaginary hnumber (.inr rfl)

/-- A float, with or without an imaginary unit, has decimal parts. -/
theorem FloatNumber.exists_parts (hfloat : FloatNumber text)
    (hunit : unit = [] ∨ unit = ['j'] ∨ unit = ['J']) :
    ∃ integer fraction exponent, text ++ unit = integer ++ (fraction ++ (exponent ++ unit)) ∧
      DecimalParts integer fraction exponent unit := by
  cases hfloat with
  | point hpoint =>
    obtain ⟨integer, digits, rfl, hmantissa⟩ := hpoint.exists_mantissa
    exact ⟨integer, '.' :: digits, [], by simp, hmantissa, .inl rfl, hunit, nofun⟩
  | @exponent mantissa exponent hmantissa hexponent =>
    have hsome : exponent ≠ [] := by
      cases hexponent
      exact List.cons_ne_nil _ _
    rcases hmantissa with hdigits | hpoint
    · exact ⟨mantissa, [], exponent, by simp, .integer hdigits, .inr hexponent, hunit,
        fun _ hnone => absurd hnone hsome⟩
    · obtain ⟨integer, digits, rfl, hmantissa⟩ := hpoint.exists_mantissa
      exact ⟨integer, '.' :: digits, exponent, by simp, hmantissa, .inr hexponent, hunit, nofun⟩

/-- A number is written in a radix or has decimal parts. -/
theorem IsNumber.cases_parts (hnumber : IsNumber text) :
    (∃ (radix : Radix) (letter : Char) (others digits : List Char),
        text = '0' :: letter :: others ∧ letter ∈ radix.letters ∧
        (others = digits ∨ others = '_' :: digits) ∧ Digits radix.isDigit digits) ∨
      ∃ integer fraction exponent unit, text = integer ++ (fraction ++ (exponent ++ unit)) ∧
        DecimalParts integer fraction exponent unit := by
  cases hnumber with
  | radix hletter hdigits => exact .inl ⟨_, _, _, _, rfl, hletter, .inl rfl, hdigits⟩
  | separatedRadix hletter hdigits => exact .inl ⟨_, _, _, _, rfl, hletter, .inr rfl, hdigits⟩
  | decimal hinteger =>
    have hdigits := hinteger.digits
    exact .inr ⟨text, [], [], [], by simp, .integer hdigits, .inl rfl, .inl rfl,
      fun _ _ _ => hdigits.hasLeadingZero_eq_false_iff.mpr hinteger⟩
  | float hfloat =>
    obtain ⟨integer, fraction, exponent, htext, hparts⟩ := hfloat.exists_parts (.inl rfl)
    rw [List.append_nil] at htext
    exact .inr ⟨integer, fraction, exponent, [], htext, hparts⟩
  | @imaginary text unit htext hunit =>
    have hunit : [unit] = [] ∨ [unit] = ['j'] ∨ [unit] = ['J'] := by simpa using hunit
    rcases htext with hdigits | hfloat
    · exact .inr ⟨text, [], [], [unit], by simp, .integer hdigits, .inl rfl, hunit, nofun⟩
    · obtain ⟨integer, fraction, exponent, htext, hparts⟩ := hfloat.exists_parts hunit
      exact .inr ⟨integer, fraction, exponent, [unit], htext, hparts⟩

/-! ### Their scan -/

private theorem decimalDigits_contains_eq : Text.decimalDigits.contains = Char.isDigit :=
  funext fun _ => Text.decimalDigits_contains

/-- Digits that may be left out are left out only where there is no digit. -/
theorem scanOptionalDigits_sound {cursor stop : Cursor}
    (hscan : scanOptionalDigits cursor = .ok stop) :
    ∃ text, cursor.Passes text stop ∧
      (Digits Char.isDigit text ∨ text = [] ∧ cursor.peek?.any Char.isDigit = false) := by
  unfold scanOptionalDigits at hscan
  rw [decimalDigits_contains_eq] at hscan
  split at hscan
  · obtain ⟨text, hpasses, hdigits⟩ := scanDigits_sound hscan
    exact ⟨text, hpasses, .inl (decimalDigits_contains_eq ▸ hdigits)⟩
  · rename_i hnone
    cases hscan
    exact ⟨[], .refl _, .inr ⟨rfl, by simpa using hnone⟩⟩

/-- Where a character is looked at, it is the one passed next. -/
theorem passes_advance_of_peek {cursor : Cursor} {c : Char} (hpeek : cursor.peek? = some c) :
    cursor.Passes [c] cursor.advance := by
  obtain ⟨rest, offset⟩ := cursor
  obtain ⟨cs, rfl⟩ := List.head?_eq_some_iff.mp hpeek
  exact Cursor.passes_advance _

private theorem scanOptionalDigits_digits (htext : text = [] ∨ Digits Char.isDigit text)
    (hends : EndsDigits Char.isDigit following) (offset : Nat) :
    scanOptionalDigits ⟨text ++ following, offset⟩ =
      .ok ⟨following, offset + Text.byteLength text⟩ := by
  rw [scanOptionalDigits, decimalDigits_contains_eq]
  rcases htext with rfl | hdigits
  · have hnone : (following.head?.any Char.isDigit) = false := by
      cases following with
      | nil => rfl
      | cons c cs => exact (hends c cs rfl).1
    simp [Cursor.peek?, hnone]
  · obtain ⟨c, cs, rfl, hc⟩ := hdigits.exists_cons
    rw [← decimalDigits_contains_eq] at hdigits hends
    rw [if_pos (by simpa [Cursor.peek?] using hc), scanDigits_digits hdigits hends]

/-- What is scanned as an exponent is one. -/
private theorem scanExponent_sound {cursor stop : Cursor} (hstarts : startsExponent cursor.rest)
    (hscan : scanExponent cursor = .ok stop) :
    ∃ text, cursor.Passes text stop ∧ Exponent text := by
  obtain ⟨rest, offset⟩ := cursor
  unfold startsExponent at hstarts
  split at hstarts
  · rename_i letter c cs hrest
    obtain rfl : rest = letter :: c :: cs := hrest
    simp only [Bool.and_eq_true, Bool.or_eq_true, decide_eq_true_eq] at hstarts
    obtain ⟨hletter, -⟩ := hstarts
    simp only [scanExponent, Cursor.advance, Cursor.peek?, List.head?_cons, Option.some.injEq]
      at hscan
    split at hscan
    · rename_i hsign
      obtain ⟨digits, hpasses, hdigits⟩ := scanDigits_sound hscan
      rw [decimalDigits_contains_eq] at hdigits
      refine ⟨letter :: ([c] ++ digits), hpasses.cons.cons, .intro hletter ?_ hdigits⟩
      exact .inr (by simpa using hsign)
    · obtain ⟨digits, hpasses, hdigits⟩ := scanDigits_sound hscan
      rw [decimalDigits_contains_eq] at hdigits
      exact ⟨letter :: ([] ++ digits), hpasses.cons, .intro hletter (.inl rfl) hdigits⟩
  · cases hstarts

private theorem Exponent.scan_eq (hexponent : Exponent text)
    (hends : EndsDigits Char.isDigit following) (offset : Nat) :
    startsExponent (text ++ following) ∧
      scanExponent ⟨text ++ following, offset⟩ =
        .ok ⟨following, offset + Text.byteLength text⟩ := by
  obtain ⟨hletter, hsign, hdigits⟩ := hexponent
  rename_i letter sign digits
  obtain ⟨c, cs, rfl, hc⟩ := hdigits.exists_cons
  have hplain : c ≠ '+' ∧ c ≠ '-' := by
    constructor <;> rintro rfl <;> cases hc
  rw [← decimalDigits_contains_eq] at hdigits hends
  have hscan := scanDigits_digits hdigits hends
  rw [List.cons_append] at hscan
  constructor
  · rcases hsign with rfl | rfl | rfl <;> simp [startsExponent, hletter, hc]
  · rcases hsign with rfl | rfl | rfl <;>
      simp [scanExponent, Cursor.advance, Cursor.peek?, hplain, hscan, Nat.add_assoc]

/-- The digits in front of a point and the point with those behind it are passed as a mantissa, if
there is a digit where the number starts or directly behind its point. -/
theorem scanMantissa_sound {cursor integer stop : Cursor} {c : Char}
    (hpeek : cursor.peek? = some c)
    (hstart : c.isDigit ∨ c = '.' ∧ cursor.advance.peek?.any Char.isDigit)
    (hinteger : scanOptionalDigits cursor = .ok integer)
    (hfraction : (if integer.peek? = some '.' then scanOptionalDigits integer.advance
      else .ok integer) = .ok stop) :
    ∃ text behind, cursor.Passes text integer ∧ integer.Passes behind stop ∧
      Mantissa text behind ∧ (behind = [] → integer.peek? ≠ some '.') := by
  obtain ⟨text, hpasses, htext⟩ := scanOptionalDigits_sound hinteger
  have hdigits : text = [] ∨ Digits Char.isDigit text := htext.symm.imp_left And.left
  have hmissing : text = [] → cursor = integer ∧ c = '.' ∧
      cursor.advance.peek?.any Char.isDigit := by
    rintro rfl
    have hnone : c.isDigit = false := by
      rcases htext with hdigits | ⟨-, hnone⟩
      · cases hdigits
      · simpa [hpeek] using hnone
    have hsame : integer = cursor := by
      obtain ⟨rest, offset⟩ := cursor
      have hnothing : (⟨[] ++ rest, offset⟩ : Cursor).Passes [] integer := hpasses
      exact hnothing.eq
    exact ⟨hsame.symm, hstart.resolve_left (by simp [hnone])⟩
  split at hfraction
  · rename_i hpoint
    obtain ⟨behind, hbehind, hmore⟩ := scanOptionalDigits_sound hfraction
    refine ⟨text, '.' :: behind, hpasses, (passes_advance_of_peek hpoint).trans hbehind, ?_, nofun⟩
    rcases hmore with hmore | ⟨rfl, hnone⟩
    · exact .fraction hdigits hmore
    · refine .point (hdigits.resolve_left fun hempty => ?_)
      obtain ⟨rfl, -, hdigit⟩ := hmissing hempty
      rw [hnone] at hdigit
      cases hdigit
  · rename_i hpoint
    cases hfraction
    refine ⟨text, [], hpasses, .refl _, .integer (hdigits.resolve_left fun hempty => ?_),
      fun _ => hpoint⟩
    obtain ⟨rfl, rfl, -⟩ := hmissing hempty
    exact hpoint hpeek

/-- What is scanned as a decimal number is one: an integer, or a float with a point, an exponent, or
both. -/
private theorem scanDecimalNumber_sound {cursor stop : Cursor} {c : Char}
    (hpeek : cursor.peek? = some c)
    (hstart : c.isDigit ∨ c = '.' ∧ cursor.advance.peek?.any Char.isDigit)
    (hscan : scanDecimalNumber cursor = .ok stop) :
    ∃ text, cursor.Passes text stop ∧ IsNumber text := by
  obtain ⟨integer, hinteger, hscan⟩ := bind_eq_ok_iff.mp hscan
  obtain ⟨fraction, hfraction, hscan⟩ := ite_bind_eq_ok hscan
  obtain ⟨exponent, hexponent, hscan⟩ := ite_bind_eq_ok hscan
  obtain ⟨text, point, htext, hpoint, hmantissa, hnoPoint⟩ :=
    scanMantissa_sound hpeek hstart hinteger hfraction
  obtain ⟨power, hpower, hisExponent, hnoPower⟩ : ∃ power, fraction.Passes power exponent ∧
      (power = [] ∨ Exponent power) ∧ (power = [] → startsExponent fraction.rest = false) := by
    split at hexponent
    · rename_i hstarts
      obtain ⟨power, hpower, hisExponent⟩ := scanExponent_sound hstarts hexponent
      refine ⟨power, hpower, .inr hisExponent, ?_⟩
      rintro rfl
      cases hisExponent
    · rename_i hstarts
      cases hexponent
      exact ⟨[], .refl _, .inl rfl, fun _ => by simpa using hstarts⟩
  obtain ⟨unit, hunit, hisUnit, hnoUnit⟩ : ∃ unit,
      exponent.Passes unit (if exponent.peek? = some 'j' ∨ exponent.peek? = some 'J'
        then exponent.advance else exponent) ∧
      (unit = [] ∨ unit = ['j'] ∨ unit = ['J']) ∧
      (unit = [] → ¬(exponent.peek? = some 'j' ∨ exponent.peek? = some 'J')) := by
    split
    · rename_i hletter
      rcases hletter with hletter | hletter
      · exact ⟨['j'], passes_advance_of_peek hletter, .inr (.inl rfl), nofun⟩
      · exact ⟨['J'], passes_advance_of_peek hletter, .inr (.inr rfl), nofun⟩
    · rename_i hletter
      exact ⟨[], .refl _, .inl rfl, fun _ => hletter⟩
  have hpasses := htext.trans (hpoint.trans (hpower.trans hunit))
  simp only [htext.textTo_eq] at hscan
  split at hscan
  · cases hscan
  · rename_i hplain
    cases hscan
    refine ⟨_, hpasses, DecimalParts.isNumber ⟨hmantissa, hisExponent, hisUnit, ?_⟩⟩
    intro hnone hnone' hnone''
    simpa [hnoPoint hnone, hnoPower hnone', hnoUnit hnone''] using hplain

/-- The scan of a decimal number succeeds if its steps do, and the check behind them. -/
theorem scanDecimalNumber_eq {cursor integer fraction exponent : Cursor}
    (hinteger : scanOptionalDigits cursor = .ok integer)
    (hfraction : (if integer.peek? = some '.' then scanOptionalDigits integer.advance
      else .ok integer) = .ok fraction)
    (hexponent : (if startsExponent fraction.rest then scanExponent fraction
      else .ok fraction) = .ok exponent)
    (hplain : integer.peek? ≠ some '.' → startsExponent fraction.rest = false →
      ¬(exponent.peek? = some 'j' ∨ exponent.peek? = some 'J') →
      hasLeadingZero (cursor.textTo integer) = false) :
    scanDecimalNumber cursor =
      .ok (if exponent.peek? = some 'j' ∨ exponent.peek? = some 'J' then exponent.advance
        else exponent) := by
  have hcheck : ¬(¬integer.peek? = some '.' ∧ ¬startsExponent fraction.rest ∧
      ¬(exponent.peek? = some 'j' ∨ exponent.peek? = some 'J') ∧
      hasLeadingZero (cursor.textTo integer)) := by
    rintro ⟨hpoint, hpower, hunit, hzero⟩
    rw [hplain hpoint (by simpa using hpower) hunit] at hzero
    cases hzero
  simp only [scanDecimalNumber, hinteger, bind, Except.bind]
  split at hfraction <;> split at hexponent <;>
    simp_all

/-- A mantissa is passed in front of a text that goes on neither with its digits nor with
a point. -/
theorem Mantissa.scan_eq (hmantissa : Mantissa integer fraction)
    (hends : EndsDigits Char.isDigit following) (hpoint : following.head? ≠ some '.')
    (offset : Nat) :
    ∃ behind : Cursor,
      behind = ⟨fraction ++ following, offset + Text.byteLength integer⟩ ∧
      scanOptionalDigits ⟨integer ++ (fraction ++ following), offset⟩ = .ok behind ∧
      (behind.peek? = some '.' ↔ fraction ≠ []) ∧
      (if behind.peek? = some '.' then scanOptionalDigits behind.advance else .ok behind) =
        .ok ⟨following, offset + Text.byteLength (integer ++ fraction)⟩ := by
  refine ⟨_, rfl, ?_⟩
  have hfraction : ∀ {digits : List Char}, digits = [] ∨ Digits Char.isDigit digits →
      scanOptionalDigits ⟨digits ++ following, offset + Text.byteLength integer + 1⟩ =
        .ok ⟨following, offset + Text.byteLength (integer ++ '.' :: digits)⟩ := by
    intro digits hdigits
    rw [scanOptionalDigits_digits hdigits hends, Text.byteLength_append, Text.byteLength_cons,
      Nat.add_assoc, Nat.add_assoc]
    rfl
  have hstops : ∀ {digits : List Char}, EndsDigits Char.isDigit ('.' :: digits) :=
    .cons rfl (by decide)
  cases hmantissa with
  | integer hinteger =>
    refine ⟨scanOptionalDigits_digits (.inr hinteger) hends offset, by simpa [Cursor.peek?], ?_⟩
    rw [List.append_nil]
    exact if_neg hpoint
  | point hinteger =>
    exact ⟨scanOptionalDigits_digits (.inr hinteger) hstops offset, by simp [Cursor.peek?],
      (if_pos rfl).trans (hfraction (.inl rfl))⟩
  | fraction hinteger hdigits =>
    exact ⟨scanOptionalDigits_digits hinteger hstops offset, by simp [Cursor.peek?],
      (if_pos rfl).trans (hfraction (.inr hdigits))⟩

/-- An exponent is passed if there is one. -/
theorem scanExponent_eq (hexponent : exponent = [] ∨ Exponent exponent)
    (hunit : unit = [] ∨ unit = ['j'] ∨ unit = ['J']) (offset : Nat) :
    (exponent ≠ [] → startsExponent (exponent ++ unit)) ∧
      (if startsExponent (exponent ++ unit) then scanExponent ⟨exponent ++ unit, offset⟩
        else .ok ⟨exponent ++ unit, offset⟩) =
        .ok ⟨unit, offset + Text.byteLength exponent⟩ := by
  have hends : EndsDigits Char.isDigit unit := by
    rcases hunit with rfl | rfl | rfl
    · exact .nil
    · exact .cons rfl (by decide)
    · exact .cons rfl (by decide)
  rcases hexponent with rfl | hexponent
  · have hnone : startsExponent unit = false := by
      rcases hunit with rfl | rfl | rfl <;> rfl
    exact ⟨nofun, if_neg (by simpa using hnone)⟩
  · obtain ⟨hstarts, hscan⟩ := hexponent.scan_eq hends offset
    exact ⟨fun _ => hstarts, (if_pos hstarts).trans hscan⟩

/-- Decimal parts are passed up to the end of the text. -/
theorem DecimalParts.scan_eq (hparts : DecimalParts integer fraction exponent unit)
    (offset : Nat) :
    scanDecimalNumber ⟨integer ++ (fraction ++ (exponent ++ unit)), offset⟩ =
      .ok ⟨[], offset + Text.byteLength (integer ++ (fraction ++ (exponent ++ unit)))⟩ := by
  obtain ⟨hmantissa, hexponent, hunit, hplain⟩ := hparts
  have hends : EndsDigits Char.isDigit (exponent ++ unit) ∧
      (exponent ++ unit).head? ≠ some '.' := by
    rcases hexponent with rfl | ⟨rfl | rfl, -, -⟩
    · rcases hunit with rfl | rfl | rfl
      · exact ⟨.nil, nofun⟩
      · exact ⟨.cons rfl (by decide), by decide⟩
      · exact ⟨.cons rfl (by decide), by decide⟩
    · exact ⟨.cons rfl (by decide), by simp⟩
    · exact ⟨.cons rfl (by decide), by simp⟩
  obtain ⟨behind, hbehind, hinteger, hhasPoint, hfraction⟩ :=
    hmantissa.scan_eq hends.1 hends.2 offset
  have hpower := fun offset => scanExponent_eq hexponent hunit offset
  rw [scanDecimalNumber_eq hinteger hfraction (hpower _).2]
  · rcases hunit with rfl | rfl | rfl <;>
      simp [Cursor.peek?, Cursor.advance, Nat.add_assoc]
  · intro hpoint hnoPower hnoUnit
    have htext : (⟨integer ++ (fraction ++ (exponent ++ unit)), offset⟩ : Cursor).textTo behind =
        integer := by
      rw [hbehind]
      exact Cursor.Passes.textTo_eq ⟨rfl, rfl⟩
    rw [htext]
    refine hplain ?_ ?_ ?_
    · by_contra hsome
      exact hpoint (hhasPoint.mpr hsome)
    · by_contra hsome
      rw [(hpower 0).1 hsome] at hnoPower
      cases hnoPower
    · rcases hunit with rfl | rfl | rfl
      · rfl
      · exact absurd (.inl rfl) hnoUnit
      · exact absurd (.inr rfl) hnoUnit

/-- The characters of a decimal number that are no digits. -/
def decimalMarks : List Char :=
  ['_', '.', 'e', 'E', '+', '-', 'j', 'J']

/-- The parts of a decimal number are made of digits and its marks. -/
theorem DecimalParts.forall_mem (hparts : DecimalParts integer fraction exponent unit) :
    ∀ c ∈ integer ++ (fraction ++ (exponent ++ unit)), c.isDigit ∨ c ∈ decimalMarks := by
  have hdigits : ∀ {digits : List Char}, digits = [] ∨ Digits Char.isDigit digits →
      ∀ c ∈ digits, c.isDigit ∨ c ∈ decimalMarks := by
    rintro digits (rfl | hdigits)
    · nofun
    · intro c hc
      refine (hdigits.forall_mem c hc).imp_right ?_
      rintro rfl
      decide
  obtain ⟨hmantissa, hexponent, hunit, -⟩ := hparts
  simp only [List.forall_mem_append]
  refine ⟨?_, ?_, ?_, ?_⟩
  · cases hmantissa with
    | integer hinteger => exact hdigits (.inr hinteger)
    | point hinteger => exact hdigits (.inr hinteger)
    | fraction hinteger _ => exact hdigits hinteger
  · cases hmantissa with
    | integer => nofun
    | point => simp [decimalMarks]
    | fraction _ hfraction =>
      exact List.forall_mem_cons.mpr ⟨by decide, hdigits (.inr hfraction)⟩
  · rcases hexponent with rfl | ⟨hletter, hsign, hpower⟩
    · nofun
    · refine List.forall_mem_cons.mpr ⟨?_, List.forall_mem_append.mpr ⟨?_, hdigits (.inr hpower)⟩⟩
      · rcases hletter with rfl | rfl <;> decide
      · rcases hsign with rfl | rfl | rfl <;> simp [decimalMarks]
  · rcases hunit with rfl | rfl | rfl <;> simp [decimalMarks]

/-- Decimal parts announce no radix. -/
theorem DecimalParts.radixDigits?_eq_none (hparts : DecimalParts integer fraction exponent unit) :
    radixDigits? (integer ++ (fraction ++ (exponent ++ unit))) = none := by
  refine Option.eq_none_iff_forall_ne_some.mpr fun set hradix => ?_
  obtain ⟨radix, letter, others, htext, hletter, -⟩ := Radix.radixDigits?_eq_some_iff.mp hradix
  have hmark : letter.isDigit ∨ letter ∈ decimalMarks :=
    hparts.forall_mem letter (by simp [htext])
  have hother : ∀ letter ∈ radix.letters, ¬(letter.isDigit ∨ letter ∈ decimalMarks) := by
    cases radix <;> simp [Radix.letters, decimalMarks]
  exact hother letter hletter hmark

/-! ## All numbers -/

/-- A number is passed up to the end of the text. -/
theorem IsNumber.scan_eq (hnumber : IsNumber text) (offset : Nat) :
    scanNumber ⟨text, offset⟩ = .ok ⟨[], offset + Text.byteLength text⟩ := by
  rcases hnumber.cases_parts with ⟨radix, letter, others, digits, rfl, hletter, hothers, hdigits⟩ |
    ⟨integer, fraction, exponent, unit, rfl, hparts⟩
  · exact scanNumber_radix hletter hdigits hothers offset
  · rw [scanNumber, hparts.radixDigits?_eq_none]
    exact hparts.scan_eq offset

/-- What the scanner passes where a number starts is a number. -/
theorem scanNumber_sound {cursor stop : Cursor} {c : Char} (hpeek : cursor.peek? = some c)
    (hstart : c.isDigit ∨ c = '.' ∧ cursor.advance.peek?.any Char.isDigit)
    (hscan : scanNumber cursor = .ok stop) :
    ∃ text, cursor.Passes text stop ∧ IsNumber text := by
  unfold scanNumber at hscan
  split at hscan
  · rename_i hradix
    exact scanRadixNumber_sound hradix hscan
  · exact scanDecimalNumber_sound hpeek hstart hscan

/-- A number starts with a digit, or with a point and a digit. -/
theorem IsNumber.exists_start (hnumber : IsNumber text) :
    ∃ c cs, text = c :: cs ∧ (c.isDigit ∨ c = '.' ∧ cs.head?.any Char.isDigit) := by
  have hdigits : ∀ {digits others : List Char}, Digits Char.isDigit digits →
      ∃ c cs, digits ++ others = c :: cs ∧ (c.isDigit ∨ c = '.' ∧ cs.head?.any Char.isDigit) := by
    intro digits others hdigits
    obtain ⟨c, cs, rfl, hc⟩ := hdigits.exists_cons
    exact ⟨c, cs ++ others, rfl, .inl hc⟩
  rcases hnumber.cases_parts with ⟨radix, letter, others, digits, rfl, -⟩ |
    ⟨integer, fraction, exponent, unit, rfl, hmantissa, -⟩
  · exact ⟨'0', _, rfl, .inl rfl⟩
  · cases hmantissa with
    | integer hinteger => exact hdigits hinteger
    | point hinteger => exact hdigits hinteger
    | fraction hinteger hfraction =>
      rcases hinteger with rfl | hinteger
      · obtain ⟨c, cs, rfl, hc⟩ := hfraction.exists_cons
        exact ⟨'.', _, rfl, .inr ⟨rfl, hc⟩⟩
      · exact hdigits hinteger

end Literal

namespace Lexer

/-- A token is a number only where the number scanner has read one. -/
theorem significant_number {c : Char} {start stop : Cursor}
    (hsignificant : significant c start = .ok (.literalNumber, stop)) :
    (c.isDigit ∨ c = '.' ∧ start.advance.peek?.any Char.isDigit) ∧
      scanNumber start = .ok stop := by
  have hstring : ∀ {offset formatted quote},
      string offset formatted quote ≠ .ok (.literalNumber, stop) := by
    intro offset formatted quote hstring
    rw [string_eq] at hstring
    split at hstring <;> cases hstring
  unfold significant at hsignificant
  split at hsignificant
  · unfold word at hsignificant
    dsimp only at hsignificant
    split at hsignificant
    · exact absurd hsignificant hstring
    · obtain ⟨hkind, -⟩ := Prod.mk.inj (Except.ok.inj hsignificant)
      exact absurd hkind (keyword?_getD_ne (by decide) nofun)
  split at hsignificant
  · rename_i hstart
    simp only [Bool.or_eq_true, Bool.and_eq_true, decide_eq_true_eq] at hstart
    unfold number at hsignificant
    split at hsignificant <;> cases hsignificant
    exact ⟨hstart, ‹_›⟩
  split at hsignificant
  · exact absurd hsignificant hstring
  · exact absurd hsignificant (operator_ne_ok (by decide))

/-- No word starts where a number does. -/
theorem isIdentifierStart_eq_false {c : Char} (hc : c.isDigit ∨ c = '.') :
    Text.isIdentifierStart c = false := by
  rcases hc with hdigit | rfl
  · simp only [Char.isDigit, Bool.and_eq_true, decide_eq_true_eq, ge_iff_le,
      UInt32.le_iff_toNat_le] at hdigit
    change 48 ≤ c.toNat ∧ c.toNat ≤ 57 at hdigit
    have hascii : Text.isAscii c = true := decide_eq_true (by omega)
    rw [Text.isIdentifierStart, if_pos hascii]
    simp [Text.asciiIdentifierStart, Text.CharSet.contains, Text.CharSet.insert,
      Text.CharSet.insertRange, Text.CharSet.empty, Text.inRanges]
    omega
  · rfl

/-- A number at a cursor is read as one token up to the end of the text. -/
theorem significant_isNumber {text : List Char} (hnumber : Literal.IsNumber text) (offset : Nat) :
    ∃ c, (⟨text, offset⟩ : Cursor).peek? = some c ∧
      significant c ⟨text, offset⟩ =
        .ok (.literalNumber, ⟨[], offset + Text.byteLength text⟩) := by
  obtain ⟨c, cs, rfl, hstart⟩ := hnumber.exists_start
  have hword := isIdentifierStart_eq_false (hstart.imp_right And.left)
  have hnumberStart : (c.isDigit || c = '.' &&
      (⟨c :: cs, offset⟩ : Cursor).advance.peek?.any Char.isDigit) = true := by
    simpa [Cursor.advance, Cursor.peek?] using hstart
  refine ⟨c, rfl, ?_⟩
  rw [significant, if_neg (by simp [hword]), if_pos hnumberStart, number, hnumber.scan_eq]

/-- **Number literals follow the grammar exactly.** The text of every number token of a source is a
number and the text of its span, and a text that is a number is read, alone, as one number token
that covers it, with the end of the line and of the input behind. -/
theorem run_numbers :
    (∀ (source : String), ∀ step ∈ run source, step.1.kind = .literalNumber →
      Literal.IsNumber step.1.text.toList ∧
      ∃ start : Cursor, start.IsIn source.toList ∧ start.Passes step.1.text.toList step.2.cursor ∧
        step.1.span = ⟨start.offset, step.2.cursor.offset⟩) ∧
    ∀ source : String, Literal.IsNumber source.toList →
      (run source).map Prod.fst =
        [⟨.literalNumber, ⟨0, source.utf8ByteSize⟩, source⟩, .empty .newline source.utf8ByteSize,
          .endOfInput source.utf8ByteSize] := by
  constructor
  · intro source step hstep hkind
    obtain ⟨c, start, hstart, hpeek, htoken, hsignificant⟩ :=
      run_significant hstep (by rw [hkind]; decide)
    rw [hkind] at hsignificant
    obtain ⟨hbegins, hscan⟩ := significant_number hsignificant
    obtain ⟨text, hpasses, hnumber⟩ := Literal.scanNumber_sound hpeek hbegins hscan
    have htext : step.1.text.toList = text := by
      rw [htoken, String.toList_ofList, hpasses.textTo_eq]
    rw [htext]
    exact ⟨hnumber, start, hstart, hpasses, by rw [htoken]⟩
  · intro source hnumber
    obtain ⟨c, hpeek, hsignificant⟩ := significant_isNumber hnumber 0
    rw [Nat.zero_add, ← Text.utf8ByteSize_eq_byteLength] at hsignificant
    exact run_token hpeek hsignificant rfl rfl nofun

/-- Numbers of every production next to each other, and one with all parts of a decimal number. -/
theorem run_numbers_mixed :
    (∃ step ∈ run "0x_fF+0_0if 1.else.5j\n", step.1.text = ".5j" ∧
      Literal.IsNumber step.1.text.toList) ∧
    (run "00_7.2e-1_0J").map Prod.fst =
      [⟨.literalNumber, ⟨0, 12⟩, "00_7.2e-1_0J"⟩, .empty .newline 12, .endOfInput 12] := by
  constructor
  · have hsome : (run "0x_fF+0_0if 1.else.5j\n").any fun step =>
        step.1.kind = .literalNumber && step.1.text == ".5j" := by
      decide +kernel
    obtain ⟨step, hstep, hnumber⟩ := List.any_eq_true.mp hsome
    rw [Bool.and_eq_true, decide_eq_true_eq, beq_iff_eq] at hnumber
    exact ⟨step, hstep, hnumber.2, (run_numbers.1 _ step hstep hnumber.1).1⟩
  · have hinteger : Literal.Digits Char.isDigit ['0', '0', '_', '7'] :=
      .cons rfl (.separated rfl (.single rfl))
    have hexponent : Literal.Exponent ['e', '-', '1', '_', '0'] :=
      .intro (.inl rfl) (.inr (.inr rfl)) (.separated rfl (.single rfl))
    exact run_numbers.2 "00_7.2e-1_0J" (.imaginary
      (.inr (.exponent (.inr (.fraction (.inr hinteger) (.single rfl))) hexponent)) (.inr rfl))

end Lexer

end PythonOutline
