import PythonOutline.Proofs.Literal.Delimiter

/-! # Writing string literals

A character can be written in a string literal as itself, behind a backslash, as a letter that
stands for it, or by its code in octal or hexadecimal digits. Whatever is chosen for each
character of a text, the lexer reads the spellings between quotes as one literal, and its value is
the text. -/

namespace PythonOutline

namespace Literal

/-- A digit that denotes a value, in either case. -/
def IsDigitOf (value : Nat) (d : Char) : Prop :=
  d ∈ [value.digitChar, value.digitChar.toUpper]

instance (value : Nat) (d : Char) : Decidable (IsDigitOf value d) :=
  inferInstanceAs (Decidable (d ∈ _))

/-- The digits of a number, with any leading zeros. -/
inductive Numeral (radix : Nat) : Nat → List Char → Prop where
  | nil : Numeral radix 0 []
  | snoc {value digit : Nat} {digits : List Char} {d : Char} (hvalue : Numeral radix value digits)
      (hdigit : digit < radix) (hd : IsDigitOf digit d) :
      Numeral radix (value * radix + digit) (digits ++ [d])

/-- The letters that stand for a control character behind a backslash. -/
def controlLetters : List (Char × Char) :=
  [('a', '\x07'), ('b', '\x08'), ('f', '\x0c'), ('n', '\n'), ('r', '\r'), ('t', '\t'), ('v', '\x0b')]

/-- The letters that announce a hexadecimal code behind a backslash, with the number of
its digits. -/
def codeLetters : List (Char × Nat) :=
  [('x', 2), ('u', 4), ('U', 8)]

/-- The ways to write a character between single quotes. -/
inductive Spells (quote : Char) : Char → List Char → Prop where
  | plain {c : Char} (hc : c ≠ '\\') (hquote : c ≠ quote) (hfeed : c ≠ '\n') (hreturn : c ≠ '\r') :
      Spells quote c [c]
  | escaped {c : Char} (hc : c = '\\' ∨ isQuote c) : Spells quote c ['\\', c]
  | letter {letter c : Char} (hletter : (letter, c) ∈ controlLetters) : Spells quote c ['\\', letter]
  | octal {c : Char} {digits : List Char} (hlength : digits.length = 3)
      (hcode : Numeral 8 c.toNat digits) : Spells quote c ('\\' :: digits)
  | hexadecimal {letter c : Char} {width : Nat} {digits : List Char}
      (hletter : (letter, width) ∈ codeLetters) (hlength : digits.length = width)
      (hcode : Numeral 16 c.toNat digits) : Spells quote c ('\\' :: letter :: digits)

/-- A literal without prefix that is made of spellings. -/
def ofSpellings (quote : Char) (spellings : List (List Char)) : String :=
  String.ofList (quote :: (spellings.flatten ++ [quote]))

/-- A character behind a backslash and some digits behind that are an escape for a character,
whatever follows. -/
structure Escapes (c e : Char) (digits : List Char) : Prop where
  isHex : ∀ d ∈ digits, Text.hexDigits.contains d
  escape_eq : ∀ following, escape false e (digits ++ following) = ([c], digits.length)

/-! ## Digits -/

variable {value : Nat} {quote c d e : Char} {digits spelling : List Char}

/-- A digit of a value under sixteen is read as that value. -/
theorem IsDigitOf.hexadecimal (hd : IsDigitOf value d) (hvalue : value < 16) :
    hexValue d = value ∧ Text.hexDigits.contains d := by
  have hall : ∀ value < 16, [value.digitChar, value.digitChar.toUpper].all fun d =>
      hexValue d = value ∧ Text.hexDigits.contains d := by
    decide
  exact of_decide_eq_true (List.all_eq_true.mp (hall value hvalue) d hd)

/-- A digit of a value under eight is octal, and no letter of another escape. -/
theorem IsDigitOf.octal (hd : IsDigitOf value d) (hvalue : value < 8) :
    d.toNat - '0'.toNat = value ∧
      Text.octalDigits.contains d ∧ Text.hexDigits.contains d ∧ letterEscape? d = none := by
  have hall : ∀ value < 8, [value.digitChar, value.digitChar.toUpper].all fun d =>
      d.toNat - '0'.toNat = value ∧
        Text.octalDigits.contains d ∧ Text.hexDigits.contains d ∧ letterEscape? d = none := by
    decide
  exact of_decide_eq_true (List.all_eq_true.mp (hall value hvalue) d hd)

/-- Whoever reads every digit as its value reads digits as the number that they denote. -/
theorem Numeral.foldl_eq {radix : Nat} {digitValue : Char → Nat} {isDigit : Char → Prop}
    (hnumeral : Numeral radix value digits)
    (hread : ∀ digit < radix, ∀ d, IsDigitOf digit d → digitValue d = digit ∧ isDigit d) :
    digits.foldl (fun value d => value * radix + digitValue d) 0 = value ∧
      ∀ d ∈ digits, isDigit d := by
  induction hnumeral with
  | nil => exact ⟨rfl, nofun⟩
  | snoc _ hdigit hd ih =>
    obtain ⟨hvalue, hisDigit⟩ := hread _ hdigit _ hd
    refine ⟨by rw [List.foldl_append, ih.1, List.foldl_cons, List.foldl_nil, hvalue], ?_⟩
    simpa [or_imp, forall_and] using ⟨ih.2, hisDigit⟩

/-- A numeral may have more digits behind it. -/
theorem Numeral.append {radix : Nat} {others : List Char} (hnumeral : Numeral radix value digits)
    (values : List Nat)
    (hothers : List.Forall₂ (fun digit d => digit < radix ∧ IsDigitOf digit d) values others) :
    Numeral radix (values.foldl (fun value digit => value * radix + digit) value)
      (digits ++ others) := by
  induction hothers generalizing value digits with
  | nil => rwa [List.append_nil]
  | cons hdigit _ ih =>
    rw [List.append_cons]
    exact ih (.snoc hnumeral hdigit.1 hdigit.2)

private theorem charOfCode_toNat (c : Char) : charOfCode c.toNat = c := by
  have hvalid : c.toNat.isValidChar := c.valid
  rw [charOfCode, if_pos hvalid, Char.ofNat_toNat]

/-! ## Escapes -/

private theorem escapes_of_letterEscape? (hletter : letterEscape? e = some c) : Escapes c e [] := by
  have hfeed : e ≠ '\n' := by
    rintro rfl
    cases hletter
  have hreturn : e ≠ '\r' := by
    rintro rfl
    cases hletter
  exact ⟨nofun, fun following => by simp [escape, hfeed, hreturn, hletter]⟩

/-- Three octal digits spell the character they number. -/
private theorem escapes_octal (hlength : digits.length = 2)
    (hcode : Numeral 8 c.toNat (e :: digits)) :
    Escapes c e digits := by
  obtain ⟨hvalue, hdigits⟩ := hcode.foldl_eq fun digit hdigit d hd => hd.octal hdigit
  obtain ⟨⟨hoctal, -, hletter⟩, hdigits⟩ := List.forall_mem_cons.mp hdigits
  have hfeed : e ≠ '\n' := by
    rintro rfl
    cases hoctal
  have hreturn : e ≠ '\r' := by
    rintro rfl
    cases hoctal
  refine ⟨fun d hd => (hdigits d hd).2.1, fun following => ?_⟩
  have hleading : leadingOctal 2 (digits ++ following) = digits := by
    rw [leadingOctal, ← hlength, List.take_left]
    exact List.takeWhile_eq_self_iff.mpr fun d hd => (hdigits d hd).1
  have hcode : octalValue (e :: digits) = c.toNat := hvalue
  rw [escape, if_neg hfeed, if_neg hreturn, hletter]
  dsimp only
  rw [if_pos hoctal, hleading, hcode, charOfCode_toNat]

/-- A letter with as many hexadecimal digits as it asks for spells the character they number. -/
private theorem escapes_hexadecimal (hletter : (e, digits.length) ∈ codeLetters)
    (hcode : Numeral 16 c.toNat digits) : Escapes c e digits := by
  obtain ⟨hvalue, hdigits⟩ := hcode.foldl_eq fun digit hdigit d hd => hd.hexadecimal hdigit
  refine ⟨hdigits, fun following => ?_⟩
  have hleading : leadingHex? digits.length (digits ++ following) = some c.toNat := by
    rw [leadingHex?, List.take_left, if_pos ⟨rfl, List.all_eq_true.mpr hdigits⟩, hvalue]
  have hknown : ∀ entry ∈ codeLetters, entry.1 ≠ '\n' ∧ entry.1 ≠ '\r' ∧
      letterEscape? entry.1 = none ∧ ¬Text.octalDigits.contains entry.1 ∧
      hexWidth? false entry.1 = some entry.2 := by
    decide
  obtain ⟨hfeed, hreturn, hother, hoctal, hwidth⟩ := hknown _ hletter
  rw [escape, if_neg hfeed, if_neg hreturn, hother]
  dsimp only
  rw [if_neg hoctal, hwidth]
  dsimp only
  rw [hleading]
  dsimp only
  rw [charOfCode_toNat]

/-- A character is written as itself or as an escape. -/
theorem Spells.plain_or_escapes (hspells : Spells quote c spelling) :
    (spelling = [c] ∧ c ≠ '\\' ∧ c ≠ '\n' ∧ c ≠ quote) ∨
      ∃ e digits, spelling = '\\' :: e :: digits ∧ Escapes c e digits := by
  cases hspells with
  | plain hc hquote hfeed => exact .inl ⟨rfl, hc, hfeed, hquote⟩
  | escaped hc =>
    refine .inr ⟨c, [], rfl, escapes_of_letterEscape? ?_⟩
    rcases hc with rfl | hquote
    · rfl
    · rcases isQuote_iff.mp hquote with rfl | rfl <;> rfl
  | letter hletter =>
    have hknown : ∀ entry ∈ controlLetters, letterEscape? entry.1 = some entry.2 := by decide
    exact .inr ⟨_, [], rfl, escapes_of_letterEscape? (hknown _ hletter)⟩
  | @octal _ digits hlength hcode =>
    cases digits with
    | nil => cases hlength
    | cons e digits =>
      exact .inr ⟨e, digits, rfl, escapes_octal (Nat.succ.inj hlength) hcode⟩
  | hexadecimal hletter hlength hcode =>
    exact .inr ⟨_, _, rfl, escapes_hexadecimal (hlength ▸ hletter) hcode⟩

/-! ## Spelled texts -/

private theorem unescapeFrom_append (digits text : List Char) :
    unescapeFrom false digits.length (digits ++ text) = unescapeFrom false 0 text := by
  induction digits with
  | nil => rfl
  | cons d digits ih => exact ih

/-- A spelling is decoded to the character that it is for, whatever follows. -/
theorem Spells.unescapeFrom_eq (hspells : Spells quote c spelling) (following : List Char) :
    unescapeFrom false 0 (spelling ++ following) = c :: unescapeFrom false 0 following := by
  rcases hspells.plain_or_escapes with ⟨rfl, hc, -, -⟩ | ⟨e, digits, rfl, hescapes⟩
  · exact unescapeFrom_plain _ hc
  · rw [List.cons_append, List.cons_append, unescapeFrom_escape, hescapes.escape_eq]
    dsimp only
    rw [unescapeFrom_append, List.cons_append, List.nil_append]

/-- Single quotes are not closed within a text of other characters on one line. -/
theorem scans_plain {text : List Char} (following : List Char)
    (hplain : ∀ c ∈ text, c ≠ '\\' ∧ c ≠ '\n' ∧ c ≠ quote) :
    StringMode.Scans following [.text quote false false] text [.text quote false false] := by
  induction text with
  | nil => exact .nil
  | cons c text ih =>
    obtain ⟨⟨hc, hfeed, hquote⟩, hplain⟩ := List.forall_mem_cons.mp hplain
    have hstep : (StringMode.text quote false false).step [] c ([] ++ (text ++ following)) =
        some (([] : List Char).length, [.text quote false false]) := by
      simp [StringMode.step, hc, hfeed, hquote]
    exact .step hstep (ih hplain)

/-- A spelling does not close the quotes that it stands between, whatever follows. -/
theorem Spells.scans (hspells : Spells quote c spelling) (hquote : isQuote quote)
    (following : List Char) :
    StringMode.Scans following [.text quote false false] spelling [.text quote false false] := by
  rcases hspells.plain_or_escapes with ⟨rfl, hc⟩ | ⟨e, digits, rfl, hescapes⟩
  · exact scans_plain following (by simpa using hc)
  · have hdigits : ∀ d ∈ digits, d ≠ '\\' ∧ d ≠ '\n' ∧ d ≠ quote := by
      intro d hd
      have hdigit := hescapes.isHex d hd
      refine ⟨?_, ?_, ?_⟩
      · rintro rfl
        cases hdigit
      · rintro rfl
        cases hdigit
      · rintro rfl
        rcases isQuote_iff.mp hquote with rfl | rfl <;> cases hdigit
    have hstep : (StringMode.text quote false false).step [] '\\' ([e] ++ (digits ++ following)) =
        some ([e].length, [.text quote false false]) :=
      rfl
    exact .step hstep (scans_plain following hdigits)

variable {text : List Char} {spellings : List (List Char)}

private theorem unescape_spellings (hspells : List.Forall₂ (Spells quote) text spellings) :
    unescape false spellings.flatten = text := by
  induction hspells with
  | nil => rfl
  | cons hspells _ ih =>
    rw [List.flatten_cons, unescape, hspells.unescapeFrom_eq]
    exact congrArg _ ih

private theorem scans_spellings (hspells : List.Forall₂ (Spells quote) text spellings)
    (hquote : isQuote quote) (following : List Char) :
    StringMode.Scans following [.text quote false false] spellings.flatten
      [.text quote false false] := by
  induction hspells with
  | nil => exact .nil
  | cons hspells _ ih =>
    rw [List.flatten_cons]
    exact (hspells.scans hquote _).append ih

private theorem ne_backslash_of_isQuote (hquote : isQuote quote) : quote ≠ '\\' := by
  rintro rfl
  cases hquote

/-- Spellings do not make three quotes of a single one. -/
theorem encloses_spellings (hspells : List.Forall₂ (Spells quote) text spellings)
    (hquote : isQuote quote) : Encloses quote false false spellings.flatten [] where
  isQuote_quote := hquote
  opens := by
    refine if_neg ?_
    cases hspells with
    | nil => simp [quotes]
    | @cons _ spelling _ _ hspells =>
      have hbackslash := ne_backslash_of_isQuote hquote
      rcases hspells.plain_or_escapes with ⟨rfl, -, -, hc⟩ | ⟨e, digits, rfl, -⟩
      · simp [quotes, hc.symm]
      · simp [quotes, hbackslash]
  scans := scans_spellings hspells hquote _
  closes := by
    have hfeed := (StringMode.ne_of_isQuote hquote).1
    have hbackslash := ne_backslash_of_isQuote hquote
    simp [StringMode.step, quotes, hfeed, hbackslash]

end Literal

/-! ## Tokens -/

/-- A source that is one token with text, and nothing else, is read as it and the end of
its line. -/
theorem Lexer.run_token {source : String} {c : Char} {kind : TokenKind}
    (hpeek : (⟨source.toList, 0⟩ : Cursor).peek? = some c)
    (hsignificant : significant c ⟨source.toList, 0⟩ = .ok (kind, ⟨[], source.utf8ByteSize⟩))
    (hopen : kind.isOpenBracket = false) (hclose : kind.isCloseBracket = false)
    (hkind : kind ≠ .endOfInput) :
    (run source).map Prod.fst =
      [⟨kind, ⟨0, source.utf8ByteSize⟩, source⟩, .empty .newline source.utf8ByteSize,
        .endOfInput source.utf8ByteSize] := by
  have hstart := startsLexeme_of_significant hpeek hsignificant
  obtain ⟨cs, htext⟩ : ∃ cs, source.toList = c :: cs := List.head?_eq_some_iff.mp hpeek
  have htrivia : skipTrivia false ⟨source.toList, 0⟩ = .ok ⟨source.toList, 0⟩ := by
    rw [htext]
    exact skipTriviaFrom_startsLexeme hstart
  have hbreak : (⟨source.toList, 0⟩ : Cursor).skipLineBreak? = none := by
    simp [htext, Cursor.skipLineBreak?, hstart.ne_lineFeed, hstart.ne_carriageReturn]
  have htextTo : (⟨source.toList, 0⟩ : Cursor).textTo ⟨[], source.utf8ByteSize⟩ = source.toList := by
    refine Cursor.Passes.textTo_eq ⟨by simp, ?_⟩
    rw [Nat.zero_add, Text.utf8ByteSize_eq_byteLength]
  have hreading := ofSource_reading source
  have hofSource : ofSource source =
      ⟨⟨source.toList, 0⟩, source.utf8ByteSize, [], 0, [], true, false, none⟩ := by
    simp [ofSource, Lexer.start, htext, hstart.ne_byteOrderMark]
  have hfirst : (ofSource source).next = (⟨kind, ⟨0, source.utf8ByteSize⟩, source⟩,
      ⟨⟨[], source.utf8ByteSize⟩, source.utf8ByteSize, [], 0, [], false, true, none⟩) := by
    rw [hofSource] at hreading ⊢
    refine hreading.next_of_finds rfl (.token (readIndentation_startsLexeme hstart htext rfl) ?_)
    refine readWithin_of_significant htrivia hpeek hbreak (bind_eq_ok_iff.mpr ⟨_, hsignificant, ?_⟩)
    simp [trackBrackets, hopen, hclose, htextTo]
  have hsecond : next ⟨⟨[], source.utf8ByteSize⟩, source.utf8ByteSize, [], 0, [], false, true, none⟩ =
      (.empty .newline source.utf8ByteSize,
        ⟨⟨[], source.utf8ByteSize⟩, source.utf8ByteSize, [], 0, [], false, false, none⟩) :=
    rfl
  have hthird : next ⟨⟨[], source.utf8ByteSize⟩, source.utf8ByteSize, [], 0, [], false, false, none⟩ =
      (.endOfInput source.utf8ByteSize,
        ⟨⟨[], source.utf8ByteSize⟩, source.utf8ByteSize, [], 0, [], false, false, none⟩) :=
    rfl
  simp [run, runFor, hfirst, hsecond, hthird, hkind, Token.endOfInput, Token.empty]

/-- A literal without prefix is read where quotes enclose a text. -/
theorem Encloses.significant_eq {quote : Char} {triple : Bool} {body after : List Char}
    (hencloses : Encloses quote triple false body after) (offset : Nat) :
    Lexer.significant quote
        ⟨quotes quote triple ++ (body ++ (quotes quote triple ++ after)), offset⟩ =
      .ok (.literalString, ⟨after, offset +
        Text.byteLength (quotes quote triple ++ (body ++ quotes quote triple))⟩) := by
  have hother : Text.isIdentifierStart quote = false ∧ quote.isDigit = false ∧ quote ≠ '.' := by
    rcases isQuote_iff.mp hencloses.isQuote_quote with rfl | rfl <;> decide
  simp [Lexer.significant, hother, hencloses.isQuote_quote, Lexer.string_eq, hencloses.scanString_eq]

/-- **String literals can be written character by character.** Between quotes of either kind the
lexer reads any spellings of the characters of a text as one literal, behind which the line and the
input end, and the value of that literal is the text. -/
theorem Literal.ofSpellings_roundTrip {quote : Char} {text : List Char}
    {spellings : List (List Char)} (hquote : isQuote quote)
    (hspells : List.Forall₂ (Spells quote) text spellings) :
    (Lexer.run (ofSpellings quote spellings)).map Prod.fst =
        [⟨.literalString, ⟨0, (ofSpellings quote spellings).utf8ByteSize⟩, ofSpellings quote spellings⟩,
          .empty .newline (ofSpellings quote spellings).utf8ByteSize,
          .endOfInput (ofSpellings quote spellings).utf8ByteSize] ∧
      decode (ofSpellings quote spellings).toList = ⟨String.ofList text, false, false⟩ := by
  have hencloses := encloses_spellings hspells hquote
  have htext : (ofSpellings quote spellings).toList =
      quotes quote false ++ (spellings.flatten ++ quotes quote false) :=
    String.toList_ofList
  constructor
  · have hsignificant := hencloses.significant_eq 0
    rw [List.append_nil, ← htext, ← Text.utf8ByteSize_eq_byteLength, Nat.zero_add] at hsignificant
    refine Lexer.run_token ?_ hsignificant rfl rfl nofun
    rw [htext]
    rfl
  · rw [htext, decode_written hencloses.written]
    dsimp only
    rw [← unescape_spellings hspells]
    rfl

/-- All kinds of spellings in one literal, with a digit behind the longest escape. -/
theorem Literal.ofSpellings_roundTrip_mixed :
    (Lexer.run "\"é\\\"\\n\\101\\xfF\\u20Ac\\U0001f6007\"").map (fun step => step.1.kind) =
        [.literalString, .newline, .endOfInput] ∧
      decode "\"é\\\"\\n\\101\\xfF\\u20Ac\\U0001f6007\"".toList =
        ⟨"é\"\nAÿ€😀7", false, false⟩ := by
  have hspells : List.Forall₂ (Spells '"') ['é', '"', '\n', 'A', 'ÿ', '€', '😀', '7']
      [['é'], ['\\', '"'], ['\\', 'n'], ['\\', '1', '0', '1'], ['\\', 'x', 'f', 'F'],
        ['\\', 'u', '2', '0', 'A', 'c'],
        ['\\', 'U', '0', '0', '0', '1', 'f', '6', '0', '0'], ['7']] := by
    refine .cons ?_ (.cons ?_ (.cons ?_ (.cons ?_ (.cons ?_ (.cons ?_ (.cons ?_ (.cons ?_ .nil)))))))
    · exact .plain (by decide) (by decide) (by decide) (by decide)
    · exact .escaped (.inr rfl)
    · exact .letter (by decide)
    · exact .octal rfl (Numeral.nil.append [1, 0, 1] (by decide))
    · exact .hexadecimal (by decide) rfl (Numeral.nil.append [15, 15] (by decide))
    · exact .hexadecimal (by decide) rfl (Numeral.nil.append [2, 0, 10, 12] (by decide))
    · exact .hexadecimal (by decide) rfl
        (Numeral.nil.append [0, 0, 0, 1, 15, 6, 0, 0] (by decide))
    · exact .plain (by decide) (by decide) (by decide) (by decide)
  obtain ⟨hrun, hdecode⟩ := ofSpellings_roundTrip rfl hspells
  refine ⟨?_, hdecode⟩
  have hkinds := congrArg (List.map Token.kind) hrun
  rwa [List.map_map] at hkinds

end PythonOutline
