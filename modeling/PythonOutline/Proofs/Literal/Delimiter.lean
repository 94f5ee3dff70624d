import PythonOutline.Proofs.Lexer.Sequence
import PythonOutline.Proofs.Literal.LineBreak

/-! # Where string literals begin and end

The lexer ends a string literal by following its modes, in which other literals may use the same
quotes. The decoder finds prefix and quotes again by the first quote and the number of bytes. Both
see the same prefix, the same quotes on both sides and the same text between them, and what the
prefix says about that text is the value. -/

namespace PythonOutline

variable {skip : Nat} {modes modes' : List StringMode} {following text : List Char}

/-! ## Scanned text -/

/-- Scanning a text leads from some modes to others, where another text follows. -/
inductive StringMode.Scans (following : List Char) :
    List StringMode → List Char → List StringMode → Prop where
  | nil {modes : List StringMode} : Scans following modes [] modes
  /-- A character and those that it takes along are passed. -/
  | step {mode : StringMode} {outer modes modes' : List StringMode} {c : Char}
      {taken text : List Char}
      (hstep : mode.step outer c (taken ++ (text ++ following)) = some (taken.length, modes))
      (htext : Scans following modes text modes') :
      Scans following (mode :: outer) (c :: (taken ++ text)) modes'

namespace StringMode.Scans

/-- The scanner passes a scanned text. -/
theorem scanStringFrom_eq (hscans : Scans following modes text modes') (offset : Nat) :
    scanStringFrom 0 modes (text ++ following) offset =
      scanStringFrom 0 modes' following (offset + Text.byteLength text) := by
  induction hscans generalizing offset with
  | nil => rfl
  | step hstep _ ih =>
    rw [List.cons_append, List.append_assoc, scanStringFrom, hstep]
    dsimp only
    rw [scanStringFrom_append, ih, Text.byteLength_cons, Text.byteLength_append, Nat.add_assoc,
      Nat.add_assoc]

/-- A text may be scanned in two parts. -/
theorem append {middle : List StringMode} {others : List Char}
    (hscans : Scans (others ++ following) modes text middle)
    (hothers : Scans following middle others modes') :
    Scans following modes (text ++ others) modes' := by
  induction hscans with
  | nil => exact hothers
  | step hstep _ ih =>
    rw [List.cons_append, List.append_assoc]
    exact .step (by rwa [List.append_assoc]) (ih hothers)

/-- A character that takes no others along is passed. -/
theorem cons {mode : StringMode} {outer : List StringMode} {c : Char}
    (hstep : mode.step outer c (text ++ following) = some (0, modes))
    (htext : Scans following modes text modes') : Scans following (mode :: outer) (c :: text) modes' :=
  have hstep : mode.step outer c ([] ++ (text ++ following)) =
      some (([] : List Char).length, modes) :=
    hstep
  .step hstep htext

/-- The last character, and those that it takes along. -/
theorem single {mode : StringMode} {outer : List StringMode} {c : Char} {taken : List Char}
    (hstep : mode.step outer c (taken ++ following) = some (taken.length, modes)) :
    Scans following (mode :: outer) (c :: taken) modes := by
  have hscans : Scans following (mode :: outer) (c :: (taken ++ [])) modes := .step hstep .nil
  rwa [List.append_nil] at hscans

end StringMode.Scans

/-- A literal that is closed is scanned up to the closing quotes, in front of which it is in the
mode of its own text. -/
theorem scans_of_closed {quote : Char} {triple formatted : Bool} {offset : Nat} {stop : Cursor}
    (hlast : modes.getLast? = some (.text quote triple formatted))
    (hscan : scanStringFrom skip modes text offset = .closed stop) :
    ∃ taken body, taken.length = skip ∧
      text = taken ++ (body ++ (quotes quote triple ++ stop.rest)) ∧
      StringMode.Scans (quotes quote triple ++ stop.rest) modes body
        [.text quote triple formatted] ∧
      (StringMode.text quote triple formatted).step [] quote
        ((quotes quote triple).tail ++ stop.rest) = some ((quotes quote triple).tail.length, []) := by
  fun_induction scanStringFrom skip modes text offset with
  | case1 => cases hlast
  | case2 => cases hscan
  | case3 skip modes c cs offset ih =>
    obtain ⟨taken, body, rfl, rfl, hscans⟩ := ih hlast hscan
    exact ⟨c :: taken, body, rfl, rfl, hscans⟩
  | case4 => cases hscan
  | case5 mode outer c cs offset skip modes hstep ih =>
    rcases StringMode.step_text hlast hstep with hopen | ⟨rfl, closing, after, hquotes, rfl, rfl⟩
    · obtain ⟨taken, body, rfl, rfl, hscans, hcloses⟩ := ih hopen hscan
      refine ⟨[], c :: (taken ++ body), rfl, by simp, .step (by simpa using hstep) hscans, hcloses⟩
    · obtain rfl : outer = [] := List.suffix_nil.mp (StringMode.step_suffix hstep)
      obtain rfl : mode = .text quote triple formatted := by simpa using hlast
      obtain ⟨others, hquote⟩ := quotes_eq_cons quote triple
      obtain ⟨rfl, rfl⟩ := List.cons.inj (hquotes.symm.trans hquote)
      rw [scanStringFrom_nil hscan, hquotes]
      exact ⟨[], [], rfl, rfl, .nil, hstep⟩

/-- Quotes enclose a text, in front of another one: they open a literal, the text is scanned from
the mode of the quotes to the same mode again, and there the quotes close the literal. -/
structure Encloses (quote : Char) (triple formatted : Bool) (body after : List Char) : Prop where
  isQuote_quote : isQuote quote
  opens : StringMode.openText quote formatted
    ((quotes quote triple).tail ++ (body ++ (quotes quote triple ++ after))) =
      (.text quote triple formatted, (quotes quote triple).tail.length)
  scans : StringMode.Scans (quotes quote triple ++ after) [.text quote triple formatted] body
    [.text quote triple formatted]
  closes : (StringMode.text quote triple formatted).step [] quote
    ((quotes quote triple).tail ++ after) = some ((quotes quote triple).tail.length, [])

/-- A literal that is closed has a text that its quotes enclose. -/
theorem scanString_encloses {formatted : Bool} {cursor stop : Cursor}
    (hquote : cursor.peek?.any isQuote) (hscan : scanString formatted cursor = .closed stop) :
    ∃ quote triple body, Encloses quote triple formatted body stop.rest ∧
      cursor.rest = quotes quote triple ++ (body ++ (quotes quote triple ++ stop.rest)) := by
  obtain ⟨rest, offset⟩ := cursor
  cases rest with
  | nil => cases hquote
  | cons quote cs =>
    simp only [scanString] at hscan
    by_cases hstarts : [quote, quote].isPrefixOf cs
    · have hopens : StringMode.openText quote formatted cs = (.text quote true formatted, 2) :=
        if_pos hstarts
      obtain ⟨cs, rfl⟩ := List.isPrefixOf_iff_prefix.mp hstarts
      rw [hopens] at hscan
      have hscan : scanStringFrom 0 [.text quote true formatted] cs _ = .closed stop := hscan
      obtain ⟨taken, body, hlength, rfl, hscans, hcloses⟩ := scans_of_closed rfl hscan
      obtain rfl := List.length_eq_zero_iff.mp hlength
      exact ⟨quote, true, body, ⟨hquote, hopens, hscans, hcloses⟩, rfl⟩
    · have hopens : StringMode.openText quote formatted cs = (.text quote false formatted, 0) :=
        if_neg hstarts
      rw [hopens] at hscan
      obtain ⟨taken, body, hlength, rfl, hscans, hcloses⟩ := scans_of_closed rfl hscan
      obtain rfl := List.length_eq_zero_iff.mp hlength
      exact ⟨quote, false, body, ⟨hquote, hopens, hscans, hcloses⟩, rfl⟩

/-- Quotes that enclose a text are passed together with it. -/
theorem Encloses.scanString_eq {quote : Char} {triple formatted : Bool} {body after : List Char}
    (hencloses : Encloses quote triple formatted body after) (offset : Nat) :
    scanString formatted
        ⟨quotes quote triple ++ (body ++ (quotes quote triple ++ after)), offset⟩ =
      .closed ⟨after, offset +
        Text.byteLength (quotes quote triple ++ (body ++ quotes quote triple))⟩ := by
  obtain ⟨others, hquotes⟩ := quotes_eq_cons quote triple
  obtain ⟨-, hopens, hscans, hcloses⟩ := hencloses
  rw [hquotes, List.tail_cons] at hopens hcloses
  rw [hquotes] at hscans ⊢
  rw [scanString, List.cons_append]
  dsimp only
  rw [hopens]
  dsimp only
  rw [scanStringFrom_append, hscans.scanStringFrom_eq, List.cons_append, scanStringFrom, hcloses]
  dsimp only
  rw [scanStringFrom_append, scanStringFrom]
  simp only [Text.byteLength_cons, Text.byteLength_append, List.cons_append, Nat.add_assoc]

/-- Quotes that enclose a text are written around it. -/
theorem Encloses.written {quote : Char} {triple formatted : Bool} {body after : List Char}
    (hencloses : Encloses quote triple formatted body after) :
    Written (quotes quote triple ++ (body ++ quotes quote triple)) [] quote triple body where
  raw_eq := rfl
  single := by
    intro hsingle hstarts
    obtain rfl : triple = false := by simpa using hsingle
    have hopens := hencloses.opens
    have hstarts : [quote, quote].isPrefixOf (body ++ (quotes quote false ++ after)) := by
      rw [List.isPrefixOf_iff_prefix] at hstarts ⊢
      rw [← List.append_assoc]
      exact hstarts.trans (List.prefix_append _ _)
    -- Three quotes would open another literal.
    rw [StringMode.openText, if_pos (by simpa [quotes] using hstarts)] at hopens
    cases hopens
  isQuote_quote := hencloses.isQuote_quote
  not_isQuote := by simp

/-! ## Tokens -/

namespace Lexer

/-- What the lexer reads as one literal between two cursors: the word in front of a quote, if it is
a prefix, and a text that quotes enclose. -/
structure ReadsLiteral (start stop : Cursor) (letters : List Char) (quote : Char) (triple : Bool)
    (body : List Char) : Prop where
  word_eq : start.rest.takeWhile Text.isIdentifierContinue = letters
  isStringPrefix_letters : letters = [] ∨ isStringPrefix letters
  encloses : Encloses quote triple (announcesFormatted letters) body stop.rest
  passes : start.Passes (letters ++ (quotes quote triple ++ (body ++ quotes quote triple))) stop

private theorem significant_readsLiteral {c : Char} {start stop : Cursor}
    (hpeek : start.peek? = some c)
    (hsignificant : significant c start = .ok (.literalString, stop)) :
    ∃ letters quote triple body, ReadsLiteral start stop letters quote triple body := by
  obtain ⟨letters, middle, hletters, hword, hprefix, hquote, hscan⟩ :=
    significant_string hpeek hsignificant
  obtain ⟨quote, triple, body, hencloses, hrest⟩ := scanString_encloses hquote hscan
  obtain ⟨text, hpasses⟩ := (scanString_passes hscan).1
  have htext : quotes quote triple ++ (body ++ quotes quote triple) = text := by
    refine List.append_cancel_right (Eq.trans ?_ hpasses.rest_eq)
    simp [hrest]
  exact ⟨letters, quote, triple, body, hword.symm, hprefix, hencloses,
    hletters.trans (htext ▸ hpasses)⟩

/-- Every token with text in the run of a source is read from a place of the source. -/
theorem run_significant {source : String} {step : Token × Lexer} (hstep : step ∈ run source)
    (hsolid : step.1.kind.IsSolid) :
    ∃ c start, start.IsIn source.toList ∧ start.peek? = some c ∧
      step.1 = ⟨step.1.kind, ⟨start.offset, step.2.cursor.offset⟩,
        String.ofList (start.textTo step.2.cursor)⟩ ∧
      significant c start = .ok (step.1.kind, step.2.cursor) := by
  obtain ⟨index, hindex⟩ := List.getElem?_of_mem hstep
  have hnext := runFor_getElem? hindex
  rw [hnext] at hsolid ⊢
  rcases (ofSource_reading source).reading_after index with hreading | hended
  · rcases hreading.next_finds hsolid.2.2 with ⟨_, -, hdedent⟩ | ⟨-, hfinds⟩
    · rw [hdedent] at hsolid
      exact absurd hsolid.1 Bool.false_ne_true
    · obtain ⟨c, start, hreaches, hpeek, -, htoken, hsignificant⟩ :=
        hfinds.exists_significant hsolid
      obtain ⟨text, hpasses⟩ := hreaches
      exact ⟨c, start, hreading.isIn.passes hpasses, hpeek, htoken, hsignificant⟩
  · rw [hended] at hsolid
    exact absurd rfl hsolid.2.1

end Lexer

/-! ## Decoded literals -/

private theorem toLower_eq_iff {c lower upper : Char} (hlower : lower.toNat = upper.toNat + 32)
    (hupper : 'A'.toNat ≤ upper.toNat ∧ upper.toNat ≤ 'Z'.toNat) :
    c.toLower = lower ↔ c = lower ∨ c = upper := by
  have hfirst : ('A' : Char).val.toNat = 65 := rfl
  have hlast : ('Z' : Char).val.toNat = 90 := rfl
  have hdistance : (('a' : Char).val - ('A' : Char).val).toNat = 32 := rfl
  have htoNat : ∀ d : Char, d.toNat = d.val.toNat := fun _ => rfl
  simp only [htoNat] at hlower hupper
  unfold Char.toLower
  simp only [ge_iff_le, UInt32.le_iff_toNat_le, Char.ext_iff, ← UInt32.toNat_inj, hfirst, hlast]
  split
  · rw [UInt32.toNat_add, hdistance]
    omega
  · omega

/-- A letter is found among lowered ones if it is there in either case. -/
theorem contains_toLower_iff {letters : List Char} {lower upper : Char}
    (hlower : lower.toNat = upper.toNat + 32)
    (hupper : 'A'.toNat ≤ upper.toNat ∧ upper.toNat ≤ 'Z'.toNat) :
    (letters.map Char.toLower).contains lower ↔ lower ∈ letters ∨ upper ∈ letters := by
  simp only [List.contains_iff_mem, List.mem_map, toLower_eq_iff hlower hupper, and_or_left,
    exists_or, exists_eq_right]

namespace Literal

/-- What the decoder makes of a literal as it is written: it finds the prefix, the width of the
quotes and, between two characters, the text. The prefix says whether the literal denotes bytes,
whether it is formatted, and whether the value is the text as it stands. -/
structure Decodes (raw letters : List Char) (quote : Char) (triple : Bool) (body : List Char) :
    Prop where
  span_eq : raw.span (fun c => !isQuote c) =
    (letters, quotes quote triple ++ (body ++ quotes quote triple))
  quoteWidth_eq : quoteWidth (quotes quote triple ++ (body ++ quotes quote triple)) =
    (quotes quote triple).length
  slice?_eq : Text.slice? (quotes quote triple ++ (body ++ quotes quote triple))
    (quotes quote triple).length
    (Text.byteLength (quotes quote triple ++ (body ++ quotes quote triple)) -
      (quotes quote triple).length) = some body
  bytes_iff : (decode raw).bytes ↔ 'b' ∈ letters ∨ 'B' ∈ letters
  formatted_iff : (decode raw).formatted ↔ 'f' ∈ letters ∨ 'F' ∈ letters
  verbatim : ('r' ∈ letters ∨ 'R' ∈ letters) ∨ 'f' ∈ letters ∨ 'F' ∈ letters →
    (decode raw).text = String.ofList body
  unescaped : ¬(('r' ∈ letters ∨ 'R' ∈ letters) ∨ 'f' ∈ letters ∨ 'F' ∈ letters) →
    (decode raw).text = String.ofList (unescape (decode raw).bytes body)

/-- A literal is decoded to the prefix, the quotes and the body it is written with. -/
private theorem decodes_written {raw letters body : List Char} {quote : Char} {triple : Bool}
    (hwritten : Written raw letters quote triple body) : Decodes raw letters quote triple body := by
  have hbytes := @contains_toLower_iff letters 'b' 'B' rfl (by decide)
  have hformatted := @contains_toLower_iff letters 'f' 'F' rfl (by decide)
  have hraw := @contains_toLower_iff letters 'r' 'R' rfl (by decide)
  have hdecode := decode_written hwritten
  refine ⟨hwritten.span_eq, quoteWidth_written hwritten, slice?_written hwritten, ?_, ?_, ?_, ?_⟩
  · rw [hdecode]
    exact hbytes
  · rw [hdecode]
    exact hformatted
  · intro hverbatim
    rw [hdecode]
    dsimp only
    rw [if_pos (by rwa [Bool.or_eq_true, hraw, hformatted])]
  · intro hplain
    rw [hdecode]
    dsimp only
    rw [if_neg (by rwa [Bool.or_eq_true, hraw, hformatted])]

end Literal

/-- **The lexer and the decoder agree on every string literal.** The text of a token is the source
between two cursors that the lexer reads one literal between, and the decoder finds in that text
what the lexer has read: the prefix, the quotes and what they enclose. -/
theorem Lexer.run_literals (source : String) :
    ∀ step ∈ run source, step.1.kind = .literalString →
      ∃ start letters quote triple body,
        start.IsIn source.toList ∧ step.1.span = ⟨start.offset, step.2.cursor.offset⟩ ∧
        step.1.text.toList = letters ++ (quotes quote triple ++ (body ++ quotes quote triple)) ∧
        ReadsLiteral start step.2.cursor letters quote triple body ∧
        Literal.Decodes step.1.text.toList letters quote triple body := by
  intro step hstep hkind
  obtain ⟨c, start, hstart, hpeek, htoken, hsignificant⟩ :=
    run_significant hstep (by rw [hkind]; decide)
  rw [hkind] at hsignificant
  obtain ⟨letters, quote, triple, body, hreads⟩ := significant_readsLiteral hpeek hsignificant
  have htext : step.1.text.toList =
      letters ++ (quotes quote triple ++ (body ++ quotes quote triple)) := by
    rw [htoken, String.toList_ofList, hreads.passes.textTo_eq]
  have hletters : ∀ c ∈ letters, ¬isQuote c := by
    rw [← hreads.word_eq]
    exact not_isQuote_of_continue
  have hwritten := hreads.encloses.written.behind hletters
  rw [← htext] at hwritten
  exact ⟨start, letters, quote, triple, body, hstart, by rw [htoken], htext, hreads,
    Literal.decodes_written hwritten⟩

/-- The fields of a formatted literal hold its own quotes again. -/
theorem Lexer.run_literals_nested :
    ∃ step ∈ run "x = Rf\"\x7bd[\"k\"]!r:>\x7bw\x7d\x7d\"\n",
      step.1.kind = .literalString ∧ step.1.text = "Rf\"\x7bd[\"k\"]!r:>\x7bw\x7d\x7d\"" ∧
      ∃ start letters quote triple body,
        ReadsLiteral start step.2.cursor letters quote triple body ∧
        Literal.Decodes step.1.text.toList letters quote triple body := by
  have hliteral : (run "x = Rf\"\x7bd[\"k\"]!r:>\x7bw\x7d\x7d\"\n").any fun step =>
      step.1.kind = .literalString && step.1.text == "Rf\"\x7bd[\"k\"]!r:>\x7bw\x7d\x7d\"" := by
    decide +kernel
  obtain ⟨step, hstep, hliteral⟩ := List.any_eq_true.mp hliteral
  rw [Bool.and_eq_true, decide_eq_true_eq, beq_iff_eq] at hliteral
  obtain ⟨start, letters, quote, triple, body, -, -, -, hreads, hdecodes⟩ :=
    run_literals _ step hstep hliteral.1
  exact ⟨step, hstep, hliteral.1, hliteral.2, start, letters, quote, triple, body, hreads, hdecodes⟩

end PythonOutline
