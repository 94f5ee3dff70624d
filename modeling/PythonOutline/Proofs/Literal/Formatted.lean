import PythonOutline.Proofs.Literal.RoundTrip

/-! # Formatted literals

The expressions and format specifications of a formatted literal hold further literals and
replacement fields, to any depth and with any quotes. The grammar of what may stand in one is given
here as one predicate over its parts. The scanner keeps a stack of modes instead: it passes each
part and is back in the mode in which the part began, whatever modes are around it. So the literal
is one token. -/

namespace PythonOutline

/-- The parts of a formatted literal. -/
inductive LiteralPart where
  /-- The text between quotes. -/
  | text (quote : Char) (triple formatted : Bool)
  /-- The expression of a replacement field, or what two brackets in it have between them. -/
  | expression (grouped : Bool)
  /-- A literal in an expression. -/
  | literal
  /-- The format specification of a replacement field. -/
  | formatSpec
  /-- A replacement field. -/
  | field
  deriving DecidableEq, Repr

namespace LiteralPart

/-- The brackets that group a part of an expression. -/
def bracketPairs : List (Char × Char) :=
  [('(', ')'), ('[', ']'), ('\x7b', '\x7d')]

/-- Whether a character means nothing to the extent of an expression. A colon ends the expression
where it stands in no brackets. -/
def isPlain (grouped : Bool) (c : Char) : Bool :=
  !isQuote c && bracketPairs.all (fun pair => c ≠ pair.1 && c ≠ pair.2) && c ≠ '\\' &&
    (grouped || c ≠ ':')

/-- The grammar of the parts. -/
inductive WellFormed : LiteralPart → List Char → Prop where
  | text_nil {quote : Char} {triple formatted : Bool} : WellFormed (.text quote triple formatted) []
  | ordinary {quote c : Char} {triple formatted : Bool} {text : List Char} (hbackslash : c ≠ '\\')
      (hquote : c ≠ quote) (hfeed : c = '\n' → triple)
      (hbrace : formatted → c ≠ '\x7b' ∧ c ≠ '\x7d')
      (htext : WellFormed (.text quote triple formatted) text) :
      WellFormed (.text quote triple formatted) (c :: text)
  | escaped {quote c : Char} {triple formatted : Bool} {text : List Char}
      (htext : WellFormed (.text quote triple formatted) text) :
      WellFormed (.text quote triple formatted) ('\\' :: c :: text)
  | doubled {quote c : Char} {triple : Bool} {text : List Char} (hbrace : c = '\x7b' ∨ c = '\x7d')
      (htext : WellFormed (.text quote triple true) text) :
      WellFormed (.text quote triple true) (c :: c :: text)
  | replaced {quote : Char} {triple : Bool} {field text : List Char}
      (hfield : WellFormed .field field) (htext : WellFormed (.text quote triple true) text) :
      WellFormed (.text quote triple true) (field ++ text)
  | expression_nil {grouped : Bool} : WellFormed (.expression grouped) []
  | plain {grouped : Bool} {c : Char} {expr : List Char} (hexpr : WellFormed (.expression grouped) expr)
      (hc : isPlain grouped c) : WellFormed (.expression grouped) (expr ++ [c])
  | group {grouped : Bool} {opening closing : Char} {expr inner : List Char}
      (hexpr : WellFormed (.expression grouped) expr) (hpair : (opening, closing) ∈ bracketPairs)
      (hinner : WellFormed (.expression true) inner) :
      WellFormed (.expression grouped) (expr ++ opening :: (inner ++ [closing]))
  /-- No literal stands right behind a word or another literal. -/
  | nested {grouped : Bool} {expr literal : List Char} (hexpr : WellFormed (.expression grouped) expr)
      (hbefore : ∀ c ∈ expr.getLast?, ¬Text.isIdentifierContinue c ∧ ¬isQuote c)
      (hliteral : WellFormed .literal literal) : WellFormed (.expression grouped) (expr ++ literal)
  | literal {quote : Char} {triple : Bool} {letters body : List Char}
      (hletters : letters = [] ∨ isStringPrefix letters) (hquote : isQuote quote)
      (hbody : WellFormed (.text quote triple (announcesFormatted letters)) body) :
      WellFormed .literal (letters ++ (quotes quote triple ++ (body ++ quotes quote triple)))
  | formatSpec_nil : WellFormed .formatSpec []
  | specified {c : Char} {spec : List Char} (hbackslash : c ≠ '\\') (hopening : c ≠ '\x7b')
      (hclosing : c ≠ '\x7d') (hspec : WellFormed .formatSpec spec) :
      WellFormed .formatSpec (c :: spec)
  | respecified {field spec : List Char} (hfield : WellFormed .field field)
      (hspec : WellFormed .formatSpec spec) : WellFormed .formatSpec (field ++ spec)
  | field {expr : List Char} (hexpr : WellFormed (.expression false) expr)
      (hbrace : expr.head? ≠ some '\x7b') : WellFormed .field ('\x7b' :: (expr ++ ['\x7d']))
  | formatted {expr spec : List Char} (hexpr : WellFormed (.expression false) expr)
      (hbrace : expr.head? ≠ some '\x7b') (hspec : WellFormed .formatSpec spec) :
      WellFormed .field ('\x7b' :: (expr ++ ':' :: (spec ++ ['\x7d'])))

variable {quote c : Char} {triple formatted grouped : Bool} {count : Nat}
  {following text letters body word : List Char} {outer : List StringMode}

/-! ## Single characters -/

/-- No character that has a meaning in an expression is part of a word. -/
theorem not_isIdentifier :
    ∀ c ∈ ['(', ')', '[', ']', '\x7b', '\x7d', ':', '"', '\''],
      Text.isIdentifierContinue c = false ∧ Text.isIdentifierStart c = false := by
  intro c hc
  simp only [List.mem_cons, List.not_mem_nil, or_false] at hc
  rcases hc with rfl | rfl | rfl | rfl | rfl | rfl | rfl | rfl | rfl <;> decide

private theorem not_isIdentifier_of_isQuote (hquote : isQuote quote) :
    Text.isIdentifierContinue quote = false ∧ Text.isIdentifierStart quote = false := by
  rcases isQuote_iff.mp hquote with rfl | rfl
  · exact not_isIdentifier '"' (by decide)
  · exact not_isIdentifier '\'' (by decide)

/-- A character without a meaning leaves the number of brackets as it is, and a word goes on behind
it only if it is part of one. -/
theorem step_plain (word following : List Char) (outer : List StringMode)
    (hc : isPlain grouped c) (hgrouped : grouped → 0 < count) :
    ∃ word', (StringMode.field count word).step outer c following =
        some (0, .field count word' :: outer) ∧
      (word' ≠ [] → Text.isIdentifierContinue c) := by
  simp only [isPlain, bracketPairs, Bool.and_eq_true, Bool.or_eq_true, List.all_cons, List.all_nil,
    Bool.not_eq_true', decide_eq_true_eq] at hc
  obtain ⟨⟨⟨hquote, ⟨hround, hround'⟩, ⟨hsquare, hsquare'⟩, ⟨hcurly, hcurly'⟩, -⟩, hbackslash⟩,
    hcolon⟩ := hc
  by_cases hword : ¬word.isEmpty ∧ Text.isIdentifierContinue c
  · exact ⟨c :: word, if_pos hword, fun _ => hword.2⟩
  by_cases hstart : Text.isIdentifierStart c
  · refine ⟨[c], ?_, fun _ => Text.isIdentifierContinue_of_start hstart⟩
    rw [StringMode.step, if_neg hword, hquote, if_neg Bool.false_ne_true, if_pos hstart]
  · refine ⟨[], ?_, absurd rfl⟩
    have hspec : ¬(c = ':' ∧ count = 0) := by
      rintro ⟨rfl, rfl⟩
      exact (hgrouped (hcolon.resolve_right (absurd rfl))).false
    rw [StringMode.step, if_neg hword]
    simp [hquote, hstart, hround, hround', hsquare, hsquare', hcurly, hcurly', hspec, hbackslash]

private theorem step_opening {opening closing : Char} (hpair : (opening, closing) ∈ bracketPairs) :
    (StringMode.field count word).step outer opening following =
      some (0, .field (count + 1) [] :: outer) := by
  simp only [bracketPairs, List.mem_cons, Prod.mk.injEq, List.not_mem_nil, or_false] at hpair
  rcases hpair with ⟨rfl, -⟩ | ⟨rfl, -⟩ | ⟨rfl, -⟩ <;>
    simp [StringMode.step, not_isIdentifier, isQuote]

private theorem step_closing {opening closing : Char} (hpair : (opening, closing) ∈ bracketPairs) :
    (StringMode.field (count + 1) word).step outer closing following =
      some (0, .field count [] :: outer) := by
  simp only [bracketPairs, List.mem_cons, Prod.mk.injEq, List.not_mem_nil, or_false] at hpair
  rcases hpair with ⟨-, rfl⟩ | ⟨-, rfl⟩ | ⟨-, rfl⟩ <;>
    simp [StringMode.step, not_isIdentifier, isQuote]

private theorem step_end :
    (StringMode.field 0 word).step outer '\x7d' following = some (0, outer) := by
  simp [StringMode.step, not_isIdentifier, isQuote]

private theorem step_colon :
    (StringMode.field 0 word).step outer ':' following = some (0, .formatSpec :: outer) := by
  simp [StringMode.step, not_isIdentifier, isQuote]

/-! ## Quotes -/

/-- Quotes open a literal with a text that does not begin with one, where none follows. -/
theorem openText_quotes (triple formatted : Bool) (hbody : body.head? ≠ some quote)
    (hfollowing : following.head? ≠ some quote) :
    StringMode.openText quote formatted
        ((quotes quote triple).tail ++ (body ++ (quotes quote triple ++ following))) =
      (.text quote triple formatted, (quotes quote triple).tail.length) := by
  cases triple with
  | true => exact if_pos (by simp [quotes])
  | false =>
    refine if_neg ?_
    cases body with
    | cons c body =>
      have hne : quote ≠ c := fun heq => hbody (congrArg some heq.symm)
      simp [quotes, hne]
    | nil =>
      cases following with
      | nil => simp [quotes]
      | cons c following =>
        have hne : quote ≠ c := fun heq => hfollowing (congrArg some heq.symm)
        simp [quotes, hne]

private theorem step_quotes (triple formatted : Bool) (outer : List StringMode)
    (following : List Char) (hquote : isQuote quote) :
    (StringMode.text quote triple formatted).step outer quote
      ((quotes quote triple).tail ++ following) = some ((quotes quote triple).tail.length, outer) := by
  rcases isQuote_iff.mp hquote with rfl | rfl <;> cases triple <;> simp [StringMode.step, quotes]

/-- In an expression quotes open a literal, of which the word in front of them may be the prefix. -/
theorem step_field_quote (count : Nat) (outer : List StringMode) (hquote : isQuote quote)
    (hletters : letters = [] ∨ isStringPrefix letters)
    (hopens : StringMode.openText quote (announcesFormatted letters) following =
      (.text quote triple (announcesFormatted letters), (quotes quote triple).tail.length)) :
    (StringMode.field count letters.reverse).step outer quote following =
      some ((quotes quote triple).tail.length,
        .text quote triple (announcesFormatted letters) :: .field count [] :: outer) := by
  have hformatted : (isStringPrefix letters.reverse.reverse && announcesFormatted letters.reverse) =
      announcesFormatted letters := by
    rw [List.reverse_reverse]
    rcases hletters with rfl | hletters
    · rfl
    · simp [hletters, announcesFormatted]
  rw [StringMode.step, if_neg (by simp [not_isIdentifier_of_isQuote hquote]), if_pos hquote]
  dsimp only
  rw [hformatted, hopens]

private theorem isStringPrefix_isIdentifier (hletters : isStringPrefix letters) :
    letters ≠ [] ∧ ∀ c ∈ letters, Text.isIdentifierStart c := by
  rw [isStringPrefix, Bool.and_eq_true, List.all_eq_true] at hletters
  constructor
  · rintro rfl
    exact absurd hletters.2 (by decide)
  · intro c hc
    obtain ⟨range, hrange, hletter⟩ := List.any_eq_true.mp (hletters.1 c hc)
    have hall : ∀ range ∈ Text.stringPrefixLetters.ranges, range.1 = range.2 ∧
        Text.isIdentifierStart (Char.ofNat range.1) := by
      decide +kernel
    obtain ⟨hsingle, hstart⟩ := hall range hrange
    rw [Bool.and_eq_true, decide_eq_true_eq, decide_eq_true_eq, ← hsingle] at hletter
    rwa [Nat.le_antisymm hletter.1 hletter.2, Char.ofNat_toNat] at hstart

/-! ## Parts -/

/-- What the scanner does with a part, whatever follows and whatever modes are around it. Behind an
expression it is within a word only if the expression ends with one, so a literal behind anything
else is read with its own prefix. -/
def Scanned : LiteralPart → List Char → Prop
  | .text quote triple formatted, text => ∀ following outer,
    StringMode.Scans following (.text quote triple formatted :: outer) text
      (.text quote triple formatted :: outer)
  | .expression grouped, text => ∀ following outer count, (grouped → 0 < count) →
    (∀ quote ∈ following.head?, isQuote quote → ∀ c ∈ text.getLast?, ¬isQuote c) →
    ∃ word, (word ≠ [] → ∃ c ∈ text.getLast?, Text.isIdentifierContinue c) ∧
      StringMode.Scans following (.field count [] :: outer) text (.field count word :: outer)
  | .literal, text => ∀ following outer count, (∀ quote ∈ following.head?, ¬isQuote quote) →
    StringMode.Scans following (.field count [] :: outer) text (.field count [] :: outer)
  | .formatSpec, text => ∀ following outer,
    StringMode.Scans following (.formatSpec :: outer) text (.formatSpec :: outer)
  | .field, text => ∀ following mode outer,
    (∀ following, following.head? ≠ some '\x7b' →
      mode.step outer '\x7b' following = some (0, .openField :: mode :: outer)) →
    StringMode.Scans following (mode :: outer) text (mode :: outer)

/-- A word in an expression is kept, last letter first. -/
theorem scans_word (following : List Char) (count : Nat) (outer : List StringMode)
    (hletters : ∀ c ∈ letters, Text.isIdentifierContinue c) (hword : word ≠ []) :
    StringMode.Scans following (.field count word :: outer) letters
      (.field count (letters.reverse ++ word) :: outer) := by
  induction letters generalizing word with
  | nil => exact .nil
  | cons c letters ih =>
    obtain ⟨hc, hletters⟩ := List.forall_mem_cons.mp hletters
    have hstep : (StringMode.field count word).step outer c (letters ++ following) =
        some (0, .field count (c :: word) :: outer) :=
      if_pos ⟨by simpa using hword, hc⟩
    have hrest := ih hletters (List.cons_ne_nil c word)
    rw [List.append_cons, ← List.reverse_cons] at hrest
    exact .cons hstep hrest

private theorem scans_letters (hletters : letters = [] ∨ isStringPrefix letters) :
    StringMode.Scans following (.field count [] :: outer) letters
      (.field count letters.reverse :: outer) := by
  rcases hletters with rfl | hletters
  · exact .nil
  obtain ⟨hne, hstart⟩ := isStringPrefix_isIdentifier hletters
  obtain ⟨c, others, rfl⟩ := List.exists_cons_of_ne_nil hne
  obtain ⟨hc, hothers⟩ := List.forall_mem_cons.mp hstart
  have hquote : ¬isQuote c := fun hquote => by
    rw [(not_isIdentifier_of_isQuote hquote).2] at hc
    cases hc
  have hstep : (StringMode.field count []).step outer c (others ++ following) =
      some (0, .field count [c] :: outer) := by
    simp [StringMode.step, hquote, hc]
  have hword := scans_word following count outer
    (fun c hc => Text.isIdentifierContinue_of_start (hothers c hc)) (List.cons_ne_nil c [])
  rw [← List.reverse_cons] at hword
  exact .cons hstep hword

/-- A well-formed text does not begin with its own quotes. -/
theorem WellFormed.head?_ne_quote (hbody : WellFormed (.text quote triple formatted) body)
    (hquote : isQuote quote) : body.head? ≠ some quote := by
  have hother : quote ≠ '\\' ∧ quote ≠ '\x7b' ∧ quote ≠ '\x7d' := by
    rcases isQuote_iff.mp hquote with rfl | rfl <;> decide
  cases hbody with
  | text_nil => nofun
  | ordinary _ hc => simpa using hc
  | escaped => simpa using hother.1.symm
  | doubled hbrace => rcases hbrace with rfl | rfl <;> simp [hother.2.1.symm, hother.2.2.symm]
  | replaced hfield => cases hfield <;> simpa using hother.2.1.symm

/-- A literal ends with a quote. -/
theorem WellFormed.getLast?_isQuote (hliteral : WellFormed .literal text) :
    ∃ quote ∈ text.getLast?, isQuote quote := by
  cases hliteral with
  | @literal quote triple _ _ _ hquote =>
    obtain ⟨others, hquotes⟩ : ∃ others, quotes quote triple = others ++ [quote] := by
      cases triple
      · exact ⟨[], rfl⟩
      · exact ⟨[quote, quote], rfl⟩
    refine ⟨quote, ?_, hquote⟩
    rw [hquotes, ← List.append_assoc, ← List.append_assoc, ← List.append_assoc]
    exact List.getLast?_concat

/-- Where a field begins, a mode of text or of a format specification is kept for what
follows it. -/
theorem Scanned.field_ends {mode : StringMode} {expr last : List Char}
    (hopens : ∀ following, following.head? ≠ some '\x7b' →
      mode.step outer '\x7b' following = some (0, .openField :: mode :: outer))
    (hexpr : Scanned (.expression false) expr) (hbrace : expr.head? ≠ some '\x7b')
    (hend : ∃ c cs, last = c :: cs ∧ c ≠ '\x7b' ∧ ¬isQuote c)
    (hlast : ∀ word, StringMode.Scans following (.field 0 word :: mode :: outer) last (mode :: outer)) :
    StringMode.Scans following (mode :: outer) ('\x7b' :: (expr ++ last)) (mode :: outer) := by
  obtain ⟨c, cs, rfl, hc, hquote⟩ := hend
  obtain ⟨word, -, hexpr⟩ := hexpr (c :: cs ++ following) (mode :: outer) 0 (by simp) (by simp [hquote])
  refine .cons (hopens _ ?_) (hexpr.append (hlast word))
  cases expr with
  | nil => simpa using hc
  | cons d expr => simpa using hbrace

/-- An expression may go on with a plain character. -/
theorem Scanned.plain {expr : List Char} (hexpr : Scanned (.expression grouped) expr)
    (hc : isPlain grouped c) : Scanned (.expression grouped) (expr ++ [c]) := by
  intro following outer count hgrouped _
  have hquote : ¬isQuote c := by
    simp only [isPlain, Bool.and_eq_true, Bool.not_eq_true'] at hc
    simp [hc.1.1.1]
  obtain ⟨word, -, hexpr⟩ := hexpr (c :: following) outer count hgrouped (by simp [hquote])
  obtain ⟨word', hstep, hword'⟩ := step_plain word following outer hc hgrouped
  exact ⟨word', fun hne => ⟨c, by simp, hword' hne⟩, hexpr.append (.single hstep)⟩

/-- An expression may go on with a group in brackets. -/
theorem Scanned.group {opening closing : Char} {expr inner : List Char}
    (hexpr : Scanned (.expression grouped) expr) (hpair : (opening, closing) ∈ bracketPairs)
    (hinner : Scanned (.expression true) inner) :
    Scanned (.expression grouped) (expr ++ opening :: (inner ++ [closing])) := by
  intro following outer count hgrouped _
  have hquotes : ∀ pair ∈ bracketPairs, ¬isQuote pair.1 ∧ ¬isQuote pair.2 := by decide
  obtain ⟨hopening, hclosing⟩ := hquotes _ hpair
  obtain ⟨word, -, hexpr⟩ := hexpr (opening :: (inner ++ [closing]) ++ following) outer count
    hgrouped (by simp [hopening])
  obtain ⟨word', -, hinner⟩ := hinner ([closing] ++ following) outer (count + 1)
    (fun _ => count.succ_pos) (by simp [hclosing])
  exact ⟨[], absurd rfl, hexpr.append
    (.cons (step_opening hpair) (hinner.append (.single (step_closing hpair))))⟩

/-- An expression may go on with a literal, unless what stands before would be read as its
prefix. -/
theorem Scanned.nested {expr literal : List Char} (hexpr : Scanned (.expression grouped) expr)
    (hbefore : ∀ c ∈ expr.getLast?, ¬Text.isIdentifierContinue c ∧ ¬isQuote c)
    (hlast : ∃ quote ∈ literal.getLast?, isQuote quote) (hliteral : Scanned .literal literal) :
    Scanned (.expression grouped) (expr ++ literal) := by
  intro following outer count hgrouped hfollowing
  obtain ⟨word, hword, hexpr⟩ := hexpr (literal ++ following) outer count hgrouped
    fun quote _ _ c hc => (hbefore c hc).2
  obtain rfl : word = [] := by
    by_contra hne
    obtain ⟨c, hc, hcontinue⟩ := hword hne
    exact (hbefore c hc).1 hcontinue
  obtain ⟨last, hlast, hquote⟩ := hlast
  refine ⟨[], absurd rfl, hexpr.append (hliteral following outer count fun first hfirst hisQuote => ?_)⟩
  refine hfollowing first hfirst hisQuote last ?_ hquote
  rw [List.getLast?_append, Option.mem_def.mp hlast]
  rfl

/-- A literal is scanned with its prefix and its quotes. -/
theorem Scanned.literal (hletters : letters = [] ∨ isStringPrefix letters) (hquote : isQuote quote)
    (hhead : body.head? ≠ some quote)
    (hbody : Scanned (.text quote triple (announcesFormatted letters)) body) :
    Scanned .literal (letters ++ (quotes quote triple ++ (body ++ quotes quote triple))) := by
  intro following outer count hfollowing
  have hopens := openText_quotes triple (announcesFormatted letters) hhead fun heq =>
    hfollowing quote heq hquote
  have hstep := step_field_quote count outer hquote hletters hopens
  have hcloses := step_quotes triple (announcesFormatted letters) (.field count [] :: outer) following
    hquote
  obtain ⟨others, hquotes⟩ := quotes_eq_cons quote triple
  have hbody := hbody (quotes quote triple ++ following) (.field count [] :: outer)
  rw [hquotes, List.tail_cons] at hstep hcloses
  rw [hquotes] at hbody ⊢
  exact (scans_letters hletters).append
    (.step (by simpa using hstep) (hbody.append (.single hcloses)))

/-- The scanner passes every part. -/
theorem WellFormed.scanned {part : LiteralPart} (hpart : WellFormed part text) :
    Scanned part text := by
  induction hpart with
  | text_nil => exact fun _ _ => .nil
  | ordinary hbackslash hquote hfeed hbrace _ ih =>
    intro following outer
    refine .cons ?_ (ih following outer)
    rw [StringMode.step, if_neg hbackslash, if_neg fun h => h.2 (hfeed h.1),
      if_neg fun h => h.2.elim (hbrace h.1).1 (hbrace h.1).2, if_neg hquote]
  | @escaped quote c triple formatted text _ ih =>
    intro following outer
    have hstep : (StringMode.text quote triple formatted).step outer '\\' ([c] ++ (text ++ following)) =
        some ([c].length, .text quote triple formatted :: outer) :=
      rfl
    exact .step hstep (ih following outer)
  | @doubled quote c triple text hbrace _ ih =>
    intro following outer
    have hstep : (StringMode.text quote triple true).step outer c ([c] ++ (text ++ following)) =
        some ([c].length, .text quote triple true :: outer) := by
      rcases hbrace with rfl | rfl <;> simp [StringMode.step]
    exact .step hstep (ih following outer)
  | replaced _ _ hfield htext =>
    intro following outer
    refine (hfield _ _ outer fun others hothers => ?_).append (htext following outer)
    simp [StringMode.step, hothers]
  | expression_nil => exact fun _ _ _ _ _ => ⟨[], absurd rfl, .nil⟩
  | plain _ hc hexpr => exact hexpr.plain hc
  | group _ hpair _ hexpr hinner => exact hexpr.group hpair hinner
  | nested _ hbefore hliteral hexpr ih => exact hexpr.nested hbefore hliteral.getLast?_isQuote ih
  | literal hletters hquote hbody ih => exact .literal hletters hquote (hbody.head?_ne_quote hquote) ih
  | formatSpec_nil => exact fun _ _ => .nil
  | specified hbackslash hopening hclosing _ ih =>
    intro following outer
    refine .cons ?_ (ih following outer)
    simp [StringMode.step, hbackslash, hopening, hclosing]
  | respecified _ _ hfield hspec =>
    intro following outer
    exact (hfield _ _ outer fun _ _ => rfl).append (hspec following outer)
  | field _ hbrace hexpr =>
    intro following mode outer hopens
    exact hexpr.field_ends hopens hbrace ⟨'\x7d', [], rfl, by decide, by decide⟩
      fun _ => .single step_end
  | formatted _ hbrace _ hexpr hspec =>
    intro following mode outer hopens
    refine hexpr.field_ends hopens hbrace ⟨':', _, rfl, by decide, by decide⟩ fun _ => ?_
    exact .cons step_colon ((hspec _ _).append (.single rfl))

/-! ## Tokens -/

/-- Quotes enclose a well-formed text, where none follows. -/
theorem WellFormed.encloses (hbody : WellFormed (.text quote triple formatted) body)
    (hquote : isQuote quote) (hfollowing : following.head? ≠ some quote) :
    Encloses quote triple formatted body following where
  isQuote_quote := hquote
  opens := openText_quotes triple formatted (hbody.head?_ne_quote hquote) hfollowing
  scans := hbody.scanned _ _
  closes := step_quotes triple formatted [] following hquote

end LiteralPart

/-- A literal is read from its prefix on where quotes enclose a text. -/
theorem Encloses.significant_prefix {quote c : Char} {triple : Bool} {letters body after : List Char}
    (hletters : isStringPrefix (c :: letters))
    (hencloses : Encloses quote triple (announcesFormatted (c :: letters)) body after) (offset : Nat) :
    Lexer.significant c
        ⟨c :: letters ++ (quotes quote triple ++ (body ++ (quotes quote triple ++ after))), offset⟩ =
      .ok (.literalString, ⟨after, offset + Text.byteLength
        (c :: letters ++ (quotes quote triple ++ (body ++ quotes quote triple)))⟩) := by
  obtain ⟨-, hstart⟩ := LiteralPart.isStringPrefix_isIdentifier hletters
  have hcontinue : ∀ d ∈ c :: letters, Text.isIdentifierContinue d := fun d hd =>
    Text.isIdentifierContinue_of_start (hstart d hd)
  have hquote := LiteralPart.not_isIdentifier_of_isQuote hencloses.isQuote_quote
  have hscan := hencloses.scanString_eq (offset + Text.byteLength (c :: letters))
  obtain ⟨others, hquotes⟩ := quotes_eq_cons quote triple
  rw [hquotes] at hscan ⊢
  have hpasses := Cursor.passes_skipWhile
    ⟨c :: letters ++ (quote :: others ++ (body ++ (quote :: others ++ after))), offset⟩
    Text.isIdentifierContinue
  have htaken : (c :: letters ++ (quote :: others ++ (body ++ (quote :: others ++
      after)))).takeWhile Text.isIdentifierContinue = c :: letters := by
    rw [List.takeWhile_append_of_pos hcontinue, List.cons_append (a := quote),
      List.takeWhile_cons_of_neg (by simp [hquote.1]), List.append_nil]
  rw [htaken] at hpasses
  rw [Lexer.significant, if_pos (hstart c List.mem_cons_self), Lexer.word, hpasses.textTo_eq, hpasses.eq]
  refine (if_pos ?_).trans ?_
  · simp [Cursor.peek?, hencloses.isQuote_quote, hletters]
  · rw [Lexer.string_eq, hscan, Text.byteLength_append (c :: letters), Nat.add_assoc]

namespace LiteralPart

/-- A well-formed literal is read as a whole, where no quote follows. -/
theorem WellFormed.significant_eq {text following : List Char} (hliteral : WellFormed .literal text)
    (hfollowing : ∀ quote ∈ following.head?, ¬isQuote quote) (offset : Nat) :
    ∃ c, text.head? = some c ∧ Lexer.significant c ⟨text ++ following, offset⟩ =
      .ok (.literalString, ⟨following, offset + Text.byteLength text⟩) := by
  cases hliteral with
  | @literal quote triple letters body hletters hquote hbody =>
    have hencloses := hbody.encloses hquote fun heq => hfollowing quote heq hquote
    cases letters with
    | nil =>
      refine ⟨quote, ?_, ?_⟩
      · cases triple <;> rfl
      · simpa using hencloses.significant_eq offset
    | cons c letters =>
      have hletters := hletters.resolve_left (List.cons_ne_nil c letters)
      exact ⟨c, rfl, by simpa using hencloses.significant_prefix hletters offset⟩

end LiteralPart

/-- **A formatted literal is one token.** A literal with any prefix, in whose fields literals and
fields stand to any depth and with any quotes, is read as one token, behind which the line and the
input end. -/
theorem Lexer.run_wellFormed {source : String}
    (hsource : LiteralPart.WellFormed .literal source.toList) :
    (run source).map Prod.fst =
      [⟨.literalString, ⟨0, source.utf8ByteSize⟩, source⟩, .empty .newline source.utf8ByteSize,
        .endOfInput source.utf8ByteSize] := by
  have hnone : ∀ quote ∈ ([] : List Char).head?, ¬isQuote quote := nofun
  obtain ⟨c, hhead, hsignificant⟩ := hsource.significant_eq hnone 0
  rw [List.append_nil, Nat.zero_add, ← Text.utf8ByteSize_eq_byteLength] at hsignificant
  exact run_token hhead hsignificant rfl rfl nofun

/-- A literal whose fields hold its own quotes, in an expression and in a format specification. -/
theorem Lexer.run_wellFormed_nested :
    (run "f\"\x7bd[\"k\"]:>\x7bf\"\x7bw\x7d\"\x7d\x7d\x7d\x7d\"").map Prod.fst =
      [⟨.literalString, ⟨0, 23⟩, "f\"\x7bd[\"k\"]:>\x7bf\"\x7bw\x7d\"\x7d\x7d\x7d\x7d\""⟩,
        .empty .newline 23, .endOfInput 23] := by
  have hkey : LiteralPart.WellFormed .literal
      ([] ++ (quotes '"' false ++ (['k'] ++ quotes '"' false))) :=
    .literal (.inl rfl) rfl (.ordinary (by decide) (by decide) nofun nofun .text_nil)
  have hwidth : LiteralPart.WellFormed .field ('\x7b' :: (([] ++ ['w']) ++ ['\x7d'])) :=
    .field (.plain .expression_nil (by decide)) (by decide)
  have hinner : LiteralPart.WellFormed .literal
      (['f'] ++ (quotes '"' false ++ ((_ ++ []) ++ quotes '"' false))) :=
    .literal (.inr (by decide)) rfl (.replaced hwidth .text_nil)
  have hspec : LiteralPart.WellFormed .formatSpec ('>' :: ('\x7b' :: (([] ++ _) ++ ['\x7d']) ++ [])) :=
    .specified (by decide) (by decide) (by decide)
      (.respecified (.field (.nested .expression_nil nofun hinner) (by decide)) .formatSpec_nil)
  have hexpr : LiteralPart.WellFormed (.expression false)
      (([] ++ ['d']) ++ '[' :: (([] ++ _) ++ [']'])) :=
    .group (.plain .expression_nil (by decide)) (by decide) (.nested .expression_nil nofun hkey)
  have hbody : LiteralPart.WellFormed (.text '"' false true)
      ('\x7b' :: (_ ++ ':' :: (_ ++ ['\x7d'])) ++ ('\x7d' :: '\x7d' :: [])) :=
    .replaced (.formatted hexpr (by decide) hspec) (.doubled (.inr rfl) .text_nil)
  have hsource : LiteralPart.WellFormed .literal
      (['f'] ++ (quotes '"' false ++ (_ ++ quotes '"' false))) :=
    .literal (.inr (by decide)) rfl hbody
  exact @run_wellFormed "f\"\x7bd[\"k\"]:>\x7bf\"\x7bw\x7d\"\x7d\x7d\x7d\x7d\"" hsource

end PythonOutline
