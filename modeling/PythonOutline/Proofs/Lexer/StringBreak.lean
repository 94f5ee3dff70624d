import Mathlib.Data.List.TakeDrop
import PythonOutline.Proofs.Lexer.Inline
import PythonOutline.Proofs.Lexer.Separator

/-! # String literals over line breaks

A line break inside a string literal belongs to the literal, unless the literal is in single quotes:
a line feed then ends it, although a carriage return does not, and neither does a line feed behind a
backslash. A literal that is folded over lines may therefore be read with one line break and not
with another. All others are read with either, and where a literal is read with both line breaks the
same text of it is passed. -/

namespace PythonOutline

open LineBreak

/-- The quotes are the double and the single one. -/
theorem isQuote_iff {c : Char} : isQuote c ↔ c = '"' ∨ c = '\'' := by
  simp [isQuote]

namespace StringMode

/-- A mode behind a line break, where no word goes on. -/
def atBreak : StringMode → StringMode
  | .field brackets _ => .field brackets []
  | mode => mode

/-- Whether a line feed ends the literal. -/
def endsAtFeed : StringMode → Bool
  | .text _ triple _ => !triple
  | _ => false

/-- Whether literal text is between quotes. -/
def IsQuoted : StringMode → Prop
  | .text quote _ _ => isQuote quote
  | _ => True

variable {lineBreak : LineBreak} {mode : StringMode} {outer modes : List StringMode} {c : Char}
  {following : List Char} {skip : Nat}

@[simp]
theorem atBreak_atBreak (mode : StringMode) : mode.atBreak.atBreak = mode.atBreak := by
  cases mode <;> rfl

@[simp]
theorem endsAtFeed_atBreak (mode : StringMode) : mode.atBreak.endsAtFeed = mode.endsAtFeed := by
  cases mode <;> rfl

private theorem isQuoted_atBreak (hmode : mode.IsQuoted) : mode.atBreak.IsQuoted := by
  cases mode <;> exact hmode

/-- A quote is no line break. -/
theorem ne_of_isQuote (hquote : isQuote c) : c ≠ '\n' ∧ c ≠ '\r' := by
  constructor
  · rintro rfl
    cases hquote
  · rintro rfl
    cases hquote

private theorem step_feed (mode : StringMode) (hmode : mode.IsQuoted) :
    mode.step outer '\n' following =
      if mode.endsAtFeed then none else some (0, mode.atBreak :: outer) := by
  cases mode with
  | text quote triple formatted =>
    have hquote := (ne_of_isQuote hmode).1.symm
    cases triple <;> simp [step, endsAtFeed, atBreak, hquote]
  | field brackets word =>
    have hword : ¬Text.isIdentifierContinue '\n' := by decide +kernel
    have hstart : ¬Text.isIdentifierStart '\n' := by decide +kernel
    simp [step, endsAtFeed, atBreak, hword, hstart, isQuote]
  | formatSpec => simp [step, endsAtFeed, atBreak]

private theorem step_return (mode : StringMode) (hmode : mode.IsQuoted) :
    mode.step outer '\r' following = some (0, mode.atBreak :: outer) := by
  cases mode with
  | text quote triple formatted =>
    have hquote := (ne_of_isQuote hmode).2.symm
    simp [step, atBreak, hquote]
  | field brackets word =>
    have hword : ¬Text.isIdentifierContinue '\r' := by decide +kernel
    have hstart : ¬Text.isIdentifierStart '\r' := by decide +kernel
    simp [step, atBreak, hword, hstart, isQuote]
  | formatSpec => simp [step, atBreak]

private theorem step_backslash (mode : StringMode) :
    mode.step outer '\\' following = some (1, mode.atBreak :: outer) := by
  cases mode with
  | text quote triple formatted => simp [step, atBreak]
  | field brackets word =>
    have hword : ¬Text.isIdentifierContinue '\\' := by decide +kernel
    have hstart : ¬Text.isIdentifierStart '\\' := by decide +kernel
    simp [step, atBreak, hword, hstart, isQuote]
  | formatSpec => simp [step, atBreak]

/-- What a character does depends on what follows only if quotes or braces do. -/
theorem step_respell (hmode : mode.IsQuoted) :
    mode.step outer c (lineBreak.respell following) = mode.step outer c following := by
  have hquotes : ∀ quote : Char, isQuote quote →
      [quote, quote].isPrefixOf (lineBreak.respell following) =
        [quote, quote].isPrefixOf following := by
    intro quote hquote
    apply isPrefixOf_respell
    simpa using ne_of_isQuote hquote
  cases mode with
  | text quote triple formatted =>
    have hbrace : c = '\x7b' ∨ c = '\x7d' →
        ((lineBreak.respell following).head? = some c ↔ following.head? = some c) := by
      intro hc
      apply head?_respell_eq_some_iff
      · rcases hc with rfl | rfl <;> decide
      · rcases hc with rfl | rfl <;> decide
    simp only [step, hquotes quote hmode]
    by_cases hc : c = '\x7b' ∨ c = '\x7d'
    · simp only [hbrace hc]
    · simp only [hc, and_false, if_false]
  | field brackets word =>
    by_cases hc : isQuote c
    · simp only [step, openText, hquotes c hc]
    · simp only [step, hc, Bool.false_eq_true, if_false]
  | formatSpec => rfl

private theorem feed_notMem_quotes {quote : Char} (hquote : isQuote quote)
    (hstarts : [quote, quote].isPrefixOf following) : '\n' ∉ following.take 2 := by
  have htake := List.prefix_iff_eq_take.mp (List.isPrefixOf_iff_prefix.mp hstarts)
  have hne := (ne_of_isQuote hquote).1.symm
  rw [List.length_cons, List.length_singleton] at htake
  rw [← htake]
  simp [hne]

/-- Whoever takes characters along takes no line feed, but behind a backslash. -/
theorem feed_notMem_skip (hmode : mode.IsQuoted) (hc : c ≠ '\\')
    (hstep : mode.step outer c following = some (skip, modes)) : '\n' ∉ following.take skip := by
  cases mode with
  | text quote triple formatted =>
    simp only [step, hc, if_false] at hstep
    split at hstep
    · cases hstep
    split at hstep
    · rename_i hbraces
      split at hstep
      · rename_i hhead
        cases hstep
        obtain ⟨cs, rfl⟩ : ∃ cs, following = c :: cs := by
          cases following with
          | nil => cases hhead
          | cons d cs => exact ⟨cs, by rw [Option.some.inj hhead]⟩
        rcases hbraces.2 with rfl | rfl <;> simp
      · split at hstep <;> cases hstep <;> simp
    split at hstep
    · split at hstep
      · cases hstep
        simp
      · split at hstep
        · rename_i hstarts
          cases hstep
          exact feed_notMem_quotes hmode hstarts
        · cases hstep
          simp
    · cases hstep
      simp
  | field brackets word =>
    simp only [step, hc, if_false] at hstep
    split at hstep
    · cases hstep
      simp
    split at hstep
    · rename_i hquote
      rw [openText] at hstep
      split at hstep
      · rename_i hstarts
        cases hstep
        exact feed_notMem_quotes hquote hstarts
      · cases hstep
        simp
    · repeat' split at hstep
      all_goals
        cases hstep
        simp
  | formatSpec =>
    simp only [step, hc, if_false] at hstep
    repeat' split at hstep
    all_goals
      cases hstep
      simp

/-- Literal text is opened by quotes only. -/
theorem step_isQuoted (hmode : mode.IsQuoted) (houter : ∀ mode ∈ outer, mode.IsQuoted)
    (hstep : mode.step outer c following = some (skip, modes)) : ∀ mode ∈ modes, mode.IsQuoted := by
  have hopen : isQuote c → ∀ formatted, (openText c formatted following).1.IsQuoted := by
    intro hc formatted
    rw [openText]
    split
    · exact hc
    · exact hc
  have hcons : ∀ {mode : StringMode} {outer : List StringMode}, mode.IsQuoted →
      (∀ mode ∈ outer, mode.IsQuoted) → ∀ mode' ∈ mode :: outer, mode'.IsQuoted :=
    fun hmode houter => List.forall_mem_cons.mpr ⟨hmode, houter⟩
  cases mode with
  | text quote triple formatted =>
    simp only [step] at hstep
    split at hstep
    · cases hstep
      exact hcons hmode houter
    split at hstep
    · cases hstep
    · repeat' split at hstep
      all_goals
        cases hstep
        first | exact houter | exact hcons hmode houter | exact hcons trivial (hcons hmode houter)
  | field brackets word =>
    simp only [step] at hstep
    split at hstep
    · cases hstep
      exact hcons trivial houter
    split at hstep
    · rename_i hquote
      cases hstep
      exact hcons (hopen hquote _) (hcons trivial houter)
    · repeat' split at hstep
      all_goals
        cases hstep
        first | exact houter | exact hcons trivial houter
  | formatSpec =>
    simp only [step] at hstep
    repeat' split at hstep
    all_goals
      cases hstep
      first | exact houter | exact hcons trivial houter | exact hcons trivial (hcons trivial houter)

end StringMode

/-! ## The scan -/

/-- Modes that no line break ends: those of a literal that is in three quotes and is not formatted,
while it is open and behind it. -/
def StringMode.ArePlain (modes : List StringMode) : Prop :=
  modes = [] ∨ ∃ quote, modes = [.text quote true false]

/-- Whether a line break is passed on the way from a text to what is left of it, in modes that it
may end. -/
def Folds (modes : List StringMode) (text : List Char) (stop : Cursor) : Prop :=
  ¬StringMode.ArePlain modes ∧ ∃ body, text = body ++ stop.rest ∧ ∃ c ∈ body, EndsLine c

/-- The cursor behind a closed literal, or where the scan was given up. -/
def StringScan.result : StringScan → Except Cursor Cursor
  | .closed stop => .ok stop
  | .unterminated stop => .error stop

@[simp]
theorem StringScan.result_eq_ok {scan : StringScan} {stop : Cursor} :
    scan.result = .ok stop ↔ scan = .closed stop := by
  cases scan <;> simp [result]

variable {lineBreak : LineBreak} {mode : StringMode} {outer modes modes' : List StringMode}
  {c : Char} {text : List Char} {skip offset : Nat} {stop : Cursor}

namespace StringMode

private theorem not_arePlain (hends : mode.endsAtFeed) : ¬ArePlain (mode :: outer) := by
  rintro (hnil | ⟨quote, hplain⟩)
  · cases hnil
  · cases hplain
    cases hends

private theorem ArePlain.atBreak (hplain : ArePlain (mode :: outer)) :
    ArePlain (mode.atBreak :: outer) := by
  rcases hplain with hnil | ⟨quote, hplain⟩
  · cases hnil
  · cases hplain
    exact .inr ⟨quote, rfl⟩

/-- Literal text in three quotes goes on or is closed. -/
theorem ArePlain.step {following : List Char} (hplain : ArePlain (mode :: outer))
    (hstep : mode.step outer c following = some (skip, modes)) : ArePlain modes := by
  rcases hplain with hnil | ⟨quote, hplain⟩
  · cases hnil
  · cases hplain
    simp only [StringMode.step, Bool.false_eq_true, false_and, not_true_eq_false, and_false, if_false]
      at hstep
    split at hstep
    · cases hstep
      exact .inr ⟨quote, rfl⟩
    split at hstep
    · split at hstep
      · cases hstep
        exact .inl rfl
      · cases hstep
        exact .inr ⟨quote, rfl⟩
    · cases hstep
      exact .inr ⟨quote, rfl⟩

end StringMode

/-- A character more does not undo that a line break is passed. -/
theorem Folds.cons (hfolds : Folds modes' text stop)
    (hplain : StringMode.ArePlain modes → StringMode.ArePlain modes') :
    Folds modes (c :: text) stop := by
  obtain ⟨hmodes, body, rfl, d, hd, hline⟩ := hfolds
  exact ⟨mt hplain hmodes, c :: body, rfl, d, List.mem_cons_of_mem _ hd, hline⟩

/-- What agrees on two texts does so with a character in front of each. -/
theorem folds_agrees_cons {text' : List Char} {c' : Char} {related : Cursor → Cursor → Prop}
    {result result' : Except Cursor Cursor}
    (hagrees : lineBreak.Agrees (Folds modes' text) (Folds modes' text') related result result')
    (hplain : StringMode.ArePlain modes → StringMode.ArePlain modes') :
    lineBreak.Agrees (Folds modes (c :: text)) (Folds modes (c' :: text')) related result result' := by
  apply hagrees.mono
  · exact fun _ _ hstop => hstop
  · exact fun _ _ hfolds => hfolds.imp_right fun hfolds => hfolds.cons hplain
  · exact fun _ _ hfolds => hfolds.imp_right fun hfolds => hfolds.cons hplain

/-- Whoever closes a literal behind a line break has passed it. -/
theorem folds_of_closed (hc : EndsLine c) (hmodes : ¬StringMode.ArePlain modes)
    (hscan : scanStringFrom skip modes' text offset = .closed stop) :
    Folds modes (c :: text) stop := by
  obtain ⟨body, hrest, -⟩ := scanStringFrom_reaches hscan
  obtain rfl : text = body ++ stop.rest := hrest
  exact ⟨hmodes, c :: body, rfl, c, List.mem_cons_self, hc⟩

/-- Two scans that leave the same text of a literal, if they close it. -/
abbrev ScansAgree (lineBreak : LineBreak) (modes : List StringMode) (text text' : List Char) :
    StringScan → StringScan → Prop :=
  fun scan scan' => lineBreak.Agrees (Folds modes text) (Folds modes text')
    (fun stop stop' => stop'.rest = lineBreak.respell stop.rest) scan.result scan'.result

/-- Behind the carriage return of a line break the two scans stand at its other characters. -/
theorem scanStringFrom_behindReturn (offset' : Nat)
    (hmodes : ∀ mode' ∈ mode.atBreak :: outer, mode'.IsQuoted)
    (hagrees : ∀ offset', ScansAgree lineBreak (mode.atBreak :: outer) text (lineBreak.respell text)
      (scanStringFrom 0 (mode.atBreak :: outer) text offset)
      (scanStringFrom 0 (mode.atBreak :: outer) (lineBreak.respell text) offset')) :
    ScansAgree lineBreak (mode.atBreak :: outer) ('\n' :: text)
      ('\r' :: (lineBreak.behindReturn ++ lineBreak.respell text))
      (scanStringFrom 0 (mode.atBreak :: outer) text offset)
      (scanStringFrom 0 (mode.atBreak :: outer) (lineBreak.behindReturn ++ lineBreak.respell text)
        offset') := by
  cases lineBreak with
  | carriageReturn => exact folds_agrees_cons (hagrees offset') id
  | returnFeed =>
    change ScansAgree _ _ _ _ _ (scanStringFrom 0 _ ('\n' :: _) _)
    rw [scanStringFrom.eq_4, StringMode.step_feed _ (hmodes _ List.mem_cons_self),
      StringMode.endsAtFeed_atBreak, StringMode.atBreak_atBreak]
    by_cases hends : mode.endsAtFeed
    · rw [if_pos hends]
      have hplain := @StringMode.not_arePlain mode.atBreak outer (by simpa using hends)
      exact .ofError' fun stop hstop =>
        ⟨rfl, folds_of_closed (.inl rfl) hplain (StringScan.result_eq_ok.mp hstop)⟩
    · rw [if_neg hends]
      apply (hagrees (offset' + '\n'.utf8Size)).mono
      · exact fun _ _ hstop => hstop
      · exact fun _ _ hfolds => hfolds.imp_right fun hfolds => hfolds.cons id
      · exact fun _ _ hfolds => hfolds.imp_right fun hfolds => (hfolds.cons id).cons id

/-- Where both spellings of a literal are closed, the same text of it is left. A line feed among the
characters that are skipped stands behind a backslash. -/
theorem scanStringFrom_agrees (offset offset' : Nat) (hmodes : ∀ mode ∈ modes, mode.IsQuoted)
    (hskip : '\n' ∈ text.take skip →
      skip = 1 ∧ ∃ mode outer, modes = StringMode.atBreak mode :: outer) :
    ScansAgree lineBreak modes text (lineBreak.respell text) (scanStringFrom skip modes text offset)
      (scanStringFrom skip modes (lineBreak.respell text) offset') := by
  induction text generalizing skip modes offset offset' with
  | nil =>
    cases skip with
    | zero =>
      cases modes with
      | nil => exact .ok rfl
      | cons mode outer => exact .error
    | succ skip => exact .error
  | cons c text ih =>
    by_cases hc : c = '\n'
    · subst hc
      rw [respell_feed]
      cases skip with
      | succ skip =>
        obtain ⟨hone, mode, outer, rfl⟩ := hskip (by simp)
        obtain rfl : skip = 0 := by omega
        exact scanStringFrom_behindReturn _ hmodes fun _ => ih _ _ hmodes (by simp)
      | zero =>
        cases modes with
        | nil => exact .ok (respell_feed _).symm
        | cons mode outer =>
          obtain ⟨hmode, houter⟩ := List.forall_mem_cons.mp hmodes
          have hbreak := List.forall_mem_cons.mpr ⟨StringMode.isQuoted_atBreak hmode, houter⟩
          have hagrees : ScansAgree lineBreak _ _ _ _ _ :=
            scanStringFrom_behindReturn (offset' + '\r'.utf8Size) hbreak fun _ =>
              ih (offset + '\n'.utf8Size) _ hbreak (by simp)
          rw [scanStringFrom, scanStringFrom, StringMode.step_feed mode hmode,
            StringMode.step_return mode hmode]
          by_cases hends : mode.endsAtFeed
          · rw [if_pos hends]
            cases lineBreak with
            | carriageReturn =>
              exact .ofError fun stop hstop => ⟨rfl, folds_of_closed (.inr rfl)
                (StringMode.not_arePlain hends) (StringScan.result_eq_ok.mp hstop)⟩
            | returnFeed =>
              change ScansAgree _ _ _ _ _ (scanStringFrom 0 _ ('\n' :: _) _)
              rw [scanStringFrom.eq_4, StringMode.step_feed _ (hbreak _ List.mem_cons_self),
                StringMode.endsAtFeed_atBreak, if_pos hends]
              exact .error
          · rw [if_neg hends]
            have hplain : ∀ {text : List Char} {stop : Cursor},
                Folds (mode.atBreak :: outer) text stop → Folds (mode :: outer) text stop :=
              fun hfolds => hfolds.imp_left (mt StringMode.ArePlain.atBreak)
            apply hagrees.mono
            · exact fun _ _ hstop => hstop
            · exact fun _ _ hfolds => hfolds.imp_right hplain
            · exact fun _ _ hfolds => hfolds.imp_right hplain
    · rw [respell_cons hc]
      cases skip with
      | succ skip =>
        refine folds_agrees_cons (ih _ _ hmodes fun hmem => ?_) id
        have hone := (hskip (by simp [hmem])).1
        obtain rfl : skip = 0 := by omega
        simp at hmem
      | zero =>
        cases modes with
        | nil => exact .ok (respell_cons hc _).symm
        | cons mode outer =>
          obtain ⟨hmode, houter⟩ := List.forall_mem_cons.mp hmodes
          rw [scanStringFrom, scanStringFrom, StringMode.step_respell hmode]
          cases hstep : mode.step outer c text with
          | none => exact .error
          | some result =>
            obtain ⟨skip, modes⟩ := result
            have hquoted := StringMode.step_isQuoted hmode houter hstep
            refine folds_agrees_cons (ih _ _ hquoted fun hmem => ?_) fun hplain => hplain.step hstep
            by_cases hback : c = '\\'
            · subst hback
              rw [StringMode.step_backslash] at hstep
              cases hstep
              exact ⟨rfl, mode, outer, rfl⟩
            · exact absurd hmem (StringMode.feed_notMem_skip hmode hback hstep)

/-! ## Closed literals -/

/-- The quotes on one side of a literal. -/
def quotes (quote : Char) (triple : Bool) : List Char :=
  if triple then [quote, quote, quote] else [quote]

/-- A character leaves the modes around its own as they are. -/
theorem StringMode.step_suffix {mode : StringMode} {outer : List StringMode} {c : Char}
    {following : List Char} (hstep : mode.step outer c following = some (skip, modes)) :
    outer <:+ modes := by
  cases mode <;> simp only [step] at hstep <;> repeat' split at hstep
  all_goals simp only [Option.some.injEq, Prod.mk.injEq, reduceCtorEq] at hstep
  all_goals
    obtain ⟨-, rfl⟩ := hstep
    simp [List.suffix_cons_iff]

/-- A character keeps the text of a literal open, or closes it with its last quotes. -/
theorem StringMode.step_text {quote c : Char} {triple formatted : Bool} {mode : StringMode}
    {outer : List StringMode} {following : List Char}
    (hlast : (mode :: outer).getLast? = some (.text quote triple formatted))
    (hstep : mode.step outer c following = some (skip, modes)) :
    modes.getLast? = some (.text quote triple formatted) ∨
      modes = [] ∧ ∃ closing after, quotes quote triple = c :: closing ∧
        following = closing ++ after ∧ skip = closing.length := by
  by_cases houter : outer = []
  · subst houter
    obtain rfl : mode = .text quote triple formatted := by simpa using hlast
    simp only [step] at hstep
    split at hstep
    · cases hstep
      exact .inl rfl
    split at hstep
    · cases hstep
    split at hstep
    · split at hstep
      · cases hstep
        exact .inl rfl
      · split at hstep <;> cases hstep <;> exact .inl rfl
    split at hstep
    · rename_i hquote
      subst hquote
      split at hstep
      · rename_i hsingle
        cases hstep
        exact .inr ⟨rfl, [], following, by simp [quotes, hsingle], rfl, rfl⟩
      · rename_i htriple
        split at hstep
        · rename_i hstarts
          cases hstep
          obtain ⟨after, rfl⟩ := List.isPrefixOf_iff_prefix.mp hstarts
          exact .inr ⟨rfl, [c, c], after, by simpa [quotes] using htriple, rfl, rfl⟩
        · cases hstep
          exact .inl rfl
    · cases hstep
      exact .inl rfl
  · obtain ⟨front, rfl⟩ := step_suffix hstep
    rw [List.getLast?_append_of_ne_nil _ houter]
    obtain ⟨head, others, rfl⟩ := List.exists_cons_of_ne_nil houter
    exact .inl (by rwa [List.getLast?_cons_cons] at hlast)

/-- Behind the last mode only the characters that belong to it are passed. -/
theorem scanStringFrom_nil {closing after : List Char} {offset : Nat} {stop : Cursor}
    (hscan : scanStringFrom closing.length [] (closing ++ after) offset = .closed stop) :
    stop.rest = after := by
  induction closing generalizing offset with
  | nil =>
    rw [List.length_nil, List.nil_append, scanStringFrom] at hscan
    cases hscan
    rfl
  | cons c closing ih => exact ih hscan

/-- A literal that is closed ends with its quotes. -/
theorem scanStringFrom_closed {quote : Char} {triple formatted : Bool} {offset : Nat} {stop : Cursor}
    (hlast : modes.getLast? = some (.text quote triple formatted))
    (hscan : scanStringFrom skip modes text offset = .closed stop) :
    ∃ body, text = body ++ (quotes quote triple ++ stop.rest) := by
  fun_induction scanStringFrom skip modes text offset with
  | case1 => cases hlast
  | case2 => cases hscan
  | case3 skip modes c cs offset ih =>
    obtain ⟨body, rfl⟩ := ih hlast hscan
    exact ⟨c :: body, rfl⟩
  | case4 => cases hscan
  | case5 mode outer c cs offset skip modes hstep ih =>
    rcases StringMode.step_text hlast hstep with hopen | ⟨rfl, closing, after, hquotes, rfl, rfl⟩
    · obtain ⟨body, rfl⟩ := ih hopen hscan
      exact ⟨c :: body, rfl⟩
    · refine ⟨[], ?_⟩
      rw [hquotes, scanStringFrom_nil hscan]
      rfl

/-- The parts of a string literal as it is written: a prefix, and a text between quotes. Single
quotes are not the first of three. -/
structure Written (raw letters : List Char) (quote : Char) (triple : Bool) (body : List Char) :
    Prop where
  raw_eq : raw = letters ++ (quotes quote triple ++ (body ++ quotes quote triple))
  single : ¬triple → ¬[quote, quote].isPrefixOf (body ++ quotes quote triple)
  isQuote_quote : isQuote quote
  not_isQuote : ∀ c ∈ letters, ¬isQuote c

/-- A literal may have letters in front. -/
theorem Written.behind {raw letters body : List Char} {quote : Char} {triple : Bool}
    (hwritten : Written raw [] quote triple body) (hletters : ∀ c ∈ letters, ¬isQuote c) :
    Written (letters ++ raw) letters quote triple body where
  raw_eq := by rw [hwritten.raw_eq, List.nil_append]
  single := hwritten.single
  isQuote_quote := hwritten.isQuote_quote
  not_isQuote := hletters

/-- An opening starts with its quote. -/
theorem quotes_eq_cons (quote : Char) (triple : Bool) :
    ∃ others, quotes quote triple = quote :: others := by
  cases triple
  · exact ⟨_, rfl⟩
  · exact ⟨_, rfl⟩

private theorem respell_quotes {quote : Char} (triple : Bool) (hquote : isQuote quote) :
    lineBreak.respell (quotes quote triple) = quotes quote triple := by
  have hne := (StringMode.ne_of_isQuote hquote).1.symm
  apply respell_eq_self
  cases triple <;> simp [quotes, hne]

/-- The parts of a literal that is written anew are the parts of it, written anew. -/
theorem Written.respell {raw letters body : List Char} {quote : Char} {triple : Bool}
    (hwritten : Written raw letters quote triple body) :
    Written (lineBreak.respell raw) (lineBreak.respell letters) quote triple
      (lineBreak.respell body) where
  raw_eq := by
    rw [hwritten.raw_eq]
    simp only [respell_append, respell_quotes triple hwritten.isQuote_quote]
  single := by
    intro hsingle hstarts
    apply hwritten.single hsingle
    have hline := StringMode.ne_of_isQuote hwritten.isQuote_quote
    rw [← respell_quotes triple hwritten.isQuote_quote, ← respell_append,
      isPrefixOf_respell (by simpa using hline)] at hstarts
    exact hstarts
  isQuote_quote := hwritten.isQuote_quote
  not_isQuote := by
    have hnone : letters.any isQuote = false := by simpa using hwritten.not_isQuote
    have hrespelled : (lineBreak.respell letters).any isQuote = false := by
      rw [any_respell rfl, hnone]
    simpa using hrespelled

/-- A string literal that is closed is written with quotes on both of its sides. -/
theorem scanString_written {formatted : Bool} {cursor stop : Cursor} {text : List Char}
    (hquote : cursor.peek?.any isQuote) (hscan : scanString formatted cursor = .closed stop)
    (hpasses : cursor.Passes text stop) :
    ∃ quote triple body, Written text [] quote triple body := by
  obtain ⟨rest, offset⟩ := cursor
  cases rest with
  | nil => cases hquote
  | cons quote cs =>
    have hrest := hpasses.rest_eq
    dsimp only at hrest
    simp only [scanString, StringMode.openText] at hscan
    by_cases hstarts : [quote, quote].isPrefixOf cs
    · obtain ⟨cs, rfl⟩ := List.isPrefixOf_iff_prefix.mp hstarts
      rw [if_pos hstarts] at hscan
      have hscan : scanStringFrom 0 [.text quote true formatted] cs _ = .closed stop := hscan
      obtain ⟨body, rfl⟩ := scanStringFrom_closed rfl hscan
      refine ⟨quote, true, body, List.append_cancel_right (hrest.symm.trans ?_), by simp, hquote,
        by simp⟩
      simp [quotes]
    · rw [if_neg hstarts] at hscan
      obtain ⟨body, rfl⟩ := scanStringFrom_closed rfl hscan
      refine ⟨quote, false, body, List.append_cancel_right (hrest.symm.trans ?_),
        fun _ hsingle => ?_, hquote, by simp⟩
      · simp [quotes]
      · apply hstarts
        rw [List.isPrefixOf_iff_prefix] at hsingle ⊢
        rw [← List.append_assoc]
        exact hsingle.trans (List.prefix_append _ _)

/-- Before the first quote of a literal stands its prefix. -/
theorem span_isQuote {letters text : List Char} {quote : Char} (hletters : ∀ c ∈ letters, ¬isQuote c)
    (hquote : isQuote quote) :
    (letters ++ quote :: text).span (fun c => !isQuote c) = (letters, quote :: text) := by
  have hletters : ∀ c ∈ letters, (!isQuote c) = true := by simpa using hletters
  rw [List.span_eq_takeWhile_dropWhile, List.takeWhile_append_of_pos hletters,
    List.dropWhile_append_of_pos hletters]
  simp [hquote]

/-- The prefix of a literal is what stands in front of its first quote. -/
theorem Written.span_eq {raw letters body : List Char} {quote : Char} {triple : Bool}
    (hwritten : Written raw letters quote triple body) :
    raw.span (fun c => !isQuote c) =
      (letters, quotes quote triple ++ (body ++ quotes quote triple)) := by
  obtain ⟨others, hquotes⟩ := quotes_eq_cons quote triple
  rw [hwritten.raw_eq, hquotes, List.cons_append]
  exact span_isQuote hwritten.not_isQuote hwritten.isQuote_quote

/-- Whether a literal goes over lines and is in single quotes or formatted. In the fields of a
formatted literal there may be others in single quotes. -/
def Folded (raw : List Char) : Prop :=
  (∃ c ∈ raw, EndsLine c) ∧
    ∀ letters quote body, Written raw letters quote true body → announcesFormatted letters

/-- What is folded when it is scanned is so when it is written. -/
theorem Folds.folded {letters text : List Char} {quote : Char} {stop : Cursor} {body : List Char}
    (hfolds : Folds [(StringMode.openText quote (announcesFormatted letters) text).1] text stop)
    (htext : text = body ++ stop.rest) (hquote : isQuote quote)
    (hletters : ∀ c ∈ letters, ¬isQuote c) : Folded (letters ++ quote :: body) := by
  obtain ⟨hplain, body', hbody, c, hc, hline⟩ := hfolds
  obtain rfl : body' = body := List.append_cancel_right (hbody.symm.trans htext)
  refine ⟨⟨c, by simp [hc], hline⟩, fun letters' quote' body hwritten => ?_⟩
  have hspan := @span_isQuote letters body' quote hletters hquote
  rw [hwritten.span_eq, Prod.mk.injEq, quotes, if_pos rfl] at hspan
  obtain ⟨rfl, hquotes⟩ := hspan
  obtain ⟨rfl, rfl⟩ := List.cons.inj hquotes
  have hstarts : [quote', quote'].isPrefixOf text := by simp [htext]
  rw [StringMode.openText, if_pos hstarts] at hplain
  by_cases hformatted : announcesFormatted letters'
  · exact hformatted
  · rw [Bool.not_eq_true] at hformatted
    exact absurd (.inr ⟨quote', by rw [hformatted]⟩) hplain

/-- A string literal is read with either line break or not, and where it is read with both the same
text of it is passed. -/
theorem string_agrees {cursor cursor' : Cursor} {letters : List Char} (start start' : Nat)
    (hletters : ∀ c ∈ letters, ¬isQuote c) (hquote : cursor.peek?.any isQuote)
    (hrest : cursor'.rest = lineBreak.respell cursor.rest) :
    lineBreak.Agrees (fun ending => Folded (letters ++ cursor.textTo ending.2))
      (fun ending' => Folded (letters ++ cursor'.textTo ending'.2))
      (fun ending ending' => ending.1 = .literalString ∧ ending'.1 = .literalString ∧
        ending'.2.rest = lineBreak.respell ending.2.rest)
      (Lexer.string start (announcesFormatted letters) cursor)
      (Lexer.string start' (announcesFormatted letters) cursor') := by
  have hscan : lineBreak.Agrees (fun stop => Folded (letters ++ cursor.textTo stop))
      (fun stop' => Folded (letters ++ cursor'.textTo stop'))
      (fun stop stop' => stop'.rest = lineBreak.respell stop.rest)
      (scanString (announcesFormatted letters) cursor).result
      (scanString (announcesFormatted letters) cursor').result := by
    obtain ⟨⟨rest, offset⟩, ⟨rest', offset'⟩⟩ := cursor, cursor'
    obtain rfl : rest' = lineBreak.respell rest := hrest
    cases rest with
    | nil => cases hquote
    | cons quote cs =>
      have hquote : isQuote quote := hquote
      have hline := StringMode.ne_of_isQuote hquote
      have hopens : StringMode.openText quote (announcesFormatted letters) (lineBreak.respell cs) =
          StringMode.openText quote (announcesFormatted letters) cs := by
        rw [StringMode.openText, StringMode.openText, isPrefixOf_respell (by simpa using hline)]
      have hfolded : ∀ {cs : List Char} {offset : Nat} {stop : Cursor},
          (scanString (announcesFormatted letters) ⟨quote :: cs, offset⟩).result = .ok stop →
          Folds [(StringMode.openText quote (announcesFormatted letters) cs).1] cs stop →
          Folded (letters ++ (⟨quote :: cs, offset⟩ : Cursor).textTo stop) := by
        intro cs offset stop hresult hfolds
        obtain ⟨text, hpasses⟩ := scanStringFrom_reaches (StringScan.result_eq_ok.mp hresult)
        rw [Cursor.Passes.textTo_eq (Cursor.Passes.cons hpasses)]
        exact hfolds.folded hpasses.rest_eq hquote hletters
      have hagrees : lineBreak.Agrees
          (Folds [(StringMode.openText quote (announcesFormatted letters) cs).1] cs)
          (Folds [(StringMode.openText quote (announcesFormatted letters) cs).1] (lineBreak.respell cs))
          (fun stop stop' => stop'.rest = lineBreak.respell stop.rest)
          (scanString (announcesFormatted letters) ⟨quote :: cs, offset⟩).result
          (scanString (announcesFormatted letters) ⟨quote :: lineBreak.respell cs, offset'⟩).result := by
        simp only [scanString, hopens]
        apply scanStringFrom_agrees
        · rw [StringMode.openText]
          split <;> simpa [StringMode.IsQuoted] using hquote
        · rw [StringMode.openText]
          split
          · exact fun hmem => absurd hmem (StringMode.feed_notMem_quotes hquote ‹_›)
          · simp
      rw [respell_cons hline.1]
      apply hagrees.mono
      · exact fun _ _ hstop => hstop
      · exact fun stop hresult hfolds => hfolds.imp_right (hfolded hresult)
      · rw [← hopens]
        exact fun stop hresult hfolds => hfolds.imp_right (hfolded hresult)
  rw [Lexer.string_eq, Lexer.string_eq]
  cases hresult : scanString (announcesFormatted letters) cursor <;>
    cases hresult' : scanString (announcesFormatted letters) cursor' <;>
    rw [hresult, hresult'] at hscan <;> cases hscan
  · exact .ok ⟨rfl, rfl, ‹_›⟩
  · exact .onlyFirst ‹_›
  · exact .onlySecond ‹_›
  · exact .error

end PythonOutline
