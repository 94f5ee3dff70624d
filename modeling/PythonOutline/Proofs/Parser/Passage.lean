import PythonOutline.Proofs.Parser.Parallel
import PythonOutline.Proofs.Parser.Takes
import PythonOutline.Proofs.Tree.AlikeWithoutSpans

/-! # Runs of tokens that stand in two places

A passage is a run of tokens that stands in two token sequences, in each of them in front of a
closing token. The closing tokens mean the same, or both of them end an entry of a dict display.
What a parser reads inside a passage it reads in the other sequence too, if it asks for nothing that
tells the closing tokens apart. So a parser carries over what it reads up to the closing token or to
the end of it, or what it reads up to a margin in front, where it may ask for any token. -/

namespace PythonOutline

open PythonOutline.Parser

/-- A token ends an entry of a dict display. -/
def TokenKind.EndsEntry (kind : TokenKind) : Prop :=
  kind = .comma ∨ kind = .braceClose

instance {kind : TokenKind} : Decidable kind.EndsEntry :=
  inferInstanceAs (Decidable (_ ∨ _))

/-- Behind the tokens of a sequence nothing ends an entry. -/
theorem Tokens.lt_size_of_endsEntry {tokens : Tokens} {index : Nat}
    (hends : (tokens.get index).kind.EndsEntry) : index < tokens.tokens.size := by
  by_contra hle
  rw [Tokens.get, Array.getElem?_eq_none (Nat.le_of_not_lt hle)] at hends
  rcases hends with hends | hends <;> cases hends

/-- Every span has another one that stands for it, and texts and patterns stand for themselves. -/
structure Likeness.Total (like : Likeness) : Prop where
  span : ∀ span, ∃ span', like.span span span'
  text : ∀ text, like.text text text
  pattern : ∀ pattern, like.pattern pattern pattern

/-- Every span can be moved. -/
theorem Likeness.moved_total : moved.Total where
  span span := ⟨span, trivial⟩
  text _ := rfl
  pattern _ := rfl

/-- Tokens of one kind and text are alike up to a move. -/
theorem Token.alike_moved {token token' : Token} (hkind : token'.kind = token.kind)
    (htext : token'.text = token.text) : token.Alike .moved token' where
  kind_eq := hkind
  span _ := trivial
  text_eq _ := htext
  string _ := by
    rw [htext]
    exact ⟨rfl, rfl, rfl⟩

/-- Items with commas between them are read up to a closing token if there are no more of them than
tokens. -/
theorem Parser.Lists.reads {α : Type} {close : TokenKind} {item : Parser α} {tokens : Tokens}
    {before after : Place} {values : List α} (hlists : Lists close item tokens before values after)
    (hcomma : close ≠ .comma) (hlength : values.length ≤ tokens.tokens.size) :
    (listUntil close item).Reads tokens before values after := by
  suffices hiterates : ∀ items : List α, ∃ count ≤ values.length,
      Iterates (listStep close item) tokens count items before (items.reverse ++ values) after by
    obtain ⟨count, hcount, hiterates⟩ := hiterates []
    exact reads_iterate.mpr ⟨count, Nat.le_trans hcount hlength, hiterates⟩
  clear hlength
  induction hlists with
  | close hclose => exact fun items => ⟨0, Nat.zero_le _, .done (by simp [hclose])⟩
  | @last before middle value hopen hitem hclose =>
    refine fun items => ⟨0, Nat.zero_le _, .done ?_⟩
    rw [reads_accept_bind, if_neg hopen]
    refine reads_bind.mpr ⟨value, middle, hitem, ?_⟩
    simp [hclose, hcomma]
  | @item before middle after value values hopen hitem hbehind _ ih =>
    intro items
    obtain ⟨count, hcount, hiterates⟩ := ih (value :: items)
    rw [List.reverse_cons, List.append_assoc] at hiterates
    refine ⟨count + 1, Nat.succ_le_succ hcount, .next ?_ hiterates⟩
    rw [reads_accept_bind, if_neg hopen]
    refine reads_bind.mpr ⟨value, middle, hitem, ?_⟩
    simp [hbehind]

/-- A run of tokens that stands in two token sequences. -/
structure Passage where
  /-- How the trees that are read in the two sequences may differ. -/
  like : Likeness
  tokens : Tokens
  tokens' : Tokens
  /-- Where the run starts. -/
  start : Nat
  start' : Nat
  /-- The number of tokens in front of the closing one. -/
  length : Nat
  total : like.Total
  ordered : tokens.InOrder
  alike : ∀ index < length,
    (tokens.get (start + index)).Alike like (tokens'.get (start' + index))
  closing : (tokens.get (start + length)).Alike like (tokens'.get (start' + length)) ∧
        ¬(tokens.get (start + length)).kind.isSignificant ∨
      (tokens.get (start + length)).kind.EndsEntry ∧ (tokens'.get (start' + length)).kind.EndsEntry
  spans : ∀ first, ∀ last ≤ length + 1,
    like.span (tokens.spanBetween (start + first) (start + last))
      (tokens'.spanBetween (start' + first) (start' + last))
  lt_size : start' + length < tokens'.tokens.size

namespace Passage

variable {α α' β β' : Type}

/-- Two places stand the same number of tokens behind the starts of a passage. -/
structure At (passage : Passage) (offset : Nat) (place place' : Place) : Prop where
  next_eq : place.next = passage.start + offset
  next_eq' : place'.next = passage.start' + offset

/-- The closing tokens mean the same, and hold no text. -/
def Closed (passage : Passage) : Prop :=
  (passage.tokens.get (passage.start + passage.length)).Alike passage.like
      (passage.tokens'.get (passage.start' + passage.length)) ∧
    ¬(passage.tokens.get (passage.start + passage.length)).kind.isSignificant

/-- Up to one token more than a margin in front of the end, the next token is known in
both sequences. -/
def Sure (passage : Passage) (margin : Nat) : Prop :=
  0 < margin ∨ passage.Closed

/-- Two marks stand the same number of tokens behind the starts of a passage. -/
def Marks (passage : Passage) (mark mark' : Nat) : Prop :=
  ∃ offset, mark = passage.start + offset ∧ mark' = passage.start' + offset

/-- What a parser reads from a place in a passage on, another one reads in the other sequence, if it
ends no less than a margin in front of the end of the closing token. The values are related, and no
less than a number of tokens is taken for them. -/
def Carries (passage : Passage) (margin least : Nat) (related : α → α' → Prop) (parser : Parser α)
    (parser' : Parser α') : Prop :=
  ∀ ⦃offset before before'⦄, passage.At offset before before' →
    ∀ ⦃value after⦄, parser.Reads passage.tokens before value after →
      ∃ stop value' after', offset + least ≤ stop ∧ passage.At stop after after' ∧
        related value value' ∧
        (stop + margin ≤ passage.length + 1 →
          parser'.Reads passage.tokens' before' value' after')

variable {passage : Passage} {margin least least' offset : Nat} {place place' : Place}

/-- With a margin, the next token is always known. -/
theorem sure_succ : passage.Sure (margin + 1) :=
  .inl (Nat.succ_pos margin)

/-- With closing tokens that mean the same, the next token is known without a margin. -/
theorem Closed.sure (hclosed : passage.Closed) : passage.Sure margin :=
  .inr hclosed

/-- Every token has one that is like it. -/
theorem exists_alike (passage : Passage) (token : Token) :
    ∃ token', token.Alike passage.like token' := by
  obtain ⟨span, hspan⟩ := passage.total.span token.span
  exact ⟨{ token with span }, rfl, fun _ => hspan, fun _ => rfl,
    fun _ => ⟨passage.total.text _, rfl, rfl⟩⟩

/-- Looking ahead does not move a place. -/
theorem At.look (hat : passage.At offset place place') (distance distance' : Nat) :
    passage.At offset (place.look distance) (place'.look distance') :=
  ⟨hat.next_eq, hat.next_eq'⟩

/-- Places move together. -/
theorem At.step (hat : passage.At offset place place') :
    passage.At (offset + 1) place.step place'.step := by
  constructor
  · rw [Place.step_next, hat.next_eq, Nat.add_assoc]
  · rw [Place.step_next, hat.next_eq', Nat.add_assoc]

/-- Inside a passage stand the same tokens. -/
theorem At.alike (hat : passage.At offset place place') (hlt : offset < passage.length) :
    (passage.tokens.get place.next).Alike passage.like (passage.tokens'.get place'.next) := by
  rw [hat.next_eq, hat.next_eq']
  exact passage.alike offset hlt

/-- The tokens at the same place in the passage are of one kind. -/
theorem At.kindAt_eq (hat : passage.At offset place place') (hlt : offset < passage.length) :
    passage.tokens'.kindAt place' = passage.tokens.kindAt place :=
  (hat.alike hlt).kind_eq

/-- The closing tokens are the same too, if this is known. -/
theorem At.alike_of_sure (hat : passage.At offset place place') (hsure : passage.Sure margin)
    (hle : offset + margin ≤ passage.length) :
    (passage.tokens.get place.next).Alike passage.like (passage.tokens'.get place'.next) := by
  rcases Nat.lt_or_eq_of_le (Nat.le_of_add_right_le hle) with hlt | rfl
  · exact hat.alike hlt
  · rw [hat.next_eq, hat.next_eq']
    exact (hsure.resolve_left (by omega)).1

/-- The tokens at the same place are alike, the first closing one included. -/
theorem At.alike_of_closed (hat : passage.At offset place place') (hclosed : passage.Closed)
    (hle : offset ≤ passage.length) :
    (passage.tokens.get place.next).Alike passage.like (passage.tokens'.get place'.next) :=
  @At.alike_of_sure _ 0 _ _ _ hat hclosed.sure hle

/-- A token with text stands in front of the closing one, if this holds none. -/
theorem At.lt_of_isSignificant (hat : passage.At offset place place') (hclosed : passage.Closed)
    (hle : offset ≤ passage.length) (hkind : (passage.tokens.kindAt place).isSignificant) :
    offset < passage.length := by
  refine Nat.lt_of_le_of_ne hle ?_
  rintro rfl
  rw [Tokens.kindAt, hat.next_eq] at hkind
  exact hclosed.2 hkind

/-- Two kinds of tokens at the same place are the same, or both end an entry. -/
inductive Meet (passage : Passage) (margin : Nat) (kind : TokenKind) : TokenKind → Prop
  | same : Meet passage margin kind kind
  | ends {kind' : TokenKind} (hunsure : ¬passage.Sure margin) (hkind : kind.EndsEntry)
      (hkind' : kind'.EndsEntry) : Meet passage margin kind kind'

private theorem At.meets (hat : passage.At offset place place')
    (hle : offset + margin ≤ passage.length) :
    (passage.tokens.get place.next).Alike passage.like (passage.tokens'.get place'.next) ∨
      ¬passage.Sure margin ∧ (passage.tokens.kindAt place).EndsEntry ∧
        (passage.tokens'.kindAt place').EndsEntry := by
  by_cases hsure : passage.Sure margin
  · exact .inl (hat.alike_of_sure hsure hle)
  · rcases Nat.lt_or_eq_of_le (Nat.le_of_add_right_le hle) with hlt | rfl
    · exact .inl (hat.alike hlt)
    · refine .inr ⟨hsure, ?_⟩
      rw [Tokens.kindAt, Tokens.kindAt, hat.next_eq, hat.next_eq']
      exact passage.closing.resolve_left fun hclosed => hsure (.inr hclosed)

private theorem At.meet (hat : passage.At offset place place')
    (hle : offset + margin ≤ passage.length) :
    passage.Meet margin (passage.tokens.kindAt place) (passage.tokens'.kindAt place') := by
  rcases hat.meets hle with halike | ⟨hunsure, hkind, hkind'⟩
  · rw [show passage.tokens'.kindAt place' = passage.tokens.kindAt place from halike.kind_eq]
    exact .same
  · exact .ends hunsure hkind hkind'

/-- A kind that no token behind an entry has is met in both sequences or in none, and so is every
kind where the next token is known. -/
theorem Meet.eq_iff {kind kind' other : TokenKind} (hmeet : passage.Meet margin kind kind')
    (hother : ¬other.EndsEntry ∨ passage.Sure margin) : kind' = other ↔ kind = other := by
  cases hmeet with
  | same => rfl
  | ends hunsure hkind hkind' =>
    have hother := hother.resolve_right hunsure
    have hne : kind ≠ other := fun heq => hother (heq ▸ hkind)
    have hne' : kind' ≠ other := fun heq => hother (heq ▸ hkind')
    simp [hne, hne']

private theorem Meet.beq_eq {kind kind' other : TokenKind} (hmeet : passage.Meet margin kind kind')
    (hother : ¬other.EndsEntry ∨ passage.Sure margin) : (kind' == other) = (kind == other) := by
  rw [Bool.eq_iff_iff, beq_iff_eq, beq_iff_eq, hmeet.eq_iff hother]

/-- Two tokens in a row at the same place mean the same, as far as they stand in the passage. -/
inductive MeetTwo (passage : Passage) (margin : Nat) (first second first' second' : Token) : Prop
  | alike (hfirst : first.Alike passage.like first')
      (hsecond : passage.Meet 0 second.kind second'.kind) :
    MeetTwo passage margin first second first' second'
  | closing (hmargin : margin = 0) (hfirst : first.Alike passage.like first')
      (hkind : ¬first.kind.isSignificant) : MeetTwo passage margin first second first' second'
  | ends (hunsure : ¬passage.Sure margin) (hfirst : first.kind.EndsEntry)
      (hfirst' : first'.kind.EndsEntry) : MeetTwo passage margin first second first' second'

private theorem At.meetTwo (hat : passage.At offset place place')
    (hle : offset + margin ≤ passage.length) :
    passage.MeetTwo margin (passage.tokens.get place.next) (passage.tokens.get (place.next + 1))
      (passage.tokens'.get place'.next) (passage.tokens'.get (place'.next + 1)) := by
  rcases Nat.lt_or_eq_of_le (Nat.le_of_add_right_le hle) with hlt | rfl
  · exact .alike (hat.alike hlt) (hat.step.meet hlt)
  · by_cases hsure : passage.Sure margin
    · have hkind := (hsure.resolve_left (by omega)).2
      rw [← hat.next_eq] at hkind
      exact .closing (by omega) (hat.alike_of_sure hsure hle) hkind
    · have hends := passage.closing.resolve_left fun hclosed => hsure (.inr hclosed)
      rw [← hat.next_eq, ← hat.next_eq'] at hends
      exact .ends hsure hends.1 hends.2

/-- Of two tokens that mean the same, so does the first one. -/
theorem MeetTwo.first_meet {first second first' second' : Token}
    (hmeet : passage.MeetTwo margin first second first' second') :
    passage.Meet margin first.kind first'.kind := by
  cases hmeet with
  | alike hfirst =>
    rw [hfirst.kind_eq]
    exact .same
  | closing _ hfirst =>
    rw [hfirst.kind_eq]
    exact .same
  | ends hunsure hfirst hfirst' => exact .ends hunsure hfirst hfirst'

/-- Kinds that no closing token has are met one behind the other in both sequences or in none. -/
theorem MeetTwo.both_iff {first second first' second' : Token} {kind other : TokenKind}
    (hmeet : passage.MeetTwo margin first second first' second') (hkind : kind.isSignificant)
    (hends : ¬kind.EndsEntry) (hother : ¬other.EndsEntry) :
    first'.kind = kind ∧ second'.kind = other ↔ first.kind = kind ∧ second.kind = other := by
  have hfirst := hmeet.first_meet.eq_iff (.inl hends)
  cases hmeet with
  | alike _ hsecond => rw [hfirst, hsecond.eq_iff (.inl hother)]
  | closing _ _ hclosing =>
    have hne : first.kind ≠ kind := fun heq => hclosing (heq ▸ hkind)
    simp [hfirst, hne]
  | ends _ hfirstEnds =>
    have hne : first.kind ≠ kind := fun heq => hends (heq ▸ hfirstEnds)
    simp [hfirst, hne]

namespace Carries

variable {related : α → α' → Prop} {relatedNext : β → β' → Prop}
  {first other : Parser α} {first' other' : Parser α'} {others : α → Parser β}
  {others' : α' → Parser β'}

/-- What a parser carries over it carries over up to a wider margin too. -/
theorem widen {margin' : Nat} (hfirst : passage.Carries margin least related first first')
    (hmargin : margin ≤ margin') : passage.Carries margin' least related first first' := by
  intro offset before before' hat value after hreads
  obtain ⟨stop, value', after', hle, hstop, hvalue, hreads'⟩ := hfirst hat hreads
  exact ⟨stop, value', after', hle, hstop, hvalue, fun hstops => hreads' (by omega)⟩

/-- What is carried up to a margin is carried up to a wider one. -/
theorem inside (hfirst : passage.Carries margin least related first first') :
    passage.Carries (margin + 1) least related first first' :=
  hfirst.widen (Nat.le_succ margin)

/-- What is carried takes fewer tokens, and is related in a weaker way, as well. -/
theorem mono {related' : α → α' → Prop} (hfirst : passage.Carries margin least related first first')
    (hleast : least' ≤ least)
    (hrelated : ∀ value value', related value value' → related' value value') :
    passage.Carries margin least' related' first first' := by
  intro offset before before' hat value after hreads
  obtain ⟨stop, value', after', hle, hstop, hvalue, hreads'⟩ := hfirst hat hreads
  exact ⟨stop, value', after', by omega, hstop, hrelated _ _ hvalue, hreads'⟩

/-- What takes some tokens takes no less than fewer of them. -/
theorem least_le (hfirst : passage.Carries margin least related first first')
    (hleast : least' ≤ least) : passage.Carries margin least' related first first' :=
  hfirst.mono hleast fun _ _ hvalue => hvalue

theorem pure {value : α} {value' : α'} (hvalue : related value value') :
    passage.Carries margin 0 related (Pure.pure value) (Pure.pure value') := by
  intro offset before before' hat result after hreads
  obtain ⟨rfl, rfl⟩ := reads_pure.mp hreads
  exact ⟨offset, value', before', Nat.le_refl _, hat, hvalue, fun _ => reads_pure.mpr ⟨rfl, rfl⟩⟩

/-- What fails reads nothing that could be carried. -/
theorem throw {error : SyntaxError} :
    passage.Carries margin least related (MonadExcept.throw error : Parser α) first' :=
  fun _ _ _ _ _ _ hreads => (reads_throw.mp hreads).elim

/-- One parser after another. As many tokens as the second one takes are a margin for the
first one. -/
theorem seq {extra : Nat} (hfirst : passage.Carries (margin + extra) least related first first')
    (hothers : ∀ value value', related value value' →
      passage.Carries margin least' relatedNext (others value) (others' value'))
    (hextra : extra ≤ least') :
    passage.Carries margin (least + least') relatedNext (first >>= others) (first' >>= others') := by
  intro offset before before' hat result after hreads
  obtain ⟨value, middle, hvalue, hrest⟩ := reads_bind.mp hreads
  obtain ⟨half, value', middle', hhalf, hmiddle, hrelated, hvalue'⟩ := hfirst hat hvalue
  obtain ⟨stop, result', after', hstop, hafter, hresult, hrest'⟩ :=
    hothers value value' hrelated hmiddle hrest
  refine ⟨stop, result', after', by omega, hafter, hresult, fun hmargin => ?_⟩
  exact reads_bind.mpr ⟨value', middle', hvalue' (by omega), hrest' hmargin⟩

/-- One parser after another, where the second one tells how many tokens are taken. -/
theorem bind (hfirst : passage.Carries margin least' related first first')
    (hothers : ∀ value value', related value value' →
      passage.Carries margin least relatedNext (others value) (others' value')) :
    passage.Carries margin least relatedNext (first >>= others) (first' >>= others') :=
  (@seq _ _ _ _ _ _ _ _ _ _ _ _ _ _ 0 hfirst hothers (Nat.zero_le _)).least_le
    (Nat.le_add_left _ _)

/-- One parser after another, where the first one tells how many tokens are taken. -/
theorem lead (hfirst : passage.Carries margin least related first first')
    (hothers : ∀ value value', related value value' →
      passage.Carries margin 0 relatedNext (others value) (others' value')) :
    passage.Carries margin least relatedNext (first >>= others) (first' >>= others') :=
  @seq _ _ _ _ _ _ _ _ _ _ _ _ _ _ 0 hfirst hothers (Nat.zero_le _)

/-- One parser after another, where a token is taken behind the first one, which so ends in front of
a margin. -/
theorem ahead (hfirst : passage.Carries (margin + 1) least' related first first')
    (hothers : ∀ value value', related value value' →
      passage.Carries margin 1 relatedNext (others value) (others' value')) :
    passage.Carries margin 1 relatedNext (first >>= others) (first' >>= others') :=
  (hfirst.seq hothers (Nat.le_refl 1)).least_le (Nat.le_add_left _ _)

/-- One parser after another, by a relation between the values of the first one. -/
theorem bindBy (related : α → α' → Prop)
    (hfirst : passage.Carries margin 0 related first first')
    (hothers : ∀ value value', related value value' →
      passage.Carries margin least relatedNext (others value) (others' value')) :
    passage.Carries margin least relatedNext (first >>= others) (first' >>= others') :=
  hfirst.bind hothers

/-- One parser after another, where both sides know the value of the first one. -/
theorem bindEq {first first' : Parser α} {others : α → Parser β} {others' : α → Parser β'}
    (hfirst : passage.Carries margin least' Eq first first')
    (hothers : ∀ value, passage.Carries margin least relatedNext (others value) (others' value)) :
    passage.Carries margin least relatedNext (first >>= others) (first' >>= others') := by
  refine hfirst.bind ?_
  rintro value _ rfl
  exact hothers value

/-- Related values are made into related ones. -/
theorem map {make : α → β} {make' : α' → β'}
    (hfirst : passage.Carries margin 0 related first first')
    (hmake : ∀ value value', related value value' → relatedNext (make value) (make' value')) :
    passage.Carries margin 0 relatedNext (make <$> first) (make' <$> first') :=
  hfirst.bind fun value value' hvalue => pure (hmake value value' hvalue)

/-- A choice that does not depend on the tokens is made alike. -/
theorem ite {choice : Prop} [Decidable choice]
    (hfirst : passage.Carries margin least related first first')
    (hother : passage.Carries margin least related other other') :
    passage.Carries margin least related (if choice then first else other)
      (if choice then first' else other') := by
  split
  · exact hfirst
  · exact hother

/-- Two choices that are made in the same way. -/
theorem iteIff {choice choice' : Prop} [Decidable choice] [Decidable choice']
    (hchoice : choice' ↔ choice) (hfirst : passage.Carries margin least related first first')
    (hother : passage.Carries margin least related other other') :
    passage.Carries margin least related (if choice then first else other)
      (if choice' then first' else other') := by
  rw [if_congr hchoice rfl rfl]
  exact hfirst.ite hother

/-- Two ways that go on in the same one. -/
theorem iteBind (related : α → α' → Prop) {choice : Prop} [Decidable choice]
    (hfirst : passage.Carries margin least' related first first')
    (hother : passage.Carries margin least' related other other')
    (hothers : ∀ value value', related value value' →
      passage.Carries margin least relatedNext (others value) (others' value')) :
    passage.Carries margin least relatedNext (if choice then first >>= others else other >>= others)
      (if choice then first' >>= others' else other' >>= others') :=
  ite (hfirst.bind hothers) (hother.bind hothers)

/-- A check that may fail before the parser goes on. -/
theorem check {choice : Prop} [Decidable choice] {cause : SyntaxCause} {others : PUnit → Parser α}
    {others' : PUnit → Parser α'}
    (hothers : passage.Carries margin least related (others ⟨⟩) (others' ⟨⟩)) :
    passage.Carries margin least related (if choice then failNext cause >>= others else others ⟨⟩)
      (if choice then failNext cause >>= others' else others' ⟨⟩) := by
  refine ite (fun _ _ _ _ _ _ hreads => ?_) hothers
  obtain ⟨_, _, hfails, -⟩ := reads_bind.mp hreads
  exact (reads_failNext.mp hfails).elim

end Carries

/-! ## Operations -/

/-- A parser that reads the same wherever it stands, and takes nothing. -/
theorem carries_of_stays {related : α → α' → Prop} {parser : Parser α} {parser' : Parser α'}
    (hstays : ∀ ⦃offset before before'⦄, passage.At offset before before' →
      ∀ ⦃value after⦄, parser.Reads passage.tokens before value after →
        after.next = before.next ∧ ∃ value' after', after'.next = before'.next ∧
          related value value' ∧ (offset + margin ≤ passage.length + 1 →
            parser'.Reads passage.tokens' before' value' after')) :
    passage.Carries margin 0 related parser parser' := by
  intro offset before before' hat value after hreads
  obtain ⟨hafter, value', after', hafter', hvalue, hreads'⟩ := hstays hat hreads
  exact ⟨offset, value', after', Nat.le_refl _, ⟨hafter.trans hat.next_eq, hafter'.trans hat.next_eq'⟩,
    hvalue, hreads'⟩

/-- A mark is another one in the other sequence. -/
theorem carries_mark {others : Nat → Parser α} {others' : Nat → Parser α'} {related : α → α' → Prop}
    (hothers : ∀ {start start'}, passage.Marks start start' →
      passage.Carries margin least related (others start) (others' start')) :
    passage.Carries margin least related (mark >>= others) (mark >>= others') := by
  have hmark : passage.Carries margin 0 passage.Marks mark mark := by
    refine carries_of_stays fun offset before before' hat value after hreads => ?_
    obtain ⟨rfl, rfl⟩ := reads_mark.mp hreads
    exact ⟨rfl, before'.next, before', rfl, ⟨offset, hat.next_eq, hat.next_eq'⟩,
      fun _ => reads_mark.mpr ⟨rfl, rfl⟩⟩
  exact hmark.bind fun _ _ hstart => hothers hstart

/-- The spans since marks at the same token of the passage are alike. -/
theorem carries_spanSince {start start' : Nat} (hstart : passage.Marks start start') :
    passage.Carries margin 0 passage.like.span (spanSince start) (spanSince start') := by
  refine carries_of_stays fun offset before before' hat span after hreads => ?_
  obtain ⟨rfl, rfl⟩ := reads_spanSince.mp hreads
  by_cases hle : offset ≤ passage.length + 1
  · refine ⟨rfl, _, before', rfl, ?_, fun _ => reads_spanSince.mpr ⟨rfl, rfl⟩⟩
    obtain ⟨first, rfl, rfl⟩ := hstart
    rw [hat.next_eq, hat.next_eq']
    exact passage.spans first offset hle
  · obtain ⟨span', hspan⟩ := passage.total.span (passage.tokens.spanBetween start after.next)
    exact ⟨rfl, span', before', rfl, hspan, fun h => absurd h (by omega)⟩

/-- Values that lack their spans are related if they are whatever spans they are given. -/
theorem carries_spanned {parser : Parser (Span → α)} {parser' : Parser (Span → α')}
    {related : α → α' → Prop}
    (hparser : passage.Carries margin least
      (fun make make' => ∀ {span span'}, passage.like.span span span' →
        related (make span) (make' span'))
      parser parser') :
    passage.Carries margin least related (spanned parser) (spanned parser') :=
  carries_mark fun hstart => hparser.lead fun _ _ hmake =>
    (carries_spanSince hstart).bind fun _ _ hspan => .pure (hmake hspan)

/-- What is never read is carried. -/
theorem carries_failNext {related : α → α' → Prop} {cause : SyntaxCause} {parser' : Parser α'} :
    passage.Carries margin least related (failNext cause : Parser α) parser' :=
  fun _ _ _ _ _ _ hreads => (reads_failNext.mp hreads).elim

/-- Takes the next token, which may be the closing one if it is known. -/
theorem carries_takeSure (hsure : passage.Sure margin) :
    passage.Carries margin 1 (Token.Alike passage.like) take take := by
  intro offset before before' hat token after hreads
  obtain ⟨rfl, rfl⟩ := reads_take.mp hreads
  by_cases hle : offset + margin ≤ passage.length
  · exact ⟨offset + 1, _, before'.step, Nat.le_refl _, hat.step, hat.alike_of_sure hsure hle,
      fun _ => reads_take.mpr ⟨rfl, rfl⟩⟩
  · obtain ⟨token', htoken⟩ := passage.exists_alike (passage.tokens.get before.next)
    exact ⟨offset + 1, token', before'.step, Nat.le_refl _, hat.step, htoken,
      fun h => absurd h (by omega)⟩

theorem carries_take : passage.Carries (margin + 1) 1 (Token.Alike passage.like) take take :=
  carries_takeSure sure_succ

/-- A token that has to be there is there in both sequences, where the next token is known. -/
theorem carries_expectSure (hsure : passage.Sure margin) (kind : TokenKind) :
    passage.Carries margin 1
      (fun token token' => token.Alike passage.like token' ∧ token.kind = kind)
      (expect kind) (expect kind) := by
  refine (carries_takeSure hsure).lead fun token token' htoken => ?_
  rw [htoken.kind_eq]
  split
  · exact .pure ⟨htoken, ‹_›⟩
  · exact .throw

/-- A token that has to be there is there in both sequences, in front of a margin. -/
theorem carries_expect (kind : TokenKind) :
    passage.Carries (margin + 1) 1
      (fun token token' => token.Alike passage.like token' ∧ token.kind = kind)
      (expect kind) (expect kind) :=
  carries_expectSure sure_succ kind

theorem carries_identifier : passage.Carries (margin + 1) 1 Eq identifier identifier := by
  refine carries_take.lead fun token token' htoken => ?_
  rw [htoken.kind_eq]
  split
  · exact .pure (htoken.text_eq (.inl ‹_›)).symm
  · exact .throw

/-- What a parser asks of the next token. -/
theorem carries_peek {others : Token → Parser α} {others' : Token → Parser α'}
    {related : α → α' → Prop}
    (halike : ∀ {token token'}, token.Alike passage.like token' →
      passage.Carries (margin + 1) least related (others token) (others' token'))
    (hends : ∀ {token token'}, ¬passage.Sure margin → token.kind.EndsEntry →
      token'.kind.EndsEntry →
        passage.Carries (margin + 1) least related (others token) (others' token')) :
    passage.Carries (margin + 1) least related (peek >>= others) (peek >>= others') := by
  have hpeek : passage.Carries (margin + 1) 0 (fun token token' => token.Alike passage.like token' ∨
      ¬passage.Sure margin ∧ token.kind.EndsEntry ∧ token'.kind.EndsEntry) peek peek := by
    refine carries_of_stays fun offset before before' hat token after hreads => ?_
    obtain ⟨rfl, rfl⟩ := reads_peek.mp hreads
    by_cases hle : offset + margin ≤ passage.length
    · exact ⟨rfl, _, before'.look 0, rfl, hat.meets hle, fun _ => reads_peek.mpr ⟨rfl, rfl⟩⟩
    · obtain ⟨token', htoken⟩ := passage.exists_alike (passage.tokens.get before.next)
      exact ⟨rfl, token', before'.look 0, rfl, .inl htoken, fun h => absurd h (by omega)⟩
  refine hpeek.bind ?_
  rintro token token' (htoken | ⟨hunsure, htoken, htoken'⟩)
  · exact halike htoken
  · exact hends hunsure htoken htoken'

/-- Where the next token is known, it is looked at in both sequences. -/
theorem carries_peekSure (hsure : passage.Sure margin) :
    passage.Carries (margin + 1) 0 (Token.Alike passage.like) peek peek := by
  refine carries_of_stays fun offset before before' hat token after hreads => ?_
  obtain ⟨rfl, rfl⟩ := reads_peek.mp hreads
  by_cases hle : offset + margin ≤ passage.length
  · exact ⟨rfl, _, before'.look 0, rfl, hat.alike_of_sure hsure hle,
      fun _ => reads_peek.mpr ⟨rfl, rfl⟩⟩
  · obtain ⟨token', htoken⟩ := passage.exists_alike (passage.tokens.get before.next)
    exact ⟨rfl, token', before'.look 0, rfl, htoken, fun h => absurd h (by omega)⟩

/-- What a parser asks of the next two tokens. -/
theorem carries_peekTwo {others : Token × Token → Parser α} {others' : Token × Token → Parser α'}
    {related : α → α' → Prop}
    (hothers : ∀ {first first' second second'}, passage.MeetTwo margin first second first' second' →
      passage.Carries (margin + 1) least related (others (first, second))
        (others' (first', second'))) :
    passage.Carries (margin + 1) least related (peekTwo >>= others) (peekTwo >>= others') := by
  have hpeek : passage.Carries (margin + 1) 0
      (fun pair pair' => passage.MeetTwo margin pair.1 pair.2 pair'.1 pair'.2) peekTwo peekTwo := by
    refine carries_of_stays fun offset before before' hat pair after hreads => ?_
    obtain ⟨rfl, rfl⟩ := reads_peekTwo.mp hreads
    by_cases hle : offset + margin ≤ passage.length
    · exact ⟨rfl, _, before'.look 1, rfl, hat.meetTwo hle, fun _ => reads_peekTwo.mpr ⟨rfl, rfl⟩⟩
    · obtain ⟨first', hfirst⟩ := passage.exists_alike (passage.tokens.get before.next)
      exact ⟨rfl, (first', passage.tokens.get (before.next + 1)), before'.look 1, rfl,
        .alike hfirst .same, fun h => absurd h (by omega)⟩
  exact hpeek.bind fun _ _ hpair => hothers hpair

/-- A token is taken if it is of a kind, which whoever goes on with it knows. -/
theorem carries_takeNext {kind : TokenKind} (hkind : ¬kind.EndsEntry ∨ passage.Sure margin)
    {others : Token → Parser α} {others' : Token → Parser α'} {other : Parser α}
    {other' : Parser α'} {related : α → α' → Prop}
    (hothers : ∀ {token token'}, token.Alike passage.like token' → token.kind = kind →
      passage.Carries (margin + 1) 0 related (others token) (others' token'))
    (hother : passage.Carries (margin + 1) 0 related other other') :
    passage.Carries (margin + 1) 0 related
      (nextIs kind >>= fun found => if found then take >>= others else other)
      (nextIs kind >>= fun found => if found then take >>= others' else other') := by
  intro offset before before' hat value after hreads
  obtain ⟨found, start, hfound, hrest⟩ := reads_bind.mp hreads
  obtain ⟨rfl, rfl⟩ := reads_nextIs.mp hfound
  by_cases htaken : passage.tokens.kindAt before = kind
  · obtain ⟨token, middle, htoken, hrest⟩ := reads_bind.mp
      (by simpa only [htaken, beq_self_eq_true, if_true] using hrest)
    obtain ⟨rfl, rfl⟩ := reads_take.mp htoken
    rw [Place.look_next, Place.look_zero_step] at hrest
    have hnext : ∀ token', (passage.tokens.get before.next).Alike passage.like token' →
        ∃ stop value' after', offset + 1 ≤ stop ∧ passage.At stop after after' ∧
          related value value' ∧ (stop + (margin + 1) ≤ passage.length + 1 →
            (others' token').Reads passage.tokens' before'.step value' after') :=
      fun token' htoken' => hothers htoken' htaken hat.step hrest
    by_cases hlt : offset < passage.length
    · obtain ⟨stop, value', after', hle, hstop, hvalue, hreads'⟩ := hnext _ (hat.alike hlt)
      refine ⟨stop, value', after', by omega, hstop, hvalue, fun hmargin => ?_⟩
      have htaken' : passage.tokens'.kindAt before' = kind := (hat.kindAt_eq hlt).trans htaken
      simpa [htaken'] using hreads' hmargin
    · obtain ⟨token', htoken'⟩ := passage.exists_alike (passage.tokens.get before.next)
      obtain ⟨stop, value', after', hle, hstop, hvalue, -⟩ := hnext _ htoken'
      exact ⟨stop, value', after', by omega, hstop, hvalue, fun hmargin => absurd hmargin (by omega)⟩
  · obtain ⟨stop, value', after', hle, hstop, hvalue, hreads'⟩ := hother (hat.look 0 0)
      (by simpa only [beq_eq_false_iff_ne.mpr htaken, Bool.false_eq_true, if_false] using hrest)
    refine ⟨stop, value', after', hle, hstop, hvalue, fun hmargin => ?_⟩
    have htaken' : (passage.tokens'.kindAt before' == kind) = false := by
      rw [(hat.meet (by omega)).beq_eq hkind]
      exact beq_eq_false_iff_ne.mpr htaken
    refine reads_bind.mpr ⟨_, _, reads_nextIs.mpr ⟨rfl, rfl⟩, ?_⟩
    simpa only [htaken', Bool.false_eq_true, if_false] using hreads' hmargin

/-- An item goes on behind a comma, or a closing token ends it. -/
theorem carries_commaOr (close : TokenKind) {next last : Parser α} {next' last' : Parser α'}
    {related : α → α' → Prop} (hnext : passage.Carries (margin + 1) 0 related next next')
    (hlast : passage.Carries (margin + 1) 0 related last last') :
    passage.Carries (margin + 1) 1 related
      (accept .comma >>= fun found => if found then next else expect close >>= fun _ => last)
      (accept .comma >>= fun found => if found then next' else expect close >>= fun _ => last') := by
  intro offset before before' hat value after hreads
  rw [reads_accept_bind] at hreads
  split at hreads
  · rename_i hcomma
    obtain ⟨stop, value', after', hle, hstop, hvalue, hreads'⟩ := hnext hat.step hreads
    refine ⟨stop, value', after', hle, hstop, hvalue, fun hmargin => ?_⟩
    rw [reads_accept_bind, hat.kindAt_eq (by omega), if_pos hcomma]
    exact hreads' hmargin
  · rename_i hcomma
    obtain ⟨token, middle, htoken, hrest⟩ := reads_bind.mp hreads
    obtain ⟨hclose, -, rfl⟩ := reads_expect.mp htoken
    obtain ⟨stop, value', after', hle, hstop, hvalue, hreads'⟩ := hlast (hat.look 0 0).step hrest
    refine ⟨stop, value', after', hle, hstop, hvalue, fun hmargin => ?_⟩
    have hkind := hat.kindAt_eq (show offset < passage.length by omega)
    rw [reads_accept_bind, hkind, if_neg hcomma]
    refine reads_bind.mpr ⟨_, _, reads_expect.mpr ⟨?_, rfl, rfl⟩, hreads' hmargin⟩
    rw [Tokens.kindAt_look, hkind]
    exact hclose

private theorem carries_peekKind :
    passage.Carries (margin + 1) 0 (passage.Meet margin) peekKind peekKind :=
  carries_peek
    (fun htoken => .pure (by rw [htoken.kind_eq]; exact .same))
    (fun hunsure hkind hkind' => .pure (.ends hunsure hkind hkind'))

/-- Where the next token is known, it is of the same kind. -/
theorem carries_peekKindSure (hsure : passage.Sure margin) :
    passage.Carries (margin + 1) 0 Eq peekKind peekKind :=
  carries_peekKind.mono (Nat.le_refl _) fun kind kind' hmeet => by
    cases hmeet with
    | same => rfl
    | ends hunsure => exact absurd hsure hunsure

/-- What a parser asks of the kind of the next token. -/
theorem carries_byKind {others : TokenKind → Parser α} {others' : TokenKind → Parser α'}
    {related : α → α' → Prop}
    (hsame : ∀ kind, passage.Carries (margin + 1) least related (others kind) (others' kind))
    (hends : ∀ {kind kind'}, ¬passage.Sure margin → kind.EndsEntry → kind'.EndsEntry →
      passage.Carries (margin + 1) least related (others kind) (others' kind')) :
    passage.Carries (margin + 1) least related (peekKind >>= others) (peekKind >>= others') :=
  carries_peekKind.bind fun kind kind' hmeet => by
    cases hmeet with
    | same => exact hsame kind
    | ends hunsure hkind hkind' => exact hends hunsure hkind hkind'

/-- What the next token is can be told in front of a margin, unless it may end an entry. -/
theorem carries_nextIs {kind : TokenKind} (hkind : ¬kind.EndsEntry ∨ passage.Sure margin) :
    passage.Carries (margin + 1) 0 Eq (nextIs kind) (nextIs kind) :=
  carries_peekKind.bind fun _ _ hmeet => .pure (hmeet.beq_eq hkind).symm

/-- A token that may be there is taken in both sequences, or in none. -/
theorem carries_accept {kind : TokenKind} (hkind : ¬kind.EndsEntry ∨ passage.Sure margin) :
    passage.Carries (margin + 1) 0 Eq (accept kind) (accept kind) :=
  (carries_nextIs hkind).bindEq fun _ =>
    .ite (carries_take.bind fun _ _ _ => .pure rfl) (.pure rfl)

/-- A token that must follow, and for a cause of its own if it does not. -/
theorem carries_expectOr {kind : TokenKind} (hkind : ¬kind.EndsEntry ∨ passage.Sure margin)
    (cause : SyntaxCause) :
    passage.Carries (margin + 1) 0 Eq (expectOr kind cause) (expectOr kind cause) :=
  carries_peek
    (fun _ => (carries_accept hkind).bindEq fun _ => .ite (.pure rfl) .throw)
    (fun _ _ _ => (carries_accept hkind).bindEq fun _ => .ite (.pure rfl) .throw)

/-- Whether a word follows, where the next token is known. -/
theorem carries_nextIsWord (hsure : passage.Sure margin) (word : String) :
    passage.Carries (margin + 1) 0 Eq (nextIsWord word) (nextIsWord word) := by
  refine (carries_peekSure hsure).bind fun token token' htoken => .pure ?_
  rw [htoken.kind_eq]
  by_cases hkind : token.kind = .identifier
  · rw [htoken.text_eq (.inl hkind)]
  · rw [beq_eq_false_iff_ne.mpr hkind, Bool.false_and, Bool.false_and]

/-- What may be there is read in both sequences, or in none. -/
theorem carries_ifAccepted {kind : TokenKind} (hkind : ¬kind.EndsEntry ∨ passage.Sure margin)
    {parser : Parser α} {parser' : Parser α'} {related : α → α' → Prop}
    (hparser : passage.Carries (margin + 1) 0 related parser parser') :
    passage.Carries (margin + 1) 0 (Option.Rel related) (ifAccepted kind parser)
      (ifAccepted kind parser') :=
  (carries_accept hkind).bindEq fun _ =>
    .ite (hparser.bind fun _ _ hvalue => .pure (.some hvalue)) (.pure .none)

/-! ## Loops -/

section

variable {relatedResult : β → β' → Prop} {related : α → α' → Prop} {step : α → Parser (Step α β)}
  {step' : α' → Parser (Step α' β')} {state : α} {state' : α'}

/-- A loop that advances takes a token for each step. -/
theorem carries_iterates {count : Nat} {before before' after : Place} {result : β}
    (hadvances : Advances step passage.tokens)
    (hstep : ∀ {state state'}, related state state' →
      passage.Carries margin 0 (Step.Alike related relatedResult) (step state) (step' state'))
    (hstate : related state state')
    (hiterates : Iterates step passage.tokens count state before result after)
    (hat : passage.At offset before before') :
    ∃ stop result' after', offset + count ≤ stop ∧ passage.At stop after after' ∧
      relatedResult result result' ∧ (stop + margin ≤ passage.length + 1 →
        Iterates step' passage.tokens' count state' before' result' after') := by
  induction hiterates generalizing offset state' before' with
  | done hreads =>
    obtain ⟨stop, decision', after', hle, hstop, hdecision, hreads'⟩ := hstep hstate hat hreads
    cases hdecision with
    | done hresult =>
      exact ⟨stop, _, after', hle, hstop, hresult, fun hmargin => .done (hreads' hmargin)⟩
  | next hreads _ ih =>
    obtain ⟨half, decision', middle', hle, hhalf, hdecision, hreads'⟩ := hstep hstate hat hreads
    have htaken := (hadvances.next hreads).add_le
    rw [hat.next_eq, hhalf.next_eq] at htaken
    cases hdecision with
    | next hvalue =>
      obtain ⟨stop, result', after', hstop, hafter, hresult, hrest'⟩ := ih hvalue hhalf
      exact ⟨stop, result', after', by omega, hafter, hresult,
        fun hmargin => .next (hreads' (by omega)) (hrest' hmargin)⟩

/-- Loops are carried if their steps are, and take tokens. -/
theorem carries_iterate (related : α → α' → Prop) (hadvances : Advances step passage.tokens)
    (hstate : related state state')
    (hstep : ∀ {state state'}, related state state' →
      passage.Carries margin 0 (Step.Alike related relatedResult) (step state) (step' state')) :
    passage.Carries margin 0 relatedResult (iterate state step) (iterate state' step') := by
  intro offset before before' hat result after hreads
  obtain ⟨count, -, hiterates⟩ := reads_iterate.mp hreads
  obtain ⟨stop, result', after', hle, hstop, hresult, hiterates'⟩ :=
    carries_iterates hadvances hstep hstate hiterates hat
  refine ⟨stop, result', after', by omega, hstop, hresult, fun hmargin => ?_⟩
  have hsize := passage.lt_size
  exact reads_iterate.mpr ⟨count, by omega, hiterates' hmargin⟩

end

variable {related : α → α' → Prop} {item : Parser α} {item' : Parser α'}

/-- Repetitions are carried if what is repeated is. -/
theorem carries_repeatWhile {condition condition' : Parser Bool}
    (hadvances : Advances (repeatStep condition item) passage.tokens)
    (hcondition : passage.Carries margin 0 Eq condition condition')
    (hitem : passage.Carries margin 0 related item item') :
    passage.Carries margin 0 (List.Forall₂ related) (repeatWhile condition item)
      (repeatWhile condition' item') :=
  carries_iterate (List.Forall₂ related) hadvances .nil fun hitems => hcondition.bindEq fun _ =>
    .ite (hitem.bind fun _ _ hvalue => .pure (.next (.cons hvalue hitems)))
      (.pure (.done (List.forall₂_reverse_iff.mpr hitems)))

/-- Values between commas are carried if each of them is. -/
theorem carries_commaSeparated (hsure : passage.Sure margin)
    (hadvances : Advances (repeatStep (accept .comma) item) passage.tokens)
    (hitem : passage.Carries (margin + 1) 0 related item item') :
    passage.Carries (margin + 1) 0 (List.Forall₂ related) (commaSeparated item)
      (commaSeparated item') :=
  hitem.bind fun _ _ hfirst =>
    (carries_repeatWhile hadvances (carries_accept (.inr hsure)) hitem).bind fun _ _ hothers =>
      .pure (.cons hfirst hothers)

/-- Items up to a closing token, each of which is read in front of a comma or of the
closing token. -/
theorem carries_lists {close : TokenKind} {values : List α} {before before' after : Place}
    (hitem : passage.Carries (margin + 2) 0 related item item')
    (hlists : Lists close item passage.tokens before values after)
    (hat : passage.At offset before before') :
    ∃ stop values' after', offset + values.length ≤ stop ∧ offset < stop ∧
      passage.At stop after after' ∧ List.Forall₂ related values values' ∧
      (stop + margin ≤ passage.length →
        Lists close item' passage.tokens' before' values' after') := by
  induction hlists generalizing offset before' with
  | close hclose =>
    refine ⟨offset + 1, [], before'.step, Nat.le_succ _, Nat.lt_succ_self _, hat.step, .nil,
      fun hmargin => .close ?_⟩
    rw [hat.kindAt_eq (by omega), hclose]
  | last hopen hvalue hclose =>
    obtain ⟨half, value', middle', hle, hhalf, hrelated, hvalue'⟩ := hitem (hat.look 0 0) hvalue
    refine ⟨half + 1, [value'], middle'.step, by simpa using hle, by omega, hhalf.step,
      .cons hrelated .nil, fun hmargin => .last ?_ (hvalue' (by omega)) ?_⟩
    · rwa [hat.kindAt_eq (by omega)]
    · rw [hhalf.kindAt_eq (by omega), hclose]
  | item hopen hvalue hcomma _ ih =>
    obtain ⟨half, value', middle', hle, hhalf, hrelated, hvalue'⟩ := hitem (hat.look 0 0) hvalue
    obtain ⟨stop, values', after', hlength, hlt, hafter, hvalues, hrest'⟩ := ih hhalf.step
    refine ⟨stop, value' :: values', after', ?_, by omega, hafter, .cons hrelated hvalues,
      fun hmargin => .item ?_ (hvalue' (by omega)) ?_ (hrest' hmargin)⟩
    · rw [List.length_cons]
      omega
    · rwa [hat.kindAt_eq (by omega)]
    · rw [hhalf.kindAt_eq (by omega), hcomma]

/-- A list up to a closing token. -/
theorem carries_listUntil {close : TokenKind}
    (hcomma : close ≠ .comma) (hitem : passage.Carries (margin + 2) 0 related item item') :
    passage.Carries (margin + 1) 1 (List.Forall₂ related) (listUntil close item)
      (listUntil close item') := by
  intro offset before before' hat values after hreads
  obtain ⟨stop, values', after', hlength, hlt, hafter, hvalues, hlists'⟩ :=
    carries_lists hitem (Lists.of_reads hreads) hat
  refine ⟨stop, values', after', hlt, hafter, hvalues, fun hmargin => ?_⟩
  have hsize := passage.lt_size
  have hcount := hvalues.length_eq
  exact (hlists' (by omega)).reads hcomma (by omega)

end Passage

end PythonOutline
