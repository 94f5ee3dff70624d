import PythonOutline.Literal.Basic
import PythonOutline.Parser.Loop
import PythonOutline.Proofs.Parser.Script
import PythonOutline.Proofs.Tree.Alike

/-! # Parsers side by side

Two token sequences are alike if their tokens are of the same kinds, one by one, and mean the same
as far as a likeness of trees asks for. A parser does the same on both: it succeeds on both or on
none, it stops at the same place, and the values that it yields are related. The rules here say so
of the operations that the grammar is made of; that the values of the grammar are related then
follows its definitions. -/

namespace PythonOutline

/-- Two values of string literals differ in their texts only. -/
structure Literal.StringValue.Alike (like : Likeness) (value value' : StringValue) : Prop where
  text : like.text value.text value'.text
  bytes_eq : value'.bytes = value.bytes
  formatted_eq : value'.formatted = value.formatted

/-- Two tokens that mean the same. -/
structure Token.Alike (like : Likeness) (token token' : Token) : Prop where
  kind_eq : token'.kind = token.kind
  span : token.kind.isSignificant → like.span token.span token'.span
  text_eq : token.kind = .identifier ∨ token.kind = .literalNumber → token'.text = token.text
  string : token.kind = .literalString →
    (Literal.decode token.text.toList).Alike like (Literal.decode token'.text.toList)

/-- Two token sequences whose tokens mean the same, one by one. -/
structure Tokens.Alike (like : Likeness) (tokens tokens' : Tokens) : Prop where
  size_eq : tokens'.tokens.size = tokens.tokens.size
  token : ∀ index, (tokens.get index).Alike like (tokens'.get index)
  span : ∀ start stop, like.span (tokens.spanBetween start stop) (tokens'.spanBetween start stop)
  whole : like.span ⟨0, tokens.size⟩ ⟨0, tokens'.size⟩
  slice : ∀ {span span' : Span}, like.span span span' →
    like.pattern (String.ofList (Text.slice tokens.source span.start span.stop))
      (String.ofList (Text.slice tokens'.source span'.start span'.stop))

namespace Parser

variable {α α' β β' : Type}

/-- Two outcomes at the same place: related values, or errors. -/
def AgreesBy (related : α → α' → Prop) : Outcome α → Outcome α' → Prop
  | .ok value place, .ok value' place' => related value value' ∧ place' = place
  | .error _ place, .error _ place' => place' = place
  | _, _ => False

/-- Two parsers whose outcomes on two token sequences agree, wherever they start. -/
def Parallel (tokens tokens' : Tokens) (related : α → α' → Prop) (parser : Parser α)
    (parser' : Parser α') : Prop :=
  ∀ place, AgreesBy related (parser tokens place) (parser' tokens' place)

/-- Two decisions of loops are the same, about related states or results. -/
inductive Step.Alike (state : α → α' → Prop) (result : β → β' → Prop) :
    Step α β → Step α' β' → Prop
  | next {value : α} {value' : α'} (hvalue : state value value') :
    Step.Alike state result (.next value) (.next value')
  | done {value : β} {value' : β'} (hvalue : result value value') :
    Step.Alike state result (.done value) (.done value')

namespace Parallel

variable {tokens tokens' : Tokens} {related : α → α' → Prop} {relatedNext : β → β' → Prop}
  {first : Parser α} {first' : Parser α'} {others : α → Parser β} {others' : α' → Parser β'}

/-- Values that are related in one way may be related in a weaker one. -/
theorem mono {related' : α → α' → Prop} (hfirst : Parallel tokens tokens' related first first')
    (hrelated : ∀ value value', related value value' → related' value value') :
    Parallel tokens tokens' related' first first' := by
  intro place
  have hagrees := hfirst place
  cases hresult : first tokens place <;> cases hresult' : first' tokens' place <;>
    rw [hresult, hresult'] at hagrees
  · exact ⟨hrelated _ _ hagrees.1, hagrees.2⟩
  · exact hagrees
  · exact hagrees
  · exact hagrees

/-- What the first parser reads, the second one reads too. -/
theorem reads {before after : Place} {value : α} (hfirst : Parallel tokens tokens' related first first')
    (hreads : first.Reads tokens before value after) :
    ∃ value', first'.Reads tokens' before value' after ∧ related value value' := by
  have hagrees := hfirst before
  unfold Reads at hreads
  rw [hreads] at hagrees
  cases hresult' : first' tokens' before <;> rw [hresult'] at hagrees
  · obtain ⟨hvalue, rfl⟩ := hagrees
    exact ⟨_, hresult', hvalue⟩
  · exact hagrees.elim

/-- What the second parser reads, the first one reads too. -/
theorem reads_first {before after : Place} {value' : α'}
    (hfirst : Parallel tokens tokens' related first first')
    (hreads : first'.Reads tokens' before value' after) :
    ∃ value, first.Reads tokens before value after ∧ related value value' := by
  have hagrees := hfirst before
  unfold Reads at hreads
  rw [hreads] at hagrees
  cases hresult : first tokens before <;> rw [hresult] at hagrees
  · obtain ⟨hvalue, rfl⟩ := hagrees
    exact ⟨_, hresult, hvalue⟩
  · exact hagrees.elim

theorem pure {value : α} {value' : α'} (hvalue : related value value') :
    Parallel tokens tokens' related (Pure.pure value) (Pure.pure value') :=
  fun _ => ⟨hvalue, rfl⟩

theorem throw {error error' : SyntaxError} :
    Parallel tokens tokens' related (MonadExcept.throw error : Parser α)
      (MonadExcept.throw error' : Parser α') :=
  fun _ => rfl

/-- Nothing comes behind an error. -/
theorem throwBind {error error' : SyntaxError} :
    Parallel tokens tokens' relatedNext ((MonadExcept.throw error : Parser α) >>= others)
      ((MonadExcept.throw error' : Parser α') >>= others') :=
  fun _ => rfl

/-- Parallel parsers may follow each other, where the later ones depend on values that are
related. -/
theorem bind (hfirst : Parallel tokens tokens' related first first')
    (hothers : ∀ value value', related value value' →
      Parallel tokens tokens' relatedNext (others value) (others' value')) :
    Parallel tokens tokens' relatedNext (first >>= others) (first' >>= others') := by
  intro place
  have hagrees := hfirst place
  rw [bind_apply, bind_apply]
  cases hresult : first tokens place <;> cases hresult' : first' tokens' place <;>
    rw [hresult, hresult'] at hagrees
  · obtain ⟨hvalue, rfl⟩ := hagrees
    exact hothers _ _ hvalue _
  · exact hagrees.elim
  · exact hagrees.elim
  · exact hagrees

/-- One parser after another, by a relation between the values of the first one. -/
theorem bindBy (related : α → α' → Prop) (hfirst : Parallel tokens tokens' related first first')
    (hothers : ∀ value value', related value value' →
      Parallel tokens tokens' relatedNext (others value) (others' value')) :
    Parallel tokens tokens' relatedNext (first >>= others) (first' >>= others') :=
  hfirst.bind hothers

/-- One parser after another, where both sides know the value of the first one. -/
theorem bindEq {first first' : Parser α} {others : α → Parser β} {others' : α → Parser β'}
    (hfirst : Parallel tokens tokens' Eq first first')
    (hothers : ∀ value, Parallel tokens tokens' relatedNext (others value) (others' value)) :
    Parallel tokens tokens' relatedNext (first >>= others) (first' >>= others') := by
  refine hfirst.bind ?_
  rintro value _ rfl
  exact hothers value

/-- Related values are made into related ones. -/
theorem map {make : α → β} {make' : α' → β'} (hfirst : Parallel tokens tokens' related first first')
    (hmake : ∀ value value', related value value' → relatedNext (make value) (make' value')) :
    Parallel tokens tokens' relatedNext (make <$> first) (make' <$> first') :=
  hfirst.bind fun value value' hvalue => pure (hmake value value' hvalue)

/-- A choice that does not depend on the tokens is made alike. -/
theorem ite {choice : Prop} [Decidable choice] {other : Parser α} {other' : Parser α'}
    (hfirst : Parallel tokens tokens' related first first')
    (hother : Parallel tokens tokens' related other other') :
    Parallel tokens tokens' related (if choice then first else other)
      (if choice then first' else other') := by
  split
  · exact hfirst
  · exact hother

/-- Two ways that go on in the same one. -/
theorem iteBind (related : α → α' → Prop) {choice : Prop} [Decidable choice] {other : Parser α}
    {other' : Parser α'}
    (hfirst : Parallel tokens tokens' related first first')
    (hother : Parallel tokens tokens' related other other')
    (hothers : ∀ value value', related value value' →
      Parallel tokens tokens' relatedNext (others value) (others' value')) :
    Parallel tokens tokens' relatedNext (if choice then first >>= others else other >>= others)
      (if choice then first' >>= others' else other' >>= others') :=
  ite (hfirst.bind hothers) (hother.bind hothers)

end Parallel

/-! ## Operations -/

section

variable {like : Likeness} {tokens tokens' : Tokens} (halike : tokens.Alike like tokens')
  {related : α → α' → Prop}

theorem parallel_mark : Parallel tokens tokens' Eq mark mark :=
  fun _ => ⟨rfl, rfl⟩

include halike

private theorem parallel_lookAhead (distance : Nat) :
    Parallel tokens tokens' (Token.Alike like) (lookAhead distance) (lookAhead distance) :=
  fun _ => ⟨halike.token _, rfl⟩

theorem parallel_peek : Parallel tokens tokens' (Token.Alike like) peek peek :=
  parallel_lookAhead halike 0

theorem Parallel.peekTwo {others : Token × Token → Parser α} {others' : Token × Token → Parser α'}
    (hothers : ∀ {first first' second second'}, first.Alike like first' → second.Alike like second' →
      Parallel tokens tokens' related (others (first, second)) (others' (first', second'))) :
    Parallel tokens tokens' related (Parser.peekTwo >>= others) (Parser.peekTwo >>= others') :=
  (parallel_lookAhead halike 0).bind fun _ _ hfirst =>
    (parallel_lookAhead halike 1).bind fun _ _ hsecond => hothers hfirst hsecond

theorem Parallel.peekThree {others : Token × Token × Token → Parser α}
    {others' : Token × Token × Token → Parser α'}
    (hothers : ∀ {first first' second second' third third'}, first.Alike like first' →
      second.Alike like second' → third.Alike like third' →
      Parallel tokens tokens' related (others (first, second, third))
        (others' (first', second', third'))) :
    Parallel tokens tokens' related (Parser.peekThree >>= others) (Parser.peekThree >>= others') :=
  (parallel_lookAhead halike 0).bind fun _ _ hfirst =>
    (parallel_lookAhead halike 1).bind fun _ _ hsecond =>
      (parallel_lookAhead halike 2).bind fun _ _ hthird => hothers hfirst hsecond hthird

theorem parallel_take : Parallel tokens tokens' (Token.Alike like) take take :=
  fun place => ⟨halike.token place.next, rfl⟩

theorem parallel_peekKind : Parallel tokens tokens' Eq peekKind peekKind :=
  (parallel_peek halike).bind fun _ _ htoken => .pure htoken.kind_eq.symm

/-- The next tokens are of one kind. -/
theorem parallel_nextIs (kind : TokenKind) : Parallel tokens tokens' Eq (nextIs kind) (nextIs kind) :=
  (parallel_peekKind halike).bindEq fun _ => .pure rfl

/-- The next tokens are the same word. -/
theorem parallel_nextIsWord (word : String) :
    Parallel tokens tokens' Eq (nextIsWord word) (nextIsWord word) := by
  refine (parallel_peek halike).bind fun token token' htoken => .pure ?_
  rw [htoken.kind_eq]
  by_cases hkind : token.kind = .identifier
  · rw [htoken.text_eq (.inl hkind)]
  · rw [beq_eq_false_iff_ne.mpr hkind, Bool.false_and, Bool.false_and]

/-- A token is taken in both sequences, or in none. -/
theorem parallel_accept (kind : TokenKind) : Parallel tokens tokens' Eq (accept kind) (accept kind) :=
  (parallel_nextIs halike kind).bindEq fun _ =>
    .ite ((parallel_take halike).bind fun _ _ _ => .pure rfl) (.pure rfl)

/-- A token is missing in both sequences, or in none. -/
theorem parallel_expect (kind : TokenKind) :
    Parallel tokens tokens' (fun token token' => token.Alike like token' ∧ token.kind = kind)
      (expect kind) (expect kind) := by
  refine (parallel_take halike).bind fun token token' htoken => ?_
  rw [htoken.kind_eq]
  split
  · exact .pure ⟨htoken, ‹_›⟩
  · exact .throw

theorem parallel_expectOr (kind : TokenKind) (cause : SyntaxCause) :
    Parallel tokens tokens' Eq (expectOr kind cause) (expectOr kind cause) :=
  (parallel_peek halike).bind fun _ _ _ =>
    (parallel_accept halike kind).bindEq fun _ => .ite (.pure rfl) .throw

theorem parallel_identifier : Parallel tokens tokens' Eq identifier identifier := by
  refine (parallel_take halike).bind fun token token' htoken => ?_
  rw [htoken.kind_eq]
  split
  · exact .pure (htoken.text_eq (.inl ‹_›)).symm
  · exact .throw

theorem parallel_failNext (cause : SyntaxCause) :
    Parallel tokens tokens' related (failNext cause : Parser α) (failNext cause : Parser α') :=
  (parallel_peek halike).bind fun _ _ _ => .throw

/-- A check that may fail before the parser goes on. -/
theorem Parallel.check {choice : Prop} [Decidable choice] {cause : SyntaxCause}
    {others : PUnit → Parser α} {others' : PUnit → Parser α'}
    (hothers : Parallel tokens tokens' related (others ⟨⟩) (others' ⟨⟩)) :
    Parallel tokens tokens' related (if choice then failNext cause >>= others else others ⟨⟩)
      (if choice then failNext cause >>= others' else others' ⟨⟩) :=
  .ite ((parallel_failNext halike cause : Parallel tokens tokens' Eq _ _).bind fun _ _ _ => hothers)
    hothers

/-- The spans since marks at the same token are alike. -/
theorem parallel_spanSince (start : Nat) :
    Parallel tokens tokens' like.span (spanSince start) (spanSince start) :=
  fun place => ⟨halike.span start place.next, rfl⟩

/-- Values that lack their spans are related if they are whatever spans they are given. -/
theorem parallel_spanned {parser : Parser (Span → α)} {parser' : Parser (Span → α')}
    (hparser : Parallel tokens tokens'
      (fun make make' => ∀ {span span'}, like.span span span' → related (make span) (make' span'))
      parser parser') :
    Parallel tokens tokens' related (spanned parser) (spanned parser') :=
  parallel_mark.bindEq fun start => hparser.bind fun _ _ hmake =>
    (parallel_spanSince halike start).bind fun _ _ hspan => .pure (hmake hspan)

/-- What may be there is there in both sequences, or in none. -/
theorem parallel_ifAccepted (kind : TokenKind) {parser : Parser α} {parser' : Parser α'}
    (hparser : Parallel tokens tokens' related parser parser') :
    Parallel tokens tokens' (Option.Rel related) (ifAccepted kind parser)
      (ifAccepted kind parser') :=
  (parallel_accept halike kind).bindEq fun _ =>
    .ite (hparser.bind fun _ _ hvalue => .pure (.some hvalue)) (.pure .none)

omit halike in
/-- An attempt succeeds in both sequences, or is undone in both. -/
theorem parallel_attempt {parser : Parser (Option α)} {parser' : Parser (Option α')}
    (hparser : Parallel tokens tokens' (Option.Rel related) parser parser') :
    Parallel tokens tokens' (Option.Rel related) (attempt parser) (attempt parser') := by
  intro place
  have hagrees := hparser place
  rw [attempt, attempt]
  cases hresult : parser tokens place <;> cases hresult' : parser' tokens' place <;>
    rw [hresult, hresult'] at hagrees
  · obtain ⟨hvalue, rfl⟩ := hagrees
    cases hvalue with
    | some hvalue => exact ⟨.some hvalue, rfl⟩
    | none => exact ⟨.none, rfl⟩
  · exact hagrees.elim
  · exact hagrees.elim
  · cases hagrees
    exact ⟨.none, rfl⟩

/-- A token is taken if it is of a kind, which whoever goes on with it knows. -/
theorem Parallel.takeNext (kind : TokenKind) {others : Token → Parser α} {others' : Token → Parser α'}
    {other : Parser α} {other' : Parser α'}
    (hothers : ∀ {token token'}, token.Alike like token' → token.kind = kind →
      Parallel tokens tokens' related (others token) (others' token'))
    (hother : Parallel tokens tokens' related other other') :
    Parallel tokens tokens' related
      (nextIs kind >>= fun found => if found then take >>= others else other)
      (nextIs kind >>= fun found => if found then take >>= others' else other') := by
  intro place
  have htoken := halike.token place.next
  have hnext : ∀ tokens : Tokens, nextIs kind tokens place =
      .ok ((tokens.get place.next).kind == kind) (place.look 0) := fun _ => rfl
  rw [bind_apply, bind_apply, hnext, hnext, htoken.kind_eq]
  by_cases hkind : (tokens.get place.next).kind = kind
  · simp only [beq_iff_eq.mpr hkind, if_true]
    exact hothers htoken hkind _
  · simp only [beq_eq_false_iff_ne.mpr hkind, Bool.false_eq_true, if_false]
    exact hother _

/-! ## Loops -/

variable {relatedResult : β → β' → Prop} {step : α → Parser (Step α β)}
  {step' : α' → Parser (Step α' β')} {state : α} {state' : α'}

private theorem parallel_iterateFor (fuel : Nat)
    (hstep : ∀ {state state'}, related state state' →
      Parallel tokens tokens' (Step.Alike related relatedResult) (step state) (step' state'))
    (hstate : related state state') :
    Parallel tokens tokens' relatedResult (iterateFor step fuel state)
      (iterateFor step' fuel state') := by
  induction fuel generalizing state state' with
  | zero => exact parallel_failNext halike _
  | succ fuel ih =>
    refine (hstep hstate).bind fun decision decision' hdecision => ?_
    cases hdecision with
    | next hvalue => exact ih hvalue
    | done hvalue => exact .pure hvalue

/-- Loops are parallel if their steps are, from states that are related. -/
theorem parallel_iterate (related : α → α' → Prop) (hstate : related state state')
    (hstep : ∀ {state state'}, related state state' →
      Parallel tokens tokens' (Step.Alike related relatedResult) (step state) (step' state')) :
    Parallel tokens tokens' relatedResult (iterate state step) (iterate state' step') := by
  intro place
  have hagrees := parallel_iterateFor halike (tokens.tokens.size + 1) hstep hstate place
  rw [← halike.size_eq] at hagrees
  nth_rewrite 1 [halike.size_eq] at hagrees
  exact hagrees

/-- Repetitions are parallel if what is repeated is. -/
theorem parallel_repeatWhile {condition condition' : Parser Bool} {item : Parser α}
    {item' : Parser α'} (hcondition : Parallel tokens tokens' Eq condition condition')
    (hitem : Parallel tokens tokens' related item item') :
    Parallel tokens tokens' (List.Forall₂ related) (repeatWhile condition item)
      (repeatWhile condition' item') :=
  parallel_iterate halike (List.Forall₂ related) .nil fun hitems => hcondition.bindEq fun _ =>
    .ite (hitem.bind fun _ _ hvalue => .pure (.next (.cons hvalue hitems)))
      (.pure (.done (List.forall₂_reverse_iff.mpr hitems)))

/-- Values between commas are parallel if each of them is. -/
theorem parallel_commaSeparated {item : Parser α} {item' : Parser α'}
    (hitem : Parallel tokens tokens' related item item') :
    Parallel tokens tokens' (List.Forall₂ related) (commaSeparated item) (commaSeparated item') :=
  hitem.bind fun _ _ hfirst =>
    (parallel_repeatWhile halike (parallel_accept halike .comma) hitem).bind fun _ _ hothers =>
      .pure (.cons hfirst hothers)

/-- Lists in brackets are parallel if their values are. -/
theorem parallel_listUntil (close : TokenKind) {item : Parser α} {item' : Parser α'}
    (hitem : Parallel tokens tokens' related item item') :
    Parallel tokens tokens' (List.Forall₂ related) (listUntil close item) (listUntil close item') :=
  parallel_iterate halike (List.Forall₂ related) .nil fun hitems =>
    (parallel_accept halike close).bindEq fun _ =>
      .ite (.pure (.done (List.forall₂_reverse_iff.mpr hitems))) <| hitem.bind fun _ _ hvalue =>
        (parallel_accept halike .comma).bindEq fun _ =>
          .ite (.pure (.next (.cons hvalue hitems))) <|
            (parallel_expect halike close).bind fun _ _ _ =>
              .pure (.done (List.forall₂_reverse_iff.mpr (.cons hvalue hitems)))

end

end Parser

end PythonOutline
