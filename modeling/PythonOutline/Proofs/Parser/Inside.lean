import PythonOutline.Proofs.Parser.Takes

/-! # Parsers that are the same inside a region

Two parsers are the same inside a region of a token sequence if they do the same wherever they
start in it, and end in it again. So parsers can be told apart by what they do elsewhere only, as
those that differ by how deep they may recurse: the region is where less of their depth is needed.
-/

namespace PythonOutline

namespace Tokens

/-- Tokens of allowed kinds do not lead out of a region. -/
def Keeps (tokens : Tokens) (allowed : TokenKind → Prop) (inside : Nat → Prop) : Prop :=
  ∀ ⦃index⦄, inside index → allowed (tokens.get index).kind → inside (index + 1)

variable {tokens : Tokens} {allowed : TokenKind → Prop} {inside : Nat → Prop}

/-- A token of an allowed kind does not lead out of the region. -/
theorem Keeps.step (hkeeps : tokens.Keeps allowed inside) {place : Place}
    (hplace : inside place.next) (hkind : allowed (tokens.kindAt place)) : inside place.step.next :=
  hkeeps hplace hkind

/-- A run of allowed tokens does not lead out of a region. -/
theorem Keeps.run (hkeeps : tokens.Keeps allowed inside) {start stop : Nat} (hle : start ≤ stop)
    (hkinds : ∀ index, start ≤ index → index < stop → allowed (tokens.get index).kind)
    (hstart : inside start) : inside stop := by
  obtain ⟨count, rfl⟩ := Nat.exists_eq_add_of_le hle
  clear hle
  induction count with
  | zero => exact hstart
  | succ count ih =>
    exact hkeeps (ih fun index hle hlt => hkinds index hle (by omega))
      (hkinds _ (Nat.le_add_right _ _) (Nat.lt_succ_self _))

end Tokens

namespace Parser

variable {α β σ : Type} {tokens : Tokens} {inside : Nat → Prop} {place : Place}

/-- Two parsers do the same at a place, and end in a region. -/
def SameAt (tokens : Tokens) (inside : Nat → Prop) (parser parser' : Parser α) (place : Place) :
    Prop :=
  parser' tokens place = parser tokens place ∧
    ∀ ⦃value after⦄, parser.Reads tokens place value after → inside after.next

/-- Two parsers do the same wherever they start in a region, and end in it. -/
def SameInside (tokens : Tokens) (inside : Nat → Prop) (parser parser' : Parser α) : Prop :=
  ∀ ⦃place⦄, inside place.next → SameAt tokens inside parser parser' place

variable {first first' other other' : Parser α} {others others' : α → Parser β}

/-- One parser after another: the second one starts where the first one ends. -/
theorem SameAt.bind (hfirst : first' tokens place = first tokens place)
    (hothers : ∀ ⦃value middle⦄, first.Reads tokens place value middle →
      SameAt tokens inside (others value) (others' value) middle) :
    SameAt tokens inside (first >>= others) (first' >>= others') place := by
  refine ⟨?_, fun result after hreads => ?_⟩
  · rw [bind_apply, bind_apply, hfirst]
    cases hresult : first tokens place with
    | error => rfl
    | ok value middle => exact (hothers hresult).1
  · obtain ⟨value, middle, hvalue, hrest⟩ := reads_bind.mp hreads
    exact (hothers hvalue).2 hrest

/-- One parser after another one that ends in a region, in which the second one is the same. -/
theorem SameAt.andThen (hfirst : SameAt tokens inside first first' place)
    (hothers : ∀ value, SameInside tokens inside (others value) (others' value)) :
    SameAt tokens inside (first >>= others) (first' >>= others') place :=
  .bind hfirst.1 fun value _ hvalue => hothers value (hfirst.2 hvalue)

theorem SameAt.ite {choice : Prop} [Decidable choice]
    (hfirst : SameAt tokens inside first first' place)
    (hother : SameAt tokens inside other other' place) :
    SameAt tokens inside (if choice then first else other) (if choice then first' else other')
      place := by
  split
  · exact hfirst
  · exact hother

/-- What ends in a region ends in each wider one. -/
theorem SameAt.mono {wider : Nat → Prop} (hfirst : SameAt tokens inside first first' place)
    (hwider : ∀ index, inside index → wider index) : SameAt tokens wider first first' place :=
  ⟨hfirst.1, fun _ _ hreads => hwider _ (hfirst.2 hreads)⟩

namespace SameInside

theorem pure (value : α) :
    SameInside tokens inside (Pure.pure value : Parser α) (Pure.pure value) := by
  intro place hplace
  refine ⟨rfl, fun result after hreads => ?_⟩
  obtain ⟨-, rfl⟩ := reads_pure.mp hreads
  exact hplace

theorem throw {error : SyntaxError} :
    SameInside tokens inside (MonadExcept.throw error : Parser α) (MonadExcept.throw error) :=
  fun _ _ => ⟨rfl, fun _ _ hreads => (reads_throw.mp hreads).elim⟩

/-- Parsers that do the same may follow each other. -/
theorem bind (hfirst : SameInside tokens inside first first')
    (hothers : ∀ value, SameInside tokens inside (others value) (others' value)) :
    SameInside tokens inside (first >>= others) (first' >>= others') :=
  fun _ hplace => (hfirst hplace).andThen hothers

theorem ite {choice : Prop} [Decidable choice] (hfirst : SameInside tokens inside first first')
    (hother : SameInside tokens inside other other') :
    SameInside tokens inside (if choice then first else other)
      (if choice then first' else other') :=
  fun _ hplace => (hfirst hplace).ite (hother hplace)

/-- Two ways that go on in the same one. -/
theorem iteBind {choice : Prop} [Decidable choice] (hfirst : SameInside tokens inside first first')
    (hother : SameInside tokens inside other other')
    (hothers : ∀ value, SameInside tokens inside (others value) (others' value)) :
    SameInside tokens inside (if choice then first >>= others else other >>= others)
      (if choice then first' >>= others' else other' >>= others') :=
  ite (hfirst.bind hothers) (hother.bind hothers)

theorem map (make : α → β) (hfirst : SameInside tokens inside first first') :
    SameInside tokens inside (make <$> first) (make <$> first') :=
  hfirst.bind fun value => pure (make value)

end SameInside

/-! ## Operations -/

/-- A parser that goes nowhere stays inside. -/
theorem sameInside_of_stays {parser : Parser α}
    (hstays : ∀ ⦃before value after⦄, parser.Reads tokens before value after →
      after.next = before.next) : SameInside tokens inside parser parser := by
  intro place hplace
  refine ⟨rfl, fun value after hreads => ?_⟩
  rw [hstays hreads]
  exact hplace

theorem sameInside_mark : SameInside tokens inside mark mark :=
  sameInside_of_stays fun _ _ _ hreads => by rw [(reads_mark.mp hreads).2]

theorem sameInside_spanSince (start : Nat) :
    SameInside tokens inside (spanSince start) (spanSince start) :=
  sameInside_of_stays fun _ _ _ hreads => by rw [(reads_spanSince.mp hreads).2]

/-- A value that is made with the span of what was taken since a mark. -/
theorem sameInside_since (start : Nat) {make : Span → α} :
    SameInside tokens inside (spanSince start >>= fun span => pure (make span))
      (spanSince start >>= fun span => pure (make span)) :=
  (sameInside_spanSince start).bind fun _ => .pure _

theorem sameInside_peek : SameInside tokens inside peek peek :=
  sameInside_of_stays fun _ _ _ hreads => by rw [(reads_peek.mp hreads).2, Place.look_next]

theorem sameInside_peekTwo : SameInside tokens inside peekTwo peekTwo :=
  sameInside_of_stays fun _ _ _ hreads => by rw [(reads_peekTwo.mp hreads).2]; rfl

theorem sameInside_peekKind : SameInside tokens inside peekKind peekKind :=
  sameInside_of_stays fun _ _ _ hreads => by rw [(reads_peekKind.mp hreads).2, Place.look_next]

theorem sameInside_nextIs (kind : TokenKind) :
    SameInside tokens inside (nextIs kind) (nextIs kind) :=
  sameInside_of_stays fun _ _ _ hreads => by rw [(reads_nextIs.mp hreads).2, Place.look_next]

theorem sameInside_failNext {cause : SyntaxCause} :
    SameInside tokens inside (failNext cause : Parser α) (failNext cause) :=
  fun _ _ => ⟨rfl, fun _ _ hreads => (reads_failNext.mp hreads).elim⟩

section

variable {allowed : TokenKind → Prop} (hkeeps : tokens.Keeps allowed inside)

include hkeeps

/-- What is laid out in allowed tokens is laid out inside. -/
theorem Lays.sameInside {parser : Parser α} {kinds : TokenKind → Prop} {nodes : α → List Node}
    (hlays : parser.Lays tokens kinds nodes) (hallowed : ∀ kind, kinds kind → allowed kind) :
    SameInside tokens inside parser parser := by
  intro place hplace
  refine ⟨rfl, fun value after hreads => ?_⟩
  have hfits := hlays hreads
  exact hkeeps.run hfits.le (fun index hle hlt => hallowed _ (hfits.kinds index hle hlt)) hplace

/-- A token that may be there is of an allowed kind. -/
theorem sameInside_accept {kind : TokenKind} (hallowed : allowed kind) :
    SameInside tokens inside (accept kind) (accept kind) := by
  intro place hplace
  refine ⟨rfl, fun value after hreads => ?_⟩
  rw [reads_accept] at hreads
  split at hreads
  · rename_i hkind
    obtain ⟨-, rfl⟩ := hreads
    exact hkeeps.step hplace (hkind ▸ hallowed)
  · obtain ⟨-, rfl⟩ := hreads
    exact hplace

/-- A token that has to be there is of an allowed kind. -/
theorem sameInside_expect {kind : TokenKind} (hallowed : allowed kind) :
    SameInside tokens inside (expect kind) (expect kind) := by
  intro place hplace
  refine ⟨rfl, fun token after hreads => ?_⟩
  obtain ⟨hkind, -, rfl⟩ := reads_expect.mp hreads
  exact hkeeps.step hplace (hkind ▸ hallowed)

theorem sameInside_expectOr {kind : TokenKind} (hallowed : allowed kind) (cause : SyntaxCause) :
    SameInside tokens inside (expectOr kind cause) (expectOr kind cause) := by
  intro place hplace
  refine ⟨rfl, fun result after hreads => ?_⟩
  obtain ⟨hkind, rfl⟩ := reads_expectOr.mp hreads
  exact hkeeps.step hplace (hkind ▸ hallowed)

end

/-! ## Parsers over others -/

variable {parser parser' : Parser α}

theorem SameAt.spanned {parser parser' : Parser (Span → α)}
    (hparser : SameAt tokens inside parser parser' place) :
    SameAt tokens inside (spanned parser) (spanned parser') place := by
  refine .bind rfl fun start before hstart => ?_
  obtain ⟨-, rfl⟩ := reads_mark.mp hstart
  exact hparser.andThen fun make => sameInside_since start

theorem SameInside.spanned {parser parser' : Parser (Span → α)}
    (hparser : SameInside tokens inside parser parser') :
    SameInside tokens inside (spanned parser) (spanned parser') :=
  fun _ hplace => (hparser hplace).spanned

theorem SameInside.ifAccepted {allowed : TokenKind → Prop} (hkeeps : tokens.Keeps allowed inside)
    {kind : TokenKind} (hallowed : allowed kind)
    (hparser : SameInside tokens inside parser parser') :
    SameInside tokens inside (ifAccepted kind parser) (ifAccepted kind parser') :=
  (sameInside_accept hkeeps hallowed).bind fun _ => .ite (hparser.bind fun _ => .pure _) (.pure _)

/-- Loops do the same if their steps do. -/
theorem sameInside_iterate {step step' : σ → Parser (Step σ α)}
    (hstep : ∀ state, SameInside tokens inside (step state) (step' state)) (state : σ) :
    SameInside tokens inside (iterate state step) (iterate state step') := by
  have hfor : ∀ (fuel : Nat) (state : σ),
      SameInside tokens inside (iterateFor step fuel state) (iterateFor step' fuel state) := by
    intro fuel
    induction fuel with
    | zero => exact fun _ => sameInside_failNext
    | succ fuel ih =>
      refine fun state => (hstep state).bind fun decision => ?_
      cases decision with
      | next state' => exact ih state'
      | done result => exact .pure result
  exact hfor _ state

/-- Items that are read while a condition holds are the same where it does. -/
theorem sameInside_repeatWhile {condition : Parser Bool}
    (hcondition : SameInside tokens inside condition condition)
    (hitem : ∀ ⦃before start⦄, inside before.next → condition.Reads tokens before true start →
      SameAt tokens inside parser parser' start) :
    SameInside tokens inside (repeatWhile condition parser) (repeatWhile condition parser') := by
  refine sameInside_iterate (fun items place hplace => ?_) []
  refine .bind rfl fun more start hmore => ?_
  cases more with
  | false => exact SameInside.pure _ ((hcondition hplace).2 hmore)
  | true =>
    exact (hitem hplace hmore).andThen fun value => .pure _

/-- Repetitions do the same if what is repeated does. -/
theorem SameInside.repeatWhile {condition : Parser Bool}
    (hparser : SameInside tokens inside parser parser')
    (hcondition : SameInside tokens inside condition condition) :
    SameInside tokens inside (repeatWhile condition parser) (repeatWhile condition parser') :=
  sameInside_repeatWhile hcondition fun _ _ hplace hreads => hparser ((hcondition hplace).2 hreads)

/-- Lists in brackets are the same if their commas and closing brackets stay in the region. -/
theorem sameInside_listUntil {allowed : TokenKind → Prop} (hkeeps : tokens.Keeps allowed inside)
    {close : TokenKind} (hcomma : allowed .comma) (hclose : allowed close)
    (hparser : SameInside tokens inside parser parser') :
    SameInside tokens inside (listUntil close parser) (listUntil close parser') :=
  sameInside_iterate (fun _ => (sameInside_accept hkeeps hclose).bind fun _ => .ite (.pure _) <|
    hparser.bind fun _ => (sameInside_accept hkeeps hcomma).bind fun _ => .ite (.pure _) <|
      (sameInside_expect hkeeps hclose).bind fun _ => .pure _) []

end Parser

end PythonOutline
