import PythonOutline.Parser.Loop
import Mathlib.Tactic.Simproc.ExistsAndEq

/-! # What parsers read

`Reads` says that a parser yields a value and moves from one place to another. The lemmas of this
module tell for every building block of parsers when it reads a value, in terms of the parsers it is
made of. They are simplification rules, so that the rule of a parser that is written with them
follows by unfolding it; from then on only its rule is used.

A place also remembers how many tokens were looked at. That matters to nobody but the report of
lexical errors, so places that differ by it are told apart by `Place.look` and otherwise ignored.
-/

namespace PythonOutline

namespace Place

/-- The place once the token a number of tokens ahead has been looked at. -/
def look (place : Place) (distance : Nat) : Place :=
  { place with seen := max place.seen (place.next + distance + 1) }

/-- The place behind the next token. -/
def step (place : Place) : Place :=
  { place.look 0 with next := place.next + 1 }

@[simp]
theorem look_next (place : Place) (distance : Nat) : (place.look distance).next = place.next :=
  rfl

@[simp]
theorem step_next (place : Place) : place.step.next = place.next + 1 :=
  rfl

@[simp]
theorem look_look (place : Place) (first second : Nat) :
    (place.look first).look second = place.look (max first second) := by
  simp [look]

@[simp]
theorem look_zero_step (place : Place) : (place.look 0).step = place.step := by
  simp [look, step]

end Place

namespace Tokens

/-- The kind of the next token at a place. -/
def kindAt (tokens : Tokens) (place : Place) : TokenKind :=
  (tokens.get place.next).kind

variable {tokens : Tokens} {place : Place}

@[simp]
theorem get_kind : (tokens.get place.next).kind = tokens.kindAt place :=
  rfl

@[simp]
theorem get_kind_step : (tokens.get (place.next + 1)).kind = tokens.kindAt place.step :=
  rfl

@[simp]
theorem kindAt_look {distance : Nat} : tokens.kindAt (place.look distance) = tokens.kindAt place :=
  rfl

@[simp]
theorem kindAt_look_step {distance : Nat} :
    tokens.kindAt (place.look distance).step = tokens.kindAt place.step :=
  rfl

end Tokens

namespace Parser

/-- A parser yields a value and moves from one place to another. -/
def Reads {α : Type} (parser : Parser α) (tokens : Tokens) (before : Place) (value : α)
    (after : Place) : Prop :=
  parser tokens before = .ok value after

variable {α β : Type} {tokens : Tokens} {before after : Place}

/-! ## Sequencing -/

@[simp]
theorem reads_pure {value result : α} :
    (pure value : Parser α).Reads tokens before result after ↔ result = value ∧ after = before := by
  constructor
  · intro hreads
    cases hreads
    exact ⟨rfl, rfl⟩
  · rintro ⟨rfl, rfl⟩
    rfl

@[simp]
theorem reads_bind {first : Parser α} {others : α → Parser β} {result : β} :
    (first >>= others).Reads tokens before result after ↔
      ∃ value middle, first.Reads tokens before value middle ∧
        (others value).Reads tokens middle result after := by
  simp only [Reads, bind, ReaderT.bind, EStateM.bind]
  cases first tokens before with
  | ok value middle => simp [and_assoc]
  | error error place => simp

@[simp]
theorem reads_map {make : α → β} {first : Parser α} {result : β} :
    (make <$> first).Reads tokens before result after ↔
      ∃ value, first.Reads tokens before value after ∧ result = make value := by
  simp only [Reads, Functor.map, EStateM.map]
  cases first tokens before with
  | ok value middle =>
    simp only [EStateM.Result.ok.injEq]
    constructor
    · rintro ⟨rfl, rfl⟩
      exact ⟨value, ⟨rfl, rfl⟩, rfl⟩
    · rintro ⟨_, ⟨rfl, rfl⟩, rfl⟩
      exact ⟨rfl, rfl⟩
  | error error place => simp

@[simp]
theorem reads_throw {error : SyntaxError} {result : α} :
    (throw error : Parser α).Reads tokens before result after ↔ False := by
  constructor
  · intro hreads
    cases hreads
  · exact False.elim

@[simp]
theorem reads_ite {choice : Prop} [Decidable choice] {first second : Parser α} {result : α} :
    (if choice then first else second).Reads tokens before result after ↔
      if choice then first.Reads tokens before result after
      else second.Reads tokens before result after := by
  split <;> rfl

/-- What follows a choice follows both of its branches. -/
theorem ite_bind {choice : Prop} [Decidable choice] {first second : Parser α}
    {others : α → Parser β} :
    (if choice then first >>= others else second >>= others) =
      (if choice then first else second) >>= others := by
  split <;> rfl

@[simp]
theorem reads_get {result : Place} :
    (get : Parser Place).Reads tokens before result after ↔
      result = before ∧ after = before := by
  constructor
  · intro hreads
    cases hreads
    exact ⟨rfl, rfl⟩
  · rintro ⟨rfl, rfl⟩
    rfl

@[simp]
theorem reads_set {place : Place} {result : PUnit} :
    (set place : Parser PUnit).Reads tokens before result after ↔ after = place := by
  constructor
  · intro hreads
    cases hreads
    rfl
  · rintro rfl
    rfl

@[simp]
theorem reads_modify {change : Place → Place} {result : PUnit} :
    (modify change : Parser PUnit).Reads tokens before result after ↔ after = change before := by
  constructor
  · intro hreads
    cases hreads
    rfl
  · rintro rfl
    rfl

@[simp]
theorem reads_read {result : Tokens} :
    (read : Parser Tokens).Reads tokens before result after ↔
      result = tokens ∧ after = before := by
  constructor
  · intro hreads
    cases hreads
    exact ⟨rfl, rfl⟩
  · rintro ⟨rfl, rfl⟩
    rfl

/-! ## Tokens -/

@[simp]
theorem reads_lookAhead {distance : Nat} {token : Token} :
    (lookAhead distance).Reads tokens before token after ↔
      token = tokens.get (before.next + distance) ∧ after = before.look distance := by
  simp [lookAhead, Place.look, and_assoc, and_comm]

@[simp]
theorem reads_peek {token : Token} :
    peek.Reads tokens before token after ↔
      token = tokens.get before.next ∧ after = before.look 0 := by
  simp [peek]

@[simp]
theorem reads_peekTwo {pair : Token × Token} :
    peekTwo.Reads tokens before pair after ↔
      pair = (tokens.get before.next, tokens.get (before.next + 1)) ∧ after = before.look 1 := by
  simp [peekTwo, and_assoc, and_comm]

@[simp]
theorem reads_peekThree {triple : Token × Token × Token} :
    peekThree.Reads tokens before triple after ↔
      triple = (tokens.get before.next, tokens.get (before.next + 1),
        tokens.get (before.next + 2)) ∧ after = before.look 2 := by
  simp [peekThree, and_assoc, and_comm]

@[simp]
theorem reads_peekKind {kind : TokenKind} :
    peekKind.Reads tokens before kind after ↔
      kind = tokens.kindAt before ∧ after = before.look 0 := by
  simp [peekKind, and_comm]

@[simp]
theorem reads_nextIs {kind : TokenKind} {result : Bool} :
    (nextIs kind).Reads tokens before result after ↔
      result = (tokens.kindAt before == kind) ∧ after = before.look 0 := by
  simp [nextIs, and_comm]

/-- Whether a token is an identifier with a text. -/
def isWord (word : String) (token : Token) : Bool :=
  token.kind == .identifier && token.text == word

/-- A word is an identifier. -/
theorem kind_of_isWord {word : String} {token : Token} (hword : isWord word token) :
    token.kind = .identifier := by
  unfold isWord at hword
  exact eq_of_beq (Bool.and_eq_true_iff.mp hword).1

@[simp]
theorem reads_nextIsWord {word : String} {result : Bool} :
    (nextIsWord word).Reads tokens before result after ↔
      result = isWord word (tokens.get before.next) ∧ after = before.look 0 := by
  simp [nextIsWord, isWord, and_comm]

@[simp]
theorem reads_take {token : Token} :
    take.Reads tokens before token after ↔
      token = tokens.get before.next ∧ after = before.step := by
  simp [take]
  exact and_comm

/-- A token that may be there is taken if it is, and only looked at otherwise. -/
theorem reads_accept {kind : TokenKind} {result : Bool} :
    (accept kind).Reads tokens before result after ↔
      if tokens.kindAt before = kind then result = true ∧ after = before.step
      else result = false ∧ after = before.look 0 := by
  by_cases hkind : tokens.kindAt before = kind
  · simp [accept, hkind, and_comm]
  · simp [accept, hkind]

@[simp]
theorem reads_accept_true {kind : TokenKind} :
    (accept kind).Reads tokens before true after ↔
      tokens.kindAt before = kind ∧ after = before.step := by
  simp [reads_accept]

@[simp]
theorem reads_accept_false {kind : TokenKind} :
    (accept kind).Reads tokens before false after ↔
      tokens.kindAt before ≠ kind ∧ after = before.look 0 := by
  simp [reads_accept]

/-- What follows an optional token starts behind it or in its place. -/
@[simp high]
theorem reads_accept_bind {kind : TokenKind} {others : Bool → Parser α} {result : α} :
    (accept kind >>= others).Reads tokens before result after ↔
      if tokens.kindAt before = kind then (others true).Reads tokens before.step result after
      else (others false).Reads tokens (before.look 0) result after := by
  rw [reads_bind]
  simp only [reads_accept]
  split <;> simp

@[simp]
theorem reads_expect {kind : TokenKind} {token : Token} :
    (expect kind).Reads tokens before token after ↔
      tokens.kindAt before = kind ∧ token = tokens.get before.next ∧ after = before.step := by
  simp only [expect, reads_bind, reads_take, reads_ite, reads_pure, reads_throw]
  constructor
  · rintro ⟨value, middle, ⟨rfl, rfl⟩, hreads⟩
    split at hreads
    · rename_i hkind
      exact ⟨hkind, hreads⟩
    · exact hreads.elim
  · rintro ⟨hkind, rfl, rfl⟩
    exact ⟨_, _, ⟨rfl, rfl⟩, by simp [hkind]⟩

@[simp]
theorem reads_expectOr {kind : TokenKind} {cause : SyntaxCause} {result : Unit} :
    (expectOr kind cause).Reads tokens before result after ↔
      tokens.kindAt before = kind ∧ after = before.step := by
  simp [expectOr]

@[simp]
theorem reads_identifier {text : String} :
    identifier.Reads tokens before text after ↔
      tokens.kindAt before = .identifier ∧ text = (tokens.get before.next).text ∧
        after = before.step := by
  simp [identifier]

@[simp]
theorem reads_failNext {cause : SyntaxCause} {result : α} :
    (failNext cause : Parser α).Reads tokens before result after ↔ False := by
  simp [failNext]

/-! ## Spans -/

@[simp]
theorem reads_mark {index : Nat} :
    mark.Reads tokens before index after ↔ index = before.next ∧ after = before := by
  simp [mark, and_comm]

@[simp]
theorem reads_spanSince {start : Nat} {span : Span} :
    (spanSince start).Reads tokens before span after ↔
      span = tokens.spanBetween start before.next ∧ after = before := by
  simp [spanSince, and_assoc, and_comm]

@[simp]
theorem reads_spanned {parser : Parser (Span → α)} {value : α} :
    (spanned parser).Reads tokens before value after ↔
      ∃ make, parser.Reads tokens before make after ∧
        value = make (tokens.spanBetween before.next after.next) := by
  simp [spanned]

/-! ## Options -/

/-- An optional part stands behind its first token, or it is absent and nothing is taken. -/
@[simp]
theorem reads_ifAccepted {kind : TokenKind} {parser : Parser α} {result : Option α} :
    (ifAccepted kind parser).Reads tokens before result after ↔
      if tokens.kindAt before = kind then
        ∃ value, parser.Reads tokens before.step value after ∧ result = some value
      else result = none ∧ after = before.look 0 := by
  simp [ifAccepted]

@[simp]
theorem reads_attempt_some {parser : Parser (Option α)} {value : α} :
    (attempt parser).Reads tokens before (some value) after ↔
      parser.Reads tokens before (some value) after := by
  simp only [Reads, attempt]
  split <;> simp_all

/-- An attempt without a value takes nothing. -/
theorem reads_attempt_none {parser : Parser (Option α)}
    (hreads : (attempt parser).Reads tokens before none after) : after.next = before.next := by
  simp only [Reads, attempt] at hreads
  split at hreads
  · cases hreads
  · cases hreads
    rfl
  · cases hreads
    rfl

/-- An attempt that cannot bring a value brings none. -/
theorem attempt_reads_none {parser : Parser (Option α)}
    (hnone : ∀ value after, ¬parser.Reads tokens before (some value) after) :
    ∃ seen, (attempt parser).Reads tokens before none ⟨before.next, seen⟩ := by
  simp only [Reads, attempt]
  split
  · rename_i value place hparser
    exact absurd hparser (hnone value place)
  · rename_i place hparser
    exact ⟨place.seen, rfl⟩
  · rename_i error place hparser
    exact ⟨place.seen, rfl⟩

end Parser

end PythonOutline
