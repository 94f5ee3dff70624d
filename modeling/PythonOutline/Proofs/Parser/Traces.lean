import PythonOutline.Parser.Nesting
import PythonOutline.Proofs.Parser.Script

/-! # Tracing errors about nesting

An error about nesting is the failure of a construct that opens a nesting level, and every construct
is opened by a token. A parser traces its errors about nesting if each of them comes from such a
token, at or behind the place where the parser started. Sequencing and the building blocks of
parsers keep this, as the instances of this module say, so that it is found for the grammar by
unfolding it.

The class is stated for a bound on the tokens and not for the start of a parser, so that parsers one
behind the other have the same bound.
-/

namespace PythonOutline

/-! ## Constructs and the tokens that open them -/

/-- The constructs that open a nesting level. -/
inductive Construct where
  | lambda
  | alternate
  | negation
  | operand
  | exponent
  | call
  | subscript
  | parens
  | brackets
  | braces
  deriving DecidableEq

namespace Construct

/-- The kinds of tokens that open a construct. -/
def IsOpenedBy (kind : TokenKind) : Construct → Prop
  | .lambda => kind = .keywordLambda
  | .alternate => kind = .keywordElse
  | .negation => kind = .keywordNot
  | .operand => (Operator.unary? kind).isSome
  | .exponent => kind = .asteriskAsterisk
  | .call => kind = .parenthesisOpen
  | .subscript => kind = .bracketOpen
  | .parens => kind = .parenthesisOpen
  | .brackets => kind = .bracketOpen
  | .braces => kind = .braceOpen

/-- The token that a construct starts with, by the token that opens it: a lambda and the constructs
in brackets start with their openers, and the operand of an operator stands behind it. -/
def startsAt (opener : Nat) : Construct → Nat
  | .alternate | .negation | .operand | .exponent => opener + 1
  | .lambda | .call | .subscript | .parens | .brackets | .braces => opener

/-- A construct fails at a place with an error, as seen from the level outside. -/
def FailsIn (level : Level) (tokens : Tokens) (place : Place) (error : SyntaxError) :
    Construct → Prop
  | .lambda => ∃ after, level.innerLambda tokens place = .error error after
  | .alternate => ∃ after, level.innerExpr tokens place = .error error after
  | .negation => ∃ after, level.innerNotTest tokens place = .error error after
  | .operand => ∃ after, level.innerFactor tokens place = .error error after
  | .exponent => ∃ after, level.innerFactor tokens place = .error error after
  | .call => ∃ after, level.innerArguments tokens place = .error error after
  | .subscript => ∃ after, level.innerIndex tokens place = .error error after
  | .parens => ∃ after, level.innerParens tokens place = .error error after
  | .brackets => ∃ after, level.innerBrackets tokens place = .error error after
  | .braces => ∃ after, level.innerBraces tokens place = .error error after

end Construct

/-- The construct that a token opens in a level fails with an error. -/
def Level.FailsAt (level : Level) (tokens : Tokens) (opener : Nat) (error : SyntaxError) : Prop :=
  ∃ construct place, Construct.IsOpenedBy (tokens.get opener).kind construct ∧
    place.next = construct.startsAt opener ∧ construct.FailsIn level tokens place error

namespace Parser

variable {α β : Type} {level : Level} {low : Nat} {tokens : Tokens} {place : Place}

/-- What a parser reads ends behind where it starts, or there. -/
def Forward (parser : Parser α) : Prop :=
  ∀ {tokens before value after}, parser.Reads tokens before value after →
    before.next ≤ after.next

/-- From a place on, the errors of a parser about nesting come from constructs that are opened at or
behind a token. -/
def FailsTraced (level : Level) (low : Nat) (tokens : Tokens) (place : Place)
    (parser : Parser α) : Prop :=
  ∀ {error after}, parser tokens place = .error error after → error.cause = .nestingTooDeep →
    ∃ opener, low ≤ opener ∧ level.FailsAt tokens opener error

/-- From a place on, a parser traces its errors about nesting, and what it reads ends at or behind
the same token. -/
structure TracesAt (level : Level) (low : Nat) (tokens : Tokens) (place : Place)
    (parser : Parser α) : Prop where
  forward : ∀ {value after}, parser.Reads tokens place value after → low ≤ after.next
  traces : FailsTraced level low tokens place parser

/-- A parser traces its errors about nesting wherever it starts at or behind a token. -/
class Traces (level : Level) (low : Nat) (parser : Parser α) : Prop where
  tracesAt : ∀ {tokens place}, low ≤ place.next → TracesAt level low tokens place parser

/-- A parser that traces its errors from wherever it starts does not go back. -/
theorem Forward.of_tracesAt {parser : Parser α}
    (hparser : ∀ tokens place, TracesAt level place.next tokens place parser) :
    parser.Forward :=
  fun hreads => (hparser _ _).forward hreads

/-- A parser that traces its errors does not go back. -/
theorem Forward.of_traces {parser : Parser α} (hparser : ∀ low, Traces level low parser) :
    parser.Forward :=
  Forward.of_tracesAt fun _ place => (hparser place.next).tracesAt (Nat.le_refl _)

/-- What is traced from a token on is traced from each one before it. -/
theorem TracesAt.mono {parser : Parser α} {low' : Nat} (hle : low ≤ low')
    (hparser : TracesAt level low' tokens place parser) : TracesAt level low tokens place parser := by
  refine ⟨fun hreads => Nat.le_trans hle (hparser.forward hreads), fun herror hcause => ?_⟩
  obtain ⟨opener, hopener, hfails⟩ := hparser.traces herror hcause
  exact ⟨opener, Nat.le_trans hle hopener, hfails⟩

/-- A cause that is not about nesting. -/
class IsShallow (cause : SyntaxCause) : Prop where
  ne : cause ≠ .nestingTooDeep

instance {text : String} : IsShallow (.expected text) :=
  ⟨nofun⟩

instance {kind : TokenKind} : IsShallow (.requiredToken kind) :=
  ⟨nofun⟩

instance : IsShallow .invalidAssignmentTarget :=
  ⟨nofun⟩

instance : IsShallow .unexpectedIndent :=
  ⟨nofun⟩

instance : IsShallow .expectedIndentedBlock :=
  ⟨nofun⟩

instance : IsShallow .tryWithoutHandlers :=
  ⟨nofun⟩

instance : IsShallow .unexpectedEnd :=
  ⟨nofun⟩

instance : IsShallow .nonDefaultAfterDefault :=
  ⟨nofun⟩

/-! ## Sequencing -/

section

variable {first : Parser α} {others : α → Parser β}

/-- One parser behind another, which starts where the first one has read. -/
theorem TracesAt.bind (hfirst : FailsTraced level low tokens place first)
    (hothers : ∀ value middle, first.Reads tokens place value middle →
      TracesAt level low tokens middle (others value)) :
    TracesAt level low tokens place (first >>= others) := by
  constructor
  · intro value after hreads
    obtain ⟨_, middle, hfirstReads, hreads⟩ := reads_bind.mp hreads
    exact (hothers _ middle hfirstReads).forward hreads
  · intro error after herror hcause
    rw [bind_apply] at herror
    cases hresult : first tokens place with
    | error error' middle =>
      rw [hresult] at herror
      cases herror
      exact hfirst hresult hcause
    | ok value middle =>
      rw [hresult] at herror
      exact (hothers value middle hresult).traces herror hcause

/-- An error that is not about nesting need not be traced. -/
theorem TracesAt.throw {error : SyntaxError} (herror : error.cause ≠ .nestingTooDeep) :
    TracesAt level low tokens place (throw error : Parser α) := by
  refine ⟨fun hreads => (reads_throw.mp hreads).elim, ?_⟩
  rintro _ _ ⟨⟩ hcause
  exact absurd hcause herror

/-- A value is no error. -/
theorem TracesAt.pure (hplace : low ≤ place.next) {value : α} :
    TracesAt level low tokens place (pure value : Parser α) := by
  refine ⟨fun hreads => ?_, fun herror => by cases herror⟩
  obtain ⟨-, rfl⟩ := reads_pure.mp hreads
  exact hplace

instance {value : α} : Traces level low (pure value : Parser α) :=
  ⟨fun hplace => .pure hplace⟩

instance {token : Token} {cause : SyntaxCause} [hcause : IsShallow cause] :
    Traces level low (throw (token.error cause) : Parser α) :=
  ⟨fun _ => .throw hcause.ne⟩

instance {span : Span} {cause : SyntaxCause} [hcause : IsShallow cause] :
    Traces level low (throw (span.error cause) : Parser α) :=
  ⟨fun _ => .throw hcause.ne⟩

instance {span : Span} {cause : SyntaxCause} {kind : Option TokenKind}
    [hcause : IsShallow cause] : Traces level low (throw ⟨cause, span, kind⟩ : Parser α) :=
  ⟨fun _ => .throw hcause.ne⟩

instance Traces.bind [hfirst : Traces level low first]
    [hothers : ∀ value, Traces level low (others value)] :
    Traces level low (first >>= others) :=
  ⟨fun hplace => .bind (hfirst.tracesAt hplace).traces fun value _ hreads =>
    (hothers value).tracesAt ((hfirst.tracesAt hplace).forward hreads)⟩

instance Traces.map {make : α → β} [hfirst : Traces level low first] :
    Traces level low (make <$> first) := by
  rw [map_eq_pure_bind]
  infer_instance

instance Traces.ite {choice : Prop} [Decidable choice] {other : Parser α}
    [hfirst : Traces level low first] [hother : Traces level low other] :
    Traces level low (if choice then first else other) := by
  split
  · exact hfirst
  · exact hother

/-- What comes behind a parser that traces its errors may do so wherever it starts. -/
theorem TracesAt.andThen (hfirst : TracesAt level low tokens place first)
    [hothers : ∀ value, Traces level low (others value)] :
    TracesAt level low tokens place (first >>= others) :=
  .bind hfirst.traces fun value _ hreads => (hothers value).tracesAt (hfirst.forward hreads)

/-- What comes behind a parser may start only where that one has read. -/
theorem Traces.seqReads [hfirst : Traces level low first]
    (hothers : ∀ {tokens place value middle}, low ≤ place.next →
      first.Reads tokens place value middle → TracesAt level low tokens middle (others value)) :
    Traces level low (first >>= others) :=
  ⟨fun hplace => .bind (hfirst.tracesAt hplace).traces fun _ _ hreads => hothers hplace hreads⟩

/-- The rule for continuations that do not follow by instances. -/
theorem Traces.seq [Traces level low first] (hothers : ∀ value, Traces level low (others value)) :
    Traces level low (first >>= others) :=
  inferInstance

end

/-! ## Building blocks -/

/-- A parser that never fails and never goes back. -/
theorem Traces.of_total {parser : Parser α} (hforward : parser.Forward)
    (htotal : ∀ tokens place error after, parser tokens place ≠ .error error after) :
    Traces level low parser :=
  ⟨fun hplace => ⟨fun hreads => Nat.le_trans hplace (hforward hreads),
    fun herror => absurd herror (htotal _ _ _ _)⟩⟩

variable {kind : TokenKind}

instance : Traces level low peek :=
  .of_total (fun hreads => by obtain ⟨-, rfl⟩ := reads_peek.mp hreads; exact Nat.le_refl _)
    fun _ _ _ _ herror => by cases herror

instance : Traces level low peekTwo :=
  .of_total (fun hreads => by obtain ⟨-, rfl⟩ := reads_peekTwo.mp hreads; exact Nat.le_refl _)
    fun _ _ _ _ herror => by cases herror

instance : Traces level low peekThree :=
  .of_total (fun hreads => by obtain ⟨-, rfl⟩ := reads_peekThree.mp hreads; exact Nat.le_refl _)
    fun _ _ _ _ herror => by cases herror

instance : Traces level low take :=
  .of_total (fun hreads => by obtain ⟨-, rfl⟩ := reads_take.mp hreads; exact Nat.le_succ _)
    fun _ _ _ _ herror => by cases herror

instance : Traces level low mark :=
  .of_total (fun hreads => by cases hreads; exact Nat.le_refl _)
    fun _ _ _ _ herror => by cases herror

instance {start : Nat} : Traces level low (spanSince start) :=
  .of_total (fun hreads => by cases hreads; exact Nat.le_refl _)
    fun _ _ _ _ herror => by cases herror

instance : Traces level low (read : Parser Tokens) :=
  .of_total (fun hreads => by cases hreads; exact Nat.le_refl _)
    fun _ _ _ _ herror => by cases herror

instance : Traces level low peekKind := by
  unfold peekKind
  infer_instance

instance : Traces level low (nextIs kind) := by
  unfold nextIs
  infer_instance

instance {word : String} : Traces level low (nextIsWord word) := by
  unfold nextIsWord
  infer_instance

instance : Traces level low (accept kind) := by
  unfold accept
  infer_instance

instance : Traces level low (expect kind) := by
  unfold expect
  infer_instance

instance {cause : SyntaxCause} [IsShallow cause] : Traces level low (expectOr kind cause) := by
  unfold expectOr
  infer_instance

instance : Traces level low identifier := by
  unfold identifier
  infer_instance

instance {cause : SyntaxCause} [IsShallow cause] :
    Traces level low (failNext cause : Parser α) := by
  unfold failNext
  infer_instance

instance {parser : Parser (Span → α)} [Traces level low parser] :
    Traces level low (spanned parser) := by
  unfold spanned
  infer_instance

/-- A mark takes nothing, so what follows it starts where it stands. -/
theorem TracesAt.seqMark {others : Nat → Parser β}
    (hothers : TracesAt level low tokens place (others place.next)) :
    TracesAt level low tokens place (mark >>= others) := by
  refine .bind (fun herror => by cases herror) fun start middle hmark => ?_
  cases hmark
  exact hothers

/-- A parser with a span traces its errors where the one without it does. -/
theorem TracesAt.spanned {parser : Parser (Span → α)}
    (hparser : TracesAt level low tokens place parser) :
    TracesAt level low tokens place (Parser.spanned parser) := by
  unfold Parser.spanned
  exact .seqMark hparser.andThen

/-- The same rule for parsers that do not follow by instances. -/
theorem Traces.withSpan {parser : Parser (Span → α)} (hparser : Traces level low parser) :
    Traces level low (spanned parser) :=
  inferInstance

instance {parser : Parser α} [Traces level low parser] :
    Traces level low (ifAccepted kind parser) := by
  unfold ifAccepted
  infer_instance

/-- A parser that goes back instead of failing. -/
instance Traces.attempt {parser : Parser (Option α)} [hparser : Traces level low parser] :
    Traces level low (Parser.attempt parser) := by
  refine ⟨fun {tokens place} hplace => ⟨?_, ?_⟩⟩
  · intro value after hreads
    unfold Reads Parser.attempt at hreads
    split at hreads
    · rename_i hresult
      cases hreads
      exact (hparser.tracesAt hplace).forward hresult
    · cases hreads
      exact hplace
    · cases hreads
      exact hplace
  · intro error after herror
    unfold Parser.attempt at herror
    split at herror <;> cases herror

/-! ## Opening tokens -/

/-- What follows a token that must be there starts behind it. -/
theorem Traces.seqExpect {others : Token → Parser β}
    (hothers : ∀ {tokens place token}, low ≤ place.next → tokens.kindAt place = kind →
      TracesAt level low tokens place.step (others token)) :
    Traces level low (expect kind >>= others) :=
  .seqReads fun hplace hreads => by
    obtain ⟨hkind, -, rfl⟩ := reads_expect.mp hreads
    exact hothers hplace hkind

/-- What follows a token that may be there starts behind it. -/
theorem Traces.seqAccept {first other : Parser β} [hother : Traces level low other]
    (hfirst : ∀ {tokens place}, low ≤ place.next → tokens.kindAt place = kind →
      TracesAt level low tokens place.step first) :
    Traces level low (accept kind >>= fun taken => if taken then first else other) :=
  .seqReads fun {_ _ taken _} hplace hreads => by
    cases taken with
    | true =>
      obtain ⟨hkind, rfl⟩ := reads_accept_true.mp hreads
      exact hfirst hplace hkind
    | false =>
      obtain ⟨-, rfl⟩ := reads_accept_false.mp hreads
      exact hother.tracesAt hplace

/-- A parser for what the next token starts. -/
theorem Traces.seqNextIs {first other : Parser β} [hother : Traces level low other]
    (hfirst : ∀ {tokens place}, low ≤ place.next → tokens.kindAt place = kind →
      TracesAt level low tokens place first) :
    Traces level low (nextIs kind >>= fun next => if next then first else other) :=
  .seqReads fun {tokens place next middle} hplace hreads => by
    obtain ⟨hnext, rfl⟩ := reads_nextIs.mp hreads
    have hlow : low ≤ (place.look 0).next := hplace
    cases next with
    | true =>
      have hkind : tokens.kindAt (place.look 0) = kind := by simpa using hnext.symm
      exact hfirst hlow hkind
    | false => exact hother.tracesAt hlow

/-- What follows the next token starts behind it. -/
theorem TracesAt.seqTake {others : Token → Parser β}
    (hothers : TracesAt level low tokens place.step (others (tokens.get place.next))) :
    TracesAt level low tokens place (take >>= others) := by
  refine .bind (fun herror => by cases herror) fun token middle hreads => ?_
  obtain ⟨rfl, rfl⟩ := reads_take.mp hreads
  exact hothers

/-- A token that is missing is reported as such. -/
theorem expect_cause {error : SyntaxError} {after : Place}
    (herror : expect kind tokens place = .error error after) :
    error.cause = .requiredToken kind := by
  unfold expect at herror
  rw [bind_apply] at herror
  split at herror
  · split at herror <;> cases herror
    rfl
  · rename_i hnone
    cases hnone

/-- Behind a token that must be there, the errors are traced to what stands behind it. -/
theorem tracesAt_expect {others : Token → Parser β}
    (hothers : ∀ token, Traces level (place.next + 1) (others token)) :
    TracesAt level (place.next + 1) tokens place (expect kind >>= others) := by
  refine .bind (fun herror hcause => ?_) fun token middle hreads => ?_
  · rw [expect_cause herror] at hcause
    cases hcause
  · obtain ⟨-, -, rfl⟩ := reads_expect.mp hreads
    exact (hothers token).tracesAt (Nat.le_refl _)

/-- The errors of the construct that a token opens are traced to the token. -/
theorem TracesAt.inner {parser : Parser α} (construct : Construct) {opener : Nat}
    (hforward : parser.Forward)
    (hfails : ∀ {error after}, parser tokens place = .error error after →
      construct.FailsIn level tokens place error)
    (hlow : low ≤ opener) (hopened : Construct.IsOpenedBy (tokens.get opener).kind construct)
    (hstart : place.next = construct.startsAt opener) :
    TracesAt level low tokens place parser := by
  have hle : opener ≤ construct.startsAt opener := by
    cases construct <;> first | exact Nat.le_refl _ | exact Nat.le_succ _
  refine ⟨fun hreads => ?_, fun herror _ => ?_⟩
  · exact Nat.le_trans (Nat.le_trans hlow (hstart ▸ hle)) (hforward hreads)
  · exact ⟨opener, hlow, construct, place, hopened, hstart, hfails herror⟩

/-! ## Loops -/

section Loops

variable {step : α → Parser (Step α β)} [hstep : ∀ state, Traces level low (step state)]

instance Traces.iterateFor {fuel : Nat} {state : α} :
    Traces level low (iterateFor step fuel state) := by
  induction fuel generalizing state with
  | zero =>
    unfold Parser.iterateFor
    infer_instance
  | succ fuel ih =>
    unfold Parser.iterateFor
    refine Traces.seq fun outcome => ?_
    cases outcome <;> infer_instance

instance Traces.iterate {state : α} : Traces level low (iterate state step) := by
  unfold Parser.iterate
  infer_instance

omit hstep in
/-- A loop traces its errors if its steps do. -/
theorem Traces.loop {state : α} (hstep : ∀ state, Traces level low (step state)) :
    Traces level low (Parser.iterate state step) :=
  inferInstance

variable {condition : Parser Bool} {item : Parser α} [Traces level low condition]
  [Traces level low item]

instance : Traces level low (repeatWhile condition item) := by
  unfold repeatWhile
  infer_instance

instance : Traces level low (commaSeparated item) := by
  unfold commaSeparated
  infer_instance

instance {close : TokenKind} : Traces level low (listUntil close item) := by
  unfold listUntil
  infer_instance

end Loops

end Parser

end PythonOutline
