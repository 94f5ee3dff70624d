import PythonOutline.Parser.Loop
import PythonOutline.Proofs.Parser.Script
import Mathlib.Tactic.Choose

/-! # Regular parsers

A parser is regular if it is a plain script of operations, and if each of its errors names a token
that it has looked at. Sequencing and the building blocks of parsers keep both, as the instances of
this module say, so that the grammar is found to be regular by unfolding it.

Loops are bounded by the number of tokens, so a parser is one script for each such number.
-/

namespace PythonOutline

/-- A span from the start of a solid token to the end of another one, both among the first ones. -/
def Tokens.Spans (tokens : Tokens) (seen : Nat) (span : Span) : Prop :=
  ∃ first last, first ≤ last ∧ last < seen ∧ (tokens.get first).kind.IsSolid ∧
    (tokens.get last).kind.IsSolid ∧
    span = ⟨(tokens.get first).span.start, (tokens.get last).span.stop⟩

/-- An error that concerns one of the tokens that were looked at: it names the token that was found
there or the one that was wanted, or it is about a node that was read. -/
inductive Tokens.Blames (tokens : Tokens) (seen : Nat) : SyntaxError → Prop where
  | found {index : Nat} {cause : SyntaxCause} (hindex : index < seen) :
      Blames tokens seen ((tokens.get index).error cause)
  | wanted {index : Nat} {cause : SyntaxCause} {kind : TokenKind} (hindex : index < seen)
      (hkind : kind ≠ .invalid) : Blames tokens seen ⟨cause, (tokens.get index).span, some kind⟩
  | node {span : Span} {cause : SyntaxCause}
      (hnode : tokens.InOrder → tokens.Spans seen span) :
      Blames tokens seen (span.error cause)

namespace Parser

variable {α β : Type} {bound levels : Nat} {known : List Site}

/-- What an error may concern: a token, or a node with a span. -/
inductive Site where
  | token (token : Token)
  | node (span : Span)

/-- A site is met once its token, or the tokens of its node, have been looked at. -/
def Site.Met (tokens : Tokens) (seen : Nat) : Site → Prop
  | .token found => ∃ index < seen, tokens.get index = found
  | .node span => tokens.InOrder → tokens.Spans seen span

/-- All known sites have been met. -/
def AllMet (known : List Site) (tokens : Tokens) (seen : Nat) : Prop :=
  ∀ site ∈ known, site.Met tokens seen

/-- A site that was met stays met. -/
theorem Site.Met.mono {site : Site} {tokens : Tokens} {seen later : Nat}
    (hmet : site.Met tokens seen) (hle : seen ≤ later) : site.Met tokens later := by
  cases site with
  | token token =>
    obtain ⟨index, hindex, hget⟩ := hmet
    exact ⟨index, Nat.lt_of_lt_of_le hindex hle, hget⟩
  | node span =>
    intro hordered
    obtain ⟨first, last, hfirst, hlast, hspan⟩ := hmet hordered
    exact ⟨first, last, hfirst, Nat.lt_of_lt_of_le hlast hle, hspan⟩

private theorem met_window {tokens : Tokens} {start count seen : Nat}
    (hseen : start + count ≤ seen) :
    AllMet ((tokens.window start count).map .token) tokens seen := by
  intro site hsite
  obtain ⟨token, htoken, rfl⟩ := List.mem_map.mp hsite
  obtain ⟨distance, hdistance, rfl⟩ := List.mem_map.mp htoken
  exact ⟨start + distance, by have := List.mem_range.mp hdistance; omega, rfl⟩

/-- A site is among those that are known. -/
class Known (site : Site) (known : List Site) : Prop where
  mem : site ∈ known

instance {site : Site} {known : List Site} : Known site (site :: known) :=
  ⟨List.mem_cons_self⟩

instance {site other : Site} {known : List Site} [hknown : Known site known] :
    Known site (other :: known) :=
  ⟨List.mem_cons_of_mem _ hknown.mem⟩

/-- A plain script does what a parser does with sequences of a number of tokens, where a number of
nesting levels may be opened. -/
def Performed (bound levels : Nat) (parser : Parser α) : Prop :=
  ∃ script : Script α, script.Plain ∧
    ∀ tokens : Tokens, tokens.tokens.size = bound → script.eval levels tokens = parser tokens

/-- A parser that is a plain script and whose errors concern what has been met, where the known
sites have been. -/
class Regular (bound levels : Nat) (known : List Site) (parser : Parser α) : Prop where
  performed : Performed bound levels parser
  blames : ∀ {tokens : Tokens} {before after : Place} {error : SyntaxError},
    tokens.tokens.size = bound → before.next ≤ before.seen → AllMet known tokens before.seen →
    parser tokens before = .error error after → tokens.Blames after.seen error

/-! ## Scripts -/

private theorem Performed.grows {parser : Parser α} (hparser : Performed bound levels parser)
    {tokens : Tokens} (hbound : tokens.tokens.size = bound) {place : Place}
    (hplace : place.next ≤ place.seen) : place.Grows (stop (parser tokens place)) := by
  obtain ⟨script, -, heval⟩ := hparser
  rw [← heval tokens hbound]
  exact script.grows_eval levels tokens hplace

/-- Scripts may follow each other. -/
theorem Performed.bind {first : Parser α} {others : α → Parser β}
    (hfirst : Performed bound levels first)
    (hothers : ∀ value, Performed bound levels (others value)) :
    Performed bound levels (first >>= others) := by
  obtain ⟨script, hplain, heval⟩ := hfirst
  choose rest hrestPlain hrest using hothers
  refine ⟨script.bind rest, hplain.bind hrestPlain, fun tokens hbound => ?_⟩
  rw [Script.eval_bind]
  funext place
  rw [bind_apply, bind_apply, heval tokens hbound]
  cases first tokens place with
  | error => rfl
  | ok value middle => exact congrFun (hrest value tokens hbound) middle

private theorem performed_pure (value : α) : Performed bound levels (pure value : Parser α) :=
  ⟨.done value, trivial, fun _ _ => rfl⟩

private theorem performed_throw (error : SyntaxError) :
    Performed bound levels (throw error : Parser α) :=
  ⟨.fail error, trivial, fun _ _ => rfl⟩

private theorem performed_peek : Performed bound levels peek :=
  ⟨.forward (fun _ => false) .done, fun _ => trivial, fun _ _ => rfl⟩

private theorem performed_take : Performed bound levels take :=
  ⟨.forward (fun _ => true) .done, fun _ => trivial, fun _ _ => rfl⟩

/-- Two tokens, from a window that holds as many. -/
def Script.ofTwo : List Token → Script (Token × Token)
  | [first, second] => .done (first, second)
  | _ => .fail (Span.error (.point 0) .unexpectedEnd)

private theorem performed_peekTwo : Performed bound levels peekTwo := by
  refine ⟨.ahead 2 Script.ofTwo, fun tokens => ?_, fun tokens _ => ?_⟩
  · unfold Script.ofTwo
    split <;> trivial
  · funext place
    exact (reads_peekTwo.mpr ⟨rfl, rfl⟩).symm

/-- Three tokens, from a window that holds as many. -/
def Script.ofThree : List Token → Script (Token × Token × Token)
  | [first, second, third] => .done (first, second, third)
  | _ => .fail (Span.error (.point 0) .unexpectedEnd)

private theorem performed_peekThree : Performed bound levels peekThree := by
  refine ⟨.ahead 3 Script.ofThree, fun tokens => ?_, fun tokens _ => ?_⟩
  · unfold Script.ofThree
    split <;> trivial
  · funext place
    exact (reads_peekThree.mpr ⟨rfl, rfl⟩).symm

private theorem performed_mark : Performed bound levels mark :=
  ⟨.checkpoint .done, fun _ => trivial, fun _ _ => rfl⟩

private theorem performed_spanSince (start : Nat) : Performed bound levels (spanSince start) :=
  ⟨.spans fun spanSince => .done (spanSince start), fun _ => trivial, fun _ _ => rfl⟩

private theorem performed_attempt {parser : Parser (Option α)}
    (hparser : Performed bound levels parser) :
    Performed bound levels (attempt parser) := by
  obtain ⟨script, hplain, heval⟩ := hparser
  refine ⟨.rewindable script .done, ⟨hplain, fun _ => trivial⟩, fun tokens hbound => ?_⟩
  funext place
  rw [Script.eval_rewindable, heval tokens hbound, attempt]
  rfl

/-- A question for the source and its size, as scripts may ask it. -/
theorem performed_source {others : List Char → Nat → Parser α}
    (hothers : ∀ text size, Performed bound levels (others text size)) :
    Performed bound levels (fun tokens => others tokens.source tokens.size tokens) := by
  choose rest hplain hrest using hothers
  exact ⟨.source rest, hplain, fun tokens hbound => hrest _ _ tokens hbound⟩

private theorem performed_nested {parser : Parser α} (hparser : Performed bound levels parser) :
    Performed bound (levels + 1) parser := by
  obtain ⟨script, hplain, heval⟩ := hparser
  refine ⟨.nested script .done, ⟨hplain, fun _ => trivial⟩, fun tokens hbound => ?_⟩
  funext place
  rw [Script.eval_nested_succ, heval tokens hbound]
  cases parser tokens place <;> rfl

/-! ## Regularity of the building blocks -/

section Blocks

variable {first : Parser α} {others : α → Parser β}

/-- A parser that never fails is regular if it is a script. -/
theorem Regular.of_total {parser : Parser α} (hparser : Performed bound levels parser)
    (htotal : ∀ tokens place error after, parser tokens place ≠ .error error after) :
    Regular bound levels known parser :=
  ⟨hparser, fun _ _ _ herror => absurd herror (htotal _ _ _ _)⟩

/-- One parser after another. The second one may know what the first one has read. -/
theorem Regular.bind_of_reads (hfirst : Regular bound levels known first)
    (hothers : ∀ value, Performed bound levels (others value))
    (hblames : ∀ {tokens : Tokens} {before middle after : Place} {value : α} {error : SyntaxError},
      tokens.tokens.size = bound → middle.next ≤ middle.seen → AllMet known tokens middle.seen →
      first.Reads tokens before value middle →
      others value tokens middle = .error error after → tokens.Blames after.seen error) :
    Regular bound levels known (first >>= others) := by
  refine ⟨hfirst.performed.bind hothers, ?_⟩
  intro tokens before after error hbound hplace hknown herror
  have hgrows := hfirst.performed.grows hbound hplace
  rw [bind_apply] at herror
  cases hresult : first tokens before with
  | error error middle =>
    rw [hresult] at herror
    cases herror
    exact hfirst.blames hbound hplace hknown hresult
  | ok value middle =>
    rw [hresult] at herror hgrows
    exact hblames hbound hgrows.next_le
      (fun site hsite => (hknown site hsite).mono hgrows.seen_le) hresult herror

instance Regular.pure (value : α) : Regular bound levels known (pure value : Parser α) :=
  .of_total (performed_pure value) fun _ _ _ _ herror => by cases herror

instance Regular.bind [hfirst : Regular bound levels known first]
    [hothers : ∀ value, Regular bound levels known (others value)] :
    Regular bound levels known (first >>= others) :=
  .bind_of_reads hfirst (fun value => (hothers value).performed)
    fun hbound hplace hknown _ => (hothers _).blames hbound hplace hknown

instance Regular.map {make : α → β} [Regular bound levels known first] :
    Regular bound levels known (make <$> first) :=
  inferInstanceAs (Regular bound levels known (first >>= fun value => Pure.pure (make value)))

instance Regular.ite {choice : Prop} [Decidable choice] {other : Parser α}
    [hfirst : Regular bound levels known first] [hother : Regular bound levels known other] :
    Regular bound levels known (if choice then first else other) := by
  split
  · exact hfirst
  · exact hother

/-- An error at a token that is known. -/
instance Regular.found {token : Token} {cause : SyntaxCause}
    [hknown : Known (.token token) known] :
    Regular bound levels known (throw (token.error cause) : Parser α) := by
  refine ⟨performed_throw _, ?_⟩
  intro tokens before after error _ _ hmet herror
  cases herror
  obtain ⟨index, hindex, rfl⟩ := hmet _ hknown.mem
  exact .found hindex

/-- An error at a node that is known. -/
instance Regular.refused {span : Span} {cause : SyntaxCause}
    [hknown : Known (.node span) known] :
    Regular bound levels known (throw (span.error cause) : Parser α) := by
  refine ⟨performed_throw _, ?_⟩
  intro tokens before after error _ _ hmet herror
  cases herror
  exact .node (hmet _ hknown.mem)

/-- Nothing comes behind an error. -/
theorem throw_bind {error : SyntaxError} : (throw error : Parser α) >>= others = throw error :=
  rfl

/-- What the first parser has read may make sites known to the second one. -/
theorem Regular.meeting (sitesOf : α → List Site) (hfirst : Regular bound levels known first)
    (hreads : ∀ {tokens : Tokens} {before middle : Place} {value : α},
      tokens.tokens.size = bound → middle.next ≤ middle.seen → AllMet known tokens middle.seen →
      first.Reads tokens before value middle → AllMet (sitesOf value) tokens middle.seen)
    (hothers : ∀ value, Regular bound levels (sitesOf value ++ known) (others value)) :
    Regular bound levels known (first >>= others) := by
  refine .bind_of_reads hfirst (fun value => (hothers value).performed) ?_
  intro tokens before middle after value error hbound hplace hknown hvalue
  refine (hothers value).blames hbound hplace ?_
  intro site hsite
  rcases List.mem_append.mp hsite with hsite | hsite
  · exact hreads hbound hplace hknown hvalue site hsite
  · exact hknown site hsite

instance (priority := high) Regular.peek {others : Token → Parser β}
    [hothers : ∀ token, Regular bound levels (.token token :: known) (others token)] :
    Regular bound levels known (peek >>= others) := by
  have hpeek : Regular bound levels known Parser.peek :=
    .of_total performed_peek fun _ _ _ _ herror => by cases herror
  refine .meeting (fun token => [.token token]) hpeek ?_ hothers
  intro tokens before middle token _ _ _ hreads
  obtain ⟨rfl, rfl⟩ := reads_peek.mp hreads
  exact @met_window tokens before.next 1 _ (Nat.le_max_right _ _)

instance (priority := high) Regular.take {others : Token → Parser β}
    [hothers : ∀ token, Regular bound levels (.token token :: known) (others token)] :
    Regular bound levels known (take >>= others) := by
  have htake : Regular bound levels known Parser.take :=
    .of_total performed_take fun _ _ _ _ herror => by cases herror
  refine .meeting (fun token => [.token token]) htake ?_ hothers
  intro tokens before middle token _ _ _ hreads
  obtain ⟨rfl, rfl⟩ := reads_take.mp hreads
  exact @met_window tokens before.next 1 _ (Nat.le_max_right _ _)

instance (priority := high) Regular.peekTwo {others : Token × Token → Parser β}
    [hothers : ∀ first second, Regular bound levels (.token first :: .token second :: known)
      (others (first, second))] :
    Regular bound levels known (peekTwo >>= others) := by
  have hpeek : Regular bound levels known Parser.peekTwo :=
    .of_total performed_peekTwo fun _ _ _ _ herror => by cases herror
  refine .meeting (fun pair => [.token pair.1, .token pair.2]) hpeek ?_
    fun pair => hothers pair.1 pair.2
  intro tokens before middle pair _ _ _ hreads
  obtain ⟨rfl, rfl⟩ := reads_peekTwo.mp hreads
  exact @met_window tokens before.next 2 _ (Nat.le_max_right _ _)

instance (priority := high) Regular.peekThree {others : Token × Token × Token → Parser β}
    [hothers : ∀ first second third,
      Regular bound levels (.token first :: .token second :: .token third :: known)
        (others (first, second, third))] :
    Regular bound levels known (peekThree >>= others) := by
  have hpeek : Regular bound levels known Parser.peekThree :=
    .of_total performed_peekThree fun _ _ _ _ herror => by cases herror
  refine .meeting (fun triple => [.token triple.1, .token triple.2.1, .token triple.2.2]) hpeek ?_
    fun triple => hothers triple.1 triple.2.1 triple.2.2
  intro tokens before middle triple _ _ _ hreads
  obtain ⟨rfl, rfl⟩ := reads_peekThree.mp hreads
  exact @met_window tokens before.next 3 _ (Nat.le_max_right _ _)

/-! The same rules for continuations that do not follow by instances. -/

/-- What follows is regular whatever was read before. -/
theorem Regular.seq [Regular bound levels known first]
    (hothers : ∀ value, Regular bound levels known (others value)) :
    Regular bound levels known (first >>= others) :=
  inferInstance

/-- What follows a look at a token may blame it. -/
theorem Regular.seqPeek {others : Token → Parser β}
    (hothers : ∀ token, Regular bound levels (.token token :: known) (others token)) :
    Regular bound levels known (Parser.peek >>= others) :=
  inferInstance

/-- What follows a token may blame it. -/
theorem Regular.seqTake {others : Token → Parser β}
    (hothers : ∀ token, Regular bound levels (.token token :: known) (others token)) :
    Regular bound levels known (Parser.take >>= others) :=
  inferInstance

/-- What follows a look at two tokens may blame either. -/
theorem Regular.seqPeekTwo {others : Token × Token → Parser β}
    (hothers : ∀ first second, Regular bound levels (.token first :: .token second :: known)
      (others (first, second))) :
    Regular bound levels known (Parser.peekTwo >>= others) :=
  inferInstance

/-- What follows a look at three tokens may blame any of them. -/
theorem Regular.seqPeekThree {others : Token × Token × Token → Parser β}
    (hothers : ∀ first second third,
      Regular bound levels (.token first :: .token second :: .token third :: known)
      (others (first, second, third))) :
    Regular bound levels known (Parser.peekThree >>= others) :=
  inferInstance

end Blocks

section Primitives

variable {kind : TokenKind}

instance : Regular bound levels known peek :=
  .of_total performed_peek fun _ _ _ _ herror => by cases herror

instance : Regular bound levels known peekTwo :=
  .of_total performed_peekTwo fun _ _ _ _ herror => by cases herror

instance : Regular bound levels known peekThree :=
  .of_total performed_peekThree fun _ _ _ _ herror => by cases herror

instance : Regular bound levels known take :=
  .of_total performed_take fun _ _ _ _ herror => by cases herror

instance : Regular bound levels known mark :=
  .of_total performed_mark fun _ _ _ _ herror => by cases herror

instance {start : Nat} : Regular bound levels known (spanSince start) :=
  .of_total (performed_spanSince start) fun _ _ _ _ herror => by cases herror

instance : Regular bound levels known peekKind := by
  unfold peekKind
  infer_instance

instance : Regular bound levels known (nextIs kind) := by
  unfold nextIs
  infer_instance

instance {word : String} : Regular bound levels known (nextIsWord word) := by
  unfold nextIsWord
  infer_instance

instance : Regular bound levels known (accept kind) := by
  unfold accept
  infer_instance

instance : Regular bound levels known (expect kind) := by
  unfold expect
  infer_instance

instance : Regular bound levels known identifier := by
  unfold identifier
  infer_instance

instance {cause : SyntaxCause} : Regular bound levels known (failNext cause : Parser α) := by
  unfold failNext
  infer_instance

instance {parser : Parser (Span → α)} [Regular bound levels known parser] :
    Regular bound levels known (spanned parser) := by
  unfold spanned
  infer_instance

/-- A parser with a span is regular if the one without it is. -/
theorem Regular.withSpan {parser : Parser (Span → α)}
    (hparser : Regular bound levels known parser) :
    Regular bound levels known (spanned parser) :=
  inferInstance

instance {parser : Parser α} [Regular bound levels known parser] :
    Regular bound levels known (ifAccepted kind parser) := by
  unfold ifAccepted
  infer_instance

/-- A parser that goes back instead of failing. -/
instance {parser : Parser (Option α)} [hparser : Regular bound levels known parser] :
    Regular bound levels known (attempt parser) := by
  refine .of_total (performed_attempt hparser.performed) fun tokens place error after herror => ?_
  rw [attempt] at herror
  split at herror <;> cases herror

/-- An error that names the token that was wanted. -/
theorem Regular.wanted {token : Token} {cause : SyntaxCause} [hknown : Known (.token token) known]
    (hkind : kind ≠ .invalid) :
    Regular bound levels known (throw ⟨cause, token.span, some kind⟩ : Parser α) := by
  refine ⟨performed_throw _, ?_⟩
  intro tokens before after error _ _ hmet herror
  cases herror
  obtain ⟨index, hindex, rfl⟩ := hmet _ hknown.mem
  exact .wanted hindex hkind

/-- A missing token is blamed on the one in its place. -/
theorem regular_expectOr {cause : SyntaxCause} (hkind : kind ≠ .invalid) :
    Regular bound levels known (expectOr kind cause) := by
  have hwanted : ∀ token : Token, Regular bound levels (.token token :: known)
      (throw ⟨cause, token.span, some kind⟩ : Parser PUnit) :=
    fun token => .wanted hkind
  unfold expectOr
  infer_instance

/-- A question for the spans of the tokens taken since any marks. -/
theorem regular_spans (make : (Nat → Span) → α) :
    Regular bound levels known (do
      let tokens ← read
      let stop ← mark
      return make fun start => tokens.spanBetween start stop) := by
  have hscript : Performed bound levels (do
      let tokens ← read
      let stop ← mark
      return make fun start => tokens.spanBetween start stop) :=
    ⟨.spans fun spanSince => .done (make spanSince), fun _ => trivial, fun _ _ => rfl⟩
  exact .of_total hscript fun _ _ _ _ herror => by cases herror

/-- A question for the source and its size. -/
theorem Regular.source {others : List Char → Nat → Parser α}
    (hothers : ∀ text size, Regular bound levels known (others text size)) :
    Regular bound levels known (fun tokens => others tokens.source tokens.size tokens) :=
  ⟨performed_source fun text size => (hothers text size).performed,
    fun hbound hplace hmet herror => (hothers _ _).blames hbound hplace hmet herror⟩

/-- No level can be opened in the innermost one. -/
theorem Regular.tooDeep :
    Regular bound 0 known (failNext .nestingTooDeep : Parser α) := by
  have hfails : Regular bound 0 known (failNext .nestingTooDeep : Parser α) := inferInstance
  have hscript : Performed bound 0 (failNext .nestingTooDeep : Parser α) := by
    let body : Script α := .fail (Span.error (.point 0) .nestingTooDeep)
    exact ⟨.nested body .done, ⟨trivial, fun _ => trivial⟩, fun _ _ => rfl⟩
  exact ⟨hscript, fun hbound hplace hmet herror => hfails.blames hbound hplace hmet herror⟩

/-- A parser one nesting level deeper. -/
theorem Regular.nested {parser : Parser α} (hparser : Regular bound levels known parser) :
    Regular bound (levels + 1) known parser :=
  ⟨performed_nested hparser.performed,
    fun hbound hplace hmet herror => hparser.blames hbound hplace hmet herror⟩

end Primitives

section Loops

variable {step : α → Parser (Step α β)} [hstep : ∀ state, Regular bound levels known (step state)]

instance Regular.iterateFor {fuel : Nat} {state : α} :
    Regular bound levels known (iterateFor step fuel state) := by
  induction fuel generalizing state with
  | zero =>
    unfold Parser.iterateFor
    infer_instance
  | succ fuel ih =>
    unfold Parser.iterateFor
    refine @Regular.bind _ _ _ _ _ _ _ _ fun outcome => ?_
    cases outcome <;> infer_instance

instance Regular.iterate {state : α} : Regular bound levels known (iterate state step) := by
  have hiterate : ∀ tokens : Tokens, tokens.tokens.size = bound →
      Parser.iterateFor step (bound + 1) state tokens = Parser.iterate state step tokens := by
    rintro tokens rfl
    rfl
  have hloop : Regular bound levels known (Parser.iterateFor step (bound + 1) state) :=
    inferInstance
  obtain ⟨script, hplain, heval⟩ := hloop.performed
  refine ⟨⟨script, hplain, fun tokens hbound => ?_⟩, ?_⟩
  · rw [heval tokens hbound, hiterate tokens hbound]
  · intro tokens before after error hbound hplace hmet herror
    rw [← hiterate tokens hbound] at herror
    exact hloop.blames hbound hplace hmet herror

omit hstep in
/-- A loop is regular if its steps are. -/
theorem Regular.loop {state : α} (hstep : ∀ state, Regular bound levels known (step state)) :
    Regular bound levels known (Parser.iterate state step) :=
  inferInstance

variable {condition : Parser Bool} {item : Parser α} [Regular bound levels known condition]
  [Regular bound levels known item]

instance : Regular bound levels known (repeatWhile condition item) := by
  unfold repeatWhile
  infer_instance

instance : Regular bound levels known (commaSeparated item) := by
  unfold commaSeparated
  infer_instance

instance {close : TokenKind} : Regular bound levels known (listUntil close item) := by
  unfold listUntil
  infer_instance

end Loops

end Parser

end PythonOutline
