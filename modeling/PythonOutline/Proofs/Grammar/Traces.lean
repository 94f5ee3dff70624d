import PythonOutline.Parser.Nesting
import PythonOutline.Proofs.Parser.Regular
import PythonOutline.Proofs.Parser.Traces

/-! # Expressions trace their errors about nesting

The parsers of expressions and of what is inside them trace their errors about nesting to the tokens
that open levels. Around the constructs of a level the opening token is known: a bracket or `lambda`
that comes next, or a keyword or operator that has just been taken.
-/

namespace PythonOutline

open PythonOutline.Parser

/-- The parsers of the constructs inside a level do not go back. -/
class Level.IsForward (level : Level) : Prop where
  innerLambda : level.innerLambda.Forward
  innerExpr : level.innerExpr.Forward
  innerNotTest : level.innerNotTest.Forward
  innerFactor : level.innerFactor.Forward
  innerArguments : level.innerArguments.Forward
  innerIndex : level.innerIndex.Forward
  innerParens : level.innerParens.Forward
  innerBrackets : level.innerBrackets.Forward
  innerBraces : level.innerBraces.Forward

namespace Parser

variable {level : Level} {low : Nat}

instance : Traces level low numberLiteral := by
  unfold numberLiteral
  infer_instance

instance : Traces level low stringLiteral := by
  unfold stringLiteral
  infer_instance

instance : Traces level low startsForClause := by
  unfold startsForClause
  infer_instance

end Parser

namespace Level

section

variable {level : Level} [hlevel : level.IsForward] {low : Nat}

/-! ## Operands -/

instance : Traces level low level.atom := by
  unfold atom
  refine .seqReads fun {tokens place token middle} hplace hreads => ?_
  obtain ⟨rfl, rfl⟩ := reads_peek.mp hreads
  have hnext : low ≤ (place.look 0).next := hplace
  split
  case h_8 hkind =>
    exact .inner .parens hlevel.innerParens (fun herror => ⟨_, herror⟩) hplace hkind rfl
  case h_9 hkind =>
    exact .inner .brackets hlevel.innerBrackets (fun herror => ⟨_, herror⟩) hplace hkind rfl
  case h_10 hkind =>
    exact .inner .braces hlevel.innerBraces (fun herror => ⟨_, herror⟩) hplace hkind rfl
  all_goals exact Traces.tracesAt hnext

instance {start : Nat} {value : Expr} : Traces level low (level.trailerStep start value) := by
  unfold trailerStep
  refine .seqReads fun {tokens place kind middle} hplace hreads => ?_
  obtain ⟨rfl, rfl⟩ := reads_peekKind.mp hreads
  have hnext : low ≤ (place.look 0).next := hplace
  split
  case h_2 hkind =>
    have harguments : TracesAt level low tokens (place.look 0) level.innerArguments :=
      .inner .call hlevel.innerArguments (fun herror => ⟨_, herror⟩) hplace hkind rfl
    exact harguments.andThen
  case h_3 hkind =>
    have hindex : TracesAt level low tokens (place.look 0) level.innerIndex :=
      .inner .subscript hlevel.innerIndex (fun herror => ⟨_, herror⟩) hplace hkind rfl
    exact hindex.andThen
  all_goals exact Traces.tracesAt hnext

instance : Traces level low level.primary := by
  unfold primary
  infer_instance

instance : Traces level low level.awaited := by
  unfold awaited
  infer_instance

instance : Traces level low level.power := by
  unfold power
  refine .seq fun start => .seq fun left => .seqAccept fun {tokens place} hplace hkind => ?_
  have hfactor : TracesAt level low tokens place.step level.innerFactor :=
    .inner .exponent hlevel.innerFactor (fun herror => ⟨_, herror⟩) hplace hkind rfl
  exact hfactor.andThen

instance : Traces level low level.factor := by
  unfold factor
  refine .seqReads fun {tokens place kind middle} hplace hreads => ?_
  obtain ⟨rfl, rfl⟩ := reads_peekKind.mp hreads
  have hnext : low ≤ (place.look 0).next := hplace
  split
  · exact Traces.tracesAt hnext
  · rename_i operator hunary
    have hopened : (Operator.unary? (tokens.kindAt place)).isSome := by
      rw [hunary]
      rfl
    have hfactor : TracesAt level low tokens (place.look 0).step level.innerFactor :=
      .inner .operand hlevel.innerFactor (fun herror => ⟨_, herror⟩) hplace hopened rfl
    exact .spanned (.seqTake hfactor.andThen)

/-! ## Expressions -/

instance {precedence : Nat} {operand : Parser Expr} [Traces level low operand] :
    Traces level low (leftChain precedence operand) := by
  unfold leftChain
  refine .seq fun first => .loop fun left => .seq fun kind => ?_
  split <;> infer_instance

instance {tiers : Nat} : Traces level low (level.binary tiers) := by
  induction tiers with
  | zero =>
    unfold binary
    infer_instance
  | succ tiers ih =>
    unfold binary
    infer_instance

instance : Traces level low level.bitwiseOr := by
  unfold bitwiseOr
  infer_instance

omit hlevel in
instance : Traces level low comparisonOperator? := by
  unfold comparisonOperator?
  refine .seq fun kinds => ?_
  obtain ⟨first, second⟩ := kinds
  dsimp only
  split
  · infer_instance
  · infer_instance
  · split <;> infer_instance

instance {compared : List (Operator × Expr)} :
    Traces level low (level.compareStep compared) := by
  refine .seq fun operator => ?_
  split <;> infer_instance

instance : Traces level low level.comparison := by
  unfold comparison
  infer_instance

instance : Traces level low level.notTest := by
  unfold notTest
  refine .seqNextIs fun {tokens place} hplace hkind => .spanned (.seqTake ?_)
  have hargument : TracesAt level low tokens place.step level.innerNotTest :=
    .inner .negation hlevel.innerNotTest (fun herror => ⟨_, herror⟩) hplace hkind rfl
  exact hargument.andThen

omit hlevel in
instance {operator : Operator} {keyword : TokenKind} {operand : Parser Expr}
    [Traces level low operand] : Traces level low (booleanChain operator keyword operand) := by
  unfold booleanChain
  infer_instance

instance : Traces level low level.andTest := by
  unfold andTest
  infer_instance

instance : Traces level low level.orTest := by
  unfold orTest
  infer_instance

instance : Traces level low level.expr := by
  have halternate : ∀ start consequent, Traces level low (do
      if ← accept .keywordIf then
        let test ← level.orTest
        let _ ← expect .keywordElse
        let alternate ← level.innerExpr
        return ⟨← spanSince start, .conditional test consequent alternate⟩
      else return consequent : Parser Expr) := by
    intro start consequent
    have hrest : ∀ test : Expr, Traces level low (do
        let _ ← expect .keywordElse
        let alternate ← level.innerExpr
        return ⟨← spanSince start, .conditional test consequent alternate⟩ : Parser Expr) :=
      fun test => .seqExpect fun {tokens place _} hplace hkind =>
        TracesAt.andThen (.inner .alternate hlevel.innerExpr (fun herror => ⟨_, herror⟩) hplace
          hkind rfl)
    infer_instance
  unfold expr
  refine .seqNextIs fun {tokens place} hplace hkind => ?_
  exact .inner .lambda hlevel.innerLambda (fun herror => ⟨_, herror⟩) hplace hkind rfl

instance : Traces level low level.namedExpr := by
  unfold namedExpr
  infer_instance

instance : Traces level low level.starred := by
  unfold starred
  infer_instance

instance {other : Parser Expr} [Traces level low other] :
    Traces level low (level.starredOr other) := by
  unfold starredOr
  infer_instance

instance : Traces level low level.starExpr := by
  unfold starExpr
  infer_instance

instance : Traces level low level.starNamedExpr := by
  unfold starNamedExpr
  infer_instance

omit hlevel in
instance {item : Parser Expr} [Traces level low item] : Traces level low (tupleOf item) := by
  unfold tupleOf
  refine .seq fun start => .seq fun first => ?_
  infer_instance

instance : Traces level low level.starExprs := by
  unfold starExprs
  infer_instance

instance : Traces level low level.starNamedExprs := by
  unfold starNamedExprs
  infer_instance

instance : Traces level low level.yieldExpr := by
  unfold yieldExpr
  infer_instance

instance : Traces level low level.yieldOrStarExprs := by
  unfold yieldOrStarExprs
  infer_instance

/-! ## Targets -/

omit hlevel in
instance {target : Expr} : Traces level low (checkTarget target) := by
  unfold checkTarget
  infer_instance

instance : Traces level low level.target := by
  unfold target
  infer_instance

instance : Traces level low level.targetList := by
  unfold targetList
  infer_instance

/-! ## Displays -/

instance : Traces level low level.forClause := by
  unfold forClause
  infer_instance

instance : Traces level low level.forClauses := by
  unfold forClauses
  infer_instance

instance {start : Nat} {close : TokenKind} {kind : ComprehensionKind} {element : Expr}
    {value : Option Expr} :
    Traces level low (level.comprehension start close kind element value) := by
  unfold comprehension
  infer_instance

instance {close : TokenKind} : Traces level low (level.displayElements close) := by
  unfold displayElements
  infer_instance

instance {start : Nat} {first : Expr} : Traces level low (level.setDisplay start first) := by
  unfold setDisplay
  infer_instance

instance : Traces level low level.dictEntry := by
  unfold dictEntry
  infer_instance

instance {start entryStart : Nat} {key : Expr} :
    Traces level low (level.dictDisplay start entryStart key) := by
  unfold dictDisplay
  infer_instance

/-! ## Arguments and subscripts -/

instance : Traces level low level.positionalArgument := by
  unfold positionalArgument
  infer_instance

instance : Traces level low level.argument := by
  unfold argument
  refine .withSpan (.seq fun kinds => ?_)
  obtain ⟨first, second⟩ := kinds
  dsimp only
  split <;> infer_instance

omit hlevel in
/-- An argument out of place is not about nesting. -/
theorem misplaced?_cause {seenKeyword seenMapping : Bool} {arguments : List Argument}
    {error : SyntaxError}
    (hmisplaced : Argument.misplaced? seenKeyword seenMapping arguments = some error) :
    error.cause ≠ .nestingTooDeep := by
  fun_induction Argument.misplaced? seenKeyword seenMapping arguments with
  | case1 => cases hmisplaced
  | case4 | case6 =>
    cases hmisplaced
    nofun
  | case2 | case3 | case5 | case7 =>
    rename_i ih
    exact ih hmisplaced

instance : Traces level low level.arguments := by
  unfold arguments
  refine .seq fun arguments => ?_
  split
  · rename_i hmisplaced
    exact ⟨fun _ => .throw (misplaced?_cause hmisplaced)⟩
  · infer_instance

instance : Traces level low level.sliceBound := by
  unfold sliceBound
  refine .seq fun kind => ?_
  split <;> infer_instance

instance {start : Nat} {lower : Option Expr} : Traces level low (level.sliceRest start lower) := by
  unfold sliceRest
  infer_instance

instance : Traces level low level.sliceItem := by
  unfold sliceItem
  infer_instance

instance : Traces level low level.subscript := by
  unfold subscript
  refine .seq fun start => .seq fun first => ?_
  infer_instance

/-! ## Parameters -/

instance {kind : ParamKind} {typeHints : Bool} : Traces level low (level.param kind typeHints) := by
  unfold param
  apply Traces.withSpan
  refine .seq fun name => ?_
  dsimp only
  split <;> infer_instance

instance {typeHints : Bool} {state : ParamsState} :
    Traces level low (level.paramsEntry typeHints state) := by
  unfold paramsEntry
  refine .seq fun token => ?_
  simp only [throw_bind]
  split
  · infer_instance
  split
  · refine .seq fun _ => ?_
    split <;> infer_instance
  all_goals infer_instance

instance {close : TokenKind} {typeHints : Bool} : Traces level low (level.params close typeHints) := by
  unfold params
  infer_instance

end

/-! ## Levels

What is inside a construct is traced behind the token that opens it.
-/

section

variable {level : Level} [hlevel : level.IsForward] {tokens : Tokens} {place : Place}

private theorem lambdaExpr_tracesBehind :
    TracesAt level (place.next + 1) tokens place level.lambdaExpr := by
  unfold lambdaExpr
  exact .spanned (tracesAt_expect fun _ => inferInstance)

private theorem parenDisplay_tracesBehind :
    TracesAt level (place.next + 1) tokens place level.parenDisplay := by
  unfold parenDisplay
  refine .seqMark (tracesAt_expect fun _ => .seq fun closed => ?_)
  split
  · infer_instance
  · refine .seq fun yields => ?_
    split <;> infer_instance

private theorem listDisplay_tracesBehind :
    TracesAt level (place.next + 1) tokens place level.listDisplay := by
  unfold listDisplay
  refine .seqMark (tracesAt_expect fun _ => .seq fun closed => ?_)
  split <;> infer_instance

private theorem braceDisplay_tracesBehind :
    TracesAt level (place.next + 1) tokens place level.braceDisplay := by
  unfold braceDisplay
  exact .seqMark (tracesAt_expect fun _ => inferInstance)

private theorem innerArguments_tracesBehind :
    TracesAt level (place.next + 1) tokens place level.around.innerArguments :=
  .seqTake (Traces.tracesAt (Nat.le_refl _))

private theorem innerIndex_tracesBehind :
    TracesAt level (place.next + 1) tokens place level.around.innerIndex := by
  have hindex : Traces level (place.next + 1) (do
      let index ← level.subscript
      let _ ← expect .bracketClose
      return index : Parser Expr) := inferInstance
  exact .seqTake (hindex.tracesAt (Nat.le_refl _))

instance {low : Nat} : Traces level low level.around.innerExpr :=
  inferInstanceAs (Traces level low level.expr)

instance {low : Nat} : Traces level low level.around.innerNotTest :=
  inferInstanceAs (Traces level low level.notTest)

instance {low : Nat} : Traces level low level.around.innerFactor :=
  inferInstanceAs (Traces level low level.factor)

instance : level.around.IsForward where
  innerLambda := Forward.of_tracesAt fun _ _ => lambdaExpr_tracesBehind.mono (Nat.le_succ _)
  innerExpr := Forward.of_traces fun low => (inferInstance : Traces level low _)
  innerNotTest := Forward.of_traces fun low => (inferInstance : Traces level low _)
  innerFactor := Forward.of_traces fun low => (inferInstance : Traces level low _)
  innerArguments := Forward.of_tracesAt fun _ _ => innerArguments_tracesBehind.mono (Nat.le_succ _)
  innerIndex := Forward.of_tracesAt fun _ _ => innerIndex_tracesBehind.mono (Nat.le_succ _)
  innerParens := Forward.of_tracesAt fun _ _ => parenDisplay_tracesBehind.mono (Nat.le_succ _)
  innerBrackets := Forward.of_tracesAt fun _ _ => listDisplay_tracesBehind.mono (Nat.le_succ _)
  innerBraces := Forward.of_tracesAt fun _ _ => braceDisplay_tracesBehind.mono (Nat.le_succ _)

/-- A construct that fails about nesting inside a level fails in another one that opens
behind it. -/
theorem FailsAt.deeper {opener : Nat} {error : SyntaxError}
    (hfails : level.around.FailsAt tokens opener error) (hcause : error.cause = .nestingTooDeep) :
    ∃ deeper, opener < deeper ∧ level.FailsAt tokens deeper error := by
  obtain ⟨construct, place, -, hstart, hfails⟩ := hfails
  have hbehind {α : Type} {parser : Parser α} {after : Place}
      (hparser : TracesAt level (opener + 1) tokens place parser)
      (herror : parser tokens place = .error error after) :
      ∃ deeper, opener < deeper ∧ level.FailsAt tokens deeper error :=
    hparser.traces herror hcause
  have hoperand {parser : Parser Expr} [Traces level (opener + 1) parser]
      (hplace : place.next = opener + 1) : TracesAt level (opener + 1) tokens place parser :=
    Traces.tracesAt (Nat.le_of_eq hplace.symm)
  cases construct with
  | lambda =>
    cases hstart
    exact hfails.elim fun _ => hbehind lambdaExpr_tracesBehind
  | alternate => exact hfails.elim fun _ => hbehind (hoperand hstart)
  | negation => exact hfails.elim fun _ => hbehind (hoperand hstart)
  | operand => exact hfails.elim fun _ => hbehind (hoperand hstart)
  | exponent => exact hfails.elim fun _ => hbehind (hoperand hstart)
  | call =>
    cases hstart
    exact hfails.elim fun _ => hbehind innerArguments_tracesBehind
  | subscript =>
    cases hstart
    exact hfails.elim fun _ => hbehind innerIndex_tracesBehind
  | parens =>
    cases hstart
    exact hfails.elim fun _ => hbehind parenDisplay_tracesBehind
  | brackets =>
    cases hstart
    exact hfails.elim fun _ => hbehind listDisplay_tracesBehind
  | braces =>
    cases hstart
    exact hfails.elim fun _ => hbehind braceDisplay_tracesBehind

end

instance : innermost.IsForward := by
  have hfails {α : Type} : (failNext .nestingTooDeep : Parser α).Forward := by
    intro tokens before value after hreads
    cases hreads
  exact ⟨hfails, hfails, hfails, hfails, hfails, hfails, hfails, hfails, hfails⟩

instance {count : Nat} : (withInner count).IsForward := by
  induction count with
  | zero => exact inferInstanceAs innermost.IsForward
  | succ count ih => exact inferInstanceAs (withInner count).around.IsForward

/-- In the innermost level a construct fails where it starts. -/
theorem FailsAt.innermost {tokens : Tokens} {opener : Nat} {error : SyntaxError}
    (hfails : innermost.FailsAt tokens opener error) :
    ∃ construct, Construct.IsOpenedBy (tokens.get opener).kind construct ∧
      error = (tokens.get (construct.startsAt opener)).error .nestingTooDeep := by
  obtain ⟨construct, place, hopened, hstart, hfails⟩ := hfails
  refine ⟨construct, hopened, ?_⟩
  rw [← hstart]
  cases construct <;> obtain ⟨after, ⟨⟩⟩ := hfails <;> rfl

/-- When a construct in which `count` levels may be opened fails about nesting, that many levels are
opened in it, each behind the one before. -/
theorem FailsAt.openers {tokens : Tokens} {count opener : Nat} {error : SyntaxError}
    (hfails : (withInner count).FailsAt tokens opener error)
    (hcause : error.cause = .nestingTooDeep) :
    ∃ openers : Nat → Nat, openers 0 = opener ∧
      (∀ depth < count, openers depth < openers (depth + 1)) ∧
      ∀ depth ≤ count, (withInner (count - depth)).FailsAt tokens (openers depth) error := by
  induction count generalizing opener with
  | zero =>
    refine ⟨fun _ => opener, rfl, nofun, fun depth hdepth => ?_⟩
    cases Nat.le_zero.mp hdepth
    exact hfails
  | succ count ih =>
    obtain ⟨deeper, hdeeper, hinner⟩ := hfails.deeper hcause
    obtain ⟨openers, rfl, hincreasing, hinner⟩ := ih hinner
    refine ⟨fun depth => depth.casesOn opener openers, rfl, fun depth hdepth => ?_,
      fun depth hdepth => ?_⟩
    · cases depth with
      | zero => exact hdeeper
      | succ depth => exact hincreasing depth (Nat.lt_of_succ_lt_succ hdepth)
    · cases depth with
      | zero => exact hfails
      | succ depth =>
        rw [Nat.succ_sub_succ]
        exact hinner depth (Nat.le_of_succ_le_succ hdepth)

end Level

end PythonOutline
