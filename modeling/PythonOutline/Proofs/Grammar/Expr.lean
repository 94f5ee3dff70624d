import PythonOutline.Parser.Expr
import PythonOutline.Proofs.Grammar.Operand

/-! # The grammar of expressions

What the parsers of expressions read above operands, one rule a parser.
-/

namespace PythonOutline.Level

open PythonOutline.Parser

variable {level : Level} {tokens : Tokens} {before after : Place} {value : Expr}

/-! ## Binary operators and comparisons -/

/-- A number of operands follow a left one, each behind an operator of one precedence. -/
inductive Applies (precedence : Nat) (operand : Parser Expr) (tokens : Tokens) :
    Nat → Expr → Place → Expr → Place → Prop where
  | stop {left : Expr} {before : Place}
      (hother : ∀ operator, Operator.binary? (tokens.kindAt before) = some operator →
        operator.precedence ≠ precedence) :
      Applies precedence operand tokens 0 left before left (before.look 0)
  | apply {count : Nat} {left right result : Expr} {before middle after : Place}
      {operator : Operator} (hoperator : Operator.binary? (tokens.kindAt before) = some operator)
      (hprecedence : operator.precedence = precedence)
      (hright : operand.Reads tokens before.step right middle)
      (hrest : Applies precedence operand tokens count
        ⟨left.span.join right.span, .binary operator left right⟩ middle result after) :
      Applies precedence operand tokens (count + 1) left before result after

/-- A chain of operators of one precedence is its first operand, to which the others are applied
from the left. -/
theorem reads_leftChain {precedence : Nat} {operand : Parser Expr} :
    (leftChain precedence operand).Reads tokens before value after ↔
      ∃ first middle, operand.Reads tokens before first middle ∧
        ∃ count ≤ tokens.tokens.size,
          Applies precedence operand tokens count first middle value after := by
  simp only [leftChain, reads_bind, reads_iterate]
  refine exists_congr fun first => exists_congr fun middle => and_congr_right fun hfirst =>
    exists_congr fun count => and_congr_right fun hcount => ?_
  clear hfirst hcount
  constructor
  · intro hiterates
    induction hiterates with
    | @done left before after result hstep =>
      simp only [reads_bind, reads_peekKind, existsAndEq, true_and, and_true] at hstep
      split at hstep
      · rename_i hnone
        obtain ⟨hresult, rfl⟩ := reads_pure.mp hstep
        cases hresult
        exact .stop (by simp [hnone])
      · rename_i operator hoperator
        obtain ⟨hprecedence, rfl, rfl⟩ : operator.precedence ≠ precedence ∧ result = left ∧
            after = before.look 0 := by
          simpa using hstep
        exact .stop (by simpa [hoperator] using hprecedence)
    | @next _ left left' before middle after result hstep _ ih =>
      simp only [reads_bind, reads_peekKind, existsAndEq, true_and, and_true] at hstep
      split at hstep
      · cases (reads_pure.mp hstep).1
      · rename_i operator hoperator
        obtain ⟨hprecedence, right, hright, rfl⟩ : operator.precedence = precedence ∧
            ∃ right, operand.Reads tokens before.step right middle ∧
              left' = ⟨left.span.join right.span, .binary operator left right⟩ := by
          simpa using hstep
        exact .apply hoperator hprecedence hright ih
  · intro happlies
    induction happlies with
    | @stop left before hother =>
      refine .done ?_
      simp only [reads_bind, reads_peekKind, existsAndEq, true_and, and_true]
      cases hoperator : Operator.binary? (tokens.kindAt before) with
      | none => simp
      | some operator => simp [hother operator hoperator]
    | apply hoperator hprecedence hright _ ih =>
      refine .next ?_ ih
      simp [hoperator, hprecedence, hright]

/-- The comparison that stands here: two of them are told by two tokens. -/
theorem reads_comparisonOperator? {result : Option Operator} :
    comparisonOperator?.Reads tokens before result after ↔
      if tokens.kindAt before = .keywordNot ∧ tokens.kindAt before.step = .keywordIn then
        result = some .nonMembership ∧ after = (before.look 1).step.step
      else if tokens.kindAt before = .keywordIs ∧ tokens.kindAt before.step = .keywordNot then
        result = some .nonIdentity ∧ after = (before.look 1).step.step
      else
        match Operator.comparison? (tokens.kindAt before) with
        | none => result = none ∧ after = before.look 1
        | some operator => result = some operator ∧ after = (before.look 1).step := by
  simp only [comparisonOperator?, reads_bind, reads_peekTwo, existsAndEq, true_and, and_true,
    Tokens.get_kind, Tokens.get_kind_step]
  generalize tokens.kindAt before = first
  generalize tokens.kindAt before.step = second
  split
  · simp [and_comm]
  · simp [and_comm]
  · rename_i hnotIn hisNot
    rw [if_neg (by simpa using hnotIn), if_neg (by simpa using hisNot)]
    cases Operator.comparison? first with
    | none => simp
    | some operator => simp [and_comm]

/-- Comparisons follow an operand, each with an operand of its own. -/
inductive Compares (level : Level) (tokens : Tokens) :
    Place → List (Operator × Expr) → Place → Prop where
  | stop {before after : Place} (hnone : comparisonOperator?.Reads tokens before none after) :
      Compares level tokens before [] after
  | compare {before middle next after : Place} {operator : Operator} {right : Expr}
      {compared : List (Operator × Expr)}
      (hoperator : comparisonOperator?.Reads tokens before (some operator) middle)
      (hright : level.bitwiseOr.Reads tokens middle right next)
      (hrest : Compares level tokens next compared after) :
      Compares level tokens before ((operator, right) :: compared) after

/-- A comparison is one expression of all its operators and operands. -/
theorem reads_comparison :
    level.comparison.Reads tokens before value after ↔
      ∃ left middle compared, level.bitwiseOr.Reads tokens before left middle ∧
        compared.length ≤ tokens.tokens.size ∧ level.Compares tokens middle compared after ∧
        value = if compared.isEmpty then left else ⟨tokens.spanBetween before.next after.next,
          .compare left (compared.map Prod.fst) (compared.map Prod.snd)⟩ := by
  simp only [comparison, reads_bind, reads_mark, reads_iterate, existsAndEq, true_and, and_true]
  refine exists_congr fun left => exists_congr fun middle => ?_
  -- What the loop yields are the comparisons it carries and those that follow.
  have hloop : ∀ {count : Nat} {before after : Place} {earlier result : List (Operator × Expr)},
      Iterates (fun compared => do
        match ← comparisonOperator? with
        | none => return .done compared.reverse
        | some operator => return .next ((operator, ← level.bitwiseOr) :: compared))
        tokens count earlier before result after ↔
      ∃ compared, result = earlier.reverse ++ compared ∧ compared.length = count ∧
        level.Compares tokens before compared after := by
    intro count before after earlier result
    constructor
    · intro hiterates
      induction hiterates with
      | done hstep =>
        obtain ⟨operator?, middle, hoperator, hstep⟩ := reads_bind.mp hstep
        cases operator? with
        | none =>
          obtain ⟨hresult, rfl⟩ := reads_pure.mp hstep
          cases hresult
          exact ⟨[], by simp, rfl, .stop hoperator⟩
        | some operator => simp at hstep
      | next hstep _ ih =>
        obtain ⟨operator?, middle, hoperator, hstep⟩ := reads_bind.mp hstep
        cases operator? with
        | none => simp at hstep
        | some operator =>
          simp only [reads_bind, reads_pure, Step.next.injEq] at hstep
          obtain ⟨right, _, hright, rfl, rfl⟩ := hstep
          obtain ⟨compared, rfl, rfl, hcompares⟩ := ih
          exact ⟨(operator, right) :: compared, by simp, rfl, .compare hoperator hright hcompares⟩
    · rintro ⟨compared, rfl, rfl, hcompares⟩
      induction hcompares generalizing earlier with
      | stop hnone => exact .done (reads_bind.mpr ⟨none, _, hnone, by simp⟩)
      | @compare _ _ _ _ operator right compared hoperator hright _ ih =>
        have hrest := @ih ((operator, right) :: earlier)
        rw [List.reverse_cons, List.append_assoc] at hrest
        refine .next (reads_bind.mpr ⟨some operator, _, hoperator, ?_⟩) hrest
        simpa using hright
  constructor
  · rintro ⟨hleft, result, last, ⟨count, hcount, hiterates⟩, hvalue⟩
    obtain ⟨compared, hresult, rfl, hcompares⟩ := hloop.mp hiterates
    rw [List.reverse_nil, List.nil_append] at hresult
    subst hresult
    obtain ⟨rfl, rfl⟩ : after = last ∧ value = if result.isEmpty then left else
        ⟨tokens.spanBetween before.next last.next,
          .compare left (result.map Prod.fst) (result.map Prod.snd)⟩ := by
      by_cases hempty : result.isEmpty <;> simpa [hempty, and_comm] using hvalue
    exact ⟨result, hleft, hcount, hcompares, rfl⟩
  · rintro ⟨compared, hleft, hlength, hcompares, rfl⟩
    refine ⟨hleft, compared, after, ⟨_, hlength, hloop.mpr ⟨compared, rfl, rfl, hcompares⟩⟩, ?_⟩
    by_cases hempty : compared.isEmpty <;> simp [hempty]

/-- A negation is of what stands behind `not`, one level deeper. -/
theorem reads_notTest :
    level.notTest.Reads tokens before value after ↔
      if tokens.kindAt before = .keywordNot then
        ∃ argument, level.innerNotTest.Reads tokens before.step argument after ∧
          value = ⟨tokens.spanBetween before.next after.next, .unary .logicalNot argument⟩
      else level.comparison.Reads tokens (before.look 0) value after := by
  simp [notTest]

/-! ## Boolean operators and conditionals -/

/-- A chain of `and` or `or` is one expression of all its operands. -/
theorem reads_booleanChain {operator : Operator} {keyword : TokenKind} {operand : Parser Expr} :
    (booleanChain operator keyword operand).Reads tokens before value after ↔
      ∃ first middle, operand.Reads tokens before first middle ∧
        if tokens.kindAt middle = keyword then
          ∃ others, others.length ≤ tokens.tokens.size ∧
            Repeats (accept keyword) operand tokens (middle.look 0) others after ∧
            value =
              ⟨tokens.spanBetween before.next after.next, .boolean operator (first :: others)⟩
        else value = first ∧ after = middle.look 0 := by
  simp [booleanChain, reads_repeatWhile, and_assoc]

/-- An expression is a lambda, a conditional, or the disjunction that these are made of. -/
theorem reads_expr :
    level.expr.Reads tokens before value after ↔
      if tokens.kindAt before = .keywordLambda then
        level.innerLambda.Reads tokens (before.look 0) value after
      else
        ∃ consequent middle, level.orTest.Reads tokens (before.look 0) consequent middle ∧
          if tokens.kindAt middle = .keywordIf then
            ∃ test last alternate, level.orTest.Reads tokens middle.step test last ∧
              tokens.kindAt last = .keywordElse ∧
              level.innerExpr.Reads tokens last.step alternate after ∧
              value = ⟨tokens.spanBetween before.next after.next,
                .conditional test consequent alternate⟩
          else value = consequent ∧ after = middle.look 0 := by
  simp [expr]

/-- A name in front of `:=` is bound to the expression behind it. -/
theorem reads_namedExpr :
    level.namedExpr.Reads tokens before value after ↔
      if tokens.kindAt before = .identifier ∧ tokens.kindAt before.step = .colonEquals then
        ∃ bound, level.expr.Reads tokens (before.look 1).step.step bound after ∧
          value = ⟨tokens.spanBetween before.next after.next,
            .named ⟨tokens.spanBetween before.next (before.next + 1),
              (tokens.get before.next).text⟩ bound⟩
      else level.expr.Reads tokens (before.look 1) value after := by
  by_cases hnamed : tokens.kindAt before = .identifier ∧ tokens.kindAt before.step = .colonEquals
  · simp [namedExpr, hnamed]
  · simp [namedExpr, hnamed]

/-! ## Lists of expressions -/

/-- A star unpacks the operand behind it. -/
theorem reads_starred :
    level.starred.Reads tokens before value after ↔
      tokens.kindAt before = .asterisk ∧
        ∃ starred, level.bitwiseOr.Reads tokens before.step starred after ∧
          value = ⟨tokens.spanBetween before.next after.next, .starred starred⟩ := by
  simp [starred, and_assoc]

/-- A star tells what is unpacked from what is not. -/
theorem reads_starredOr {other : Parser Expr} :
    (level.starredOr other).Reads tokens before value after ↔
      if tokens.kindAt before = .asterisk then
        level.starred.Reads tokens (before.look 0) value after
      else other.Reads tokens (before.look 0) value after := by
  simp [starredOr]

/-- Items with a comma behind the first one make a tuple. -/
theorem reads_tupleOf {item : Parser Expr}
    (hreads : (tupleOf item).Reads tokens before value after) :
    ∃ first middle, item.Reads tokens before first middle ∧
      if tokens.kindAt middle = .comma then
        ∃ others, Continues .comma TokenKind.startsExpression item tokens (middle.look 0) others
            after ∧
          value = ⟨tokens.spanBetween before.next after.next, .tuple (first :: others)⟩
      else value = first ∧ after = middle.look 0 := by
  simp only [tupleOf, reads_bind, reads_mark, existsAndEq, true_and, and_true] at hreads
  obtain ⟨first, middle, hfirst, hrest⟩ := hreads
  refine ⟨first, middle, hfirst, ?_⟩
  by_cases hcomma : tokens.kindAt middle = .comma
  · simp only [reads_nextIs, hcomma, beq_self_eq_true, existsAndEq, true_and, and_true, reduceIte,
      reads_bind, reads_iterate, reads_spanSince, reads_pure] at hrest
    obtain ⟨elements, ⟨count, -, hiterates⟩, rfl⟩ := hrest
    obtain ⟨others, rfl, hcontinues⟩ :=
      Continues.of_iterates .comma TokenKind.startsExpression item (by simp) hiterates
    rw [if_pos hcomma]
    exact ⟨others, hcontinues, rfl⟩
  · simpa [hcomma] using hrest

/-- A `yield` delegates to what stands behind `from`, or yields the expressions behind it, if
any. -/
theorem reads_yieldExpr :
    level.yieldExpr.Reads tokens before value after ↔
      tokens.kindAt before = .keywordYield ∧
        if tokens.kindAt before.step = .keywordFrom then
          ∃ source, level.expr.Reads tokens before.step.step source after ∧
            value = ⟨tokens.spanBetween before.next after.next, .yield (some source) true⟩
        else if (tokens.kindAt before.step).startsExpression then
          ∃ yielded, level.starExprs.Reads tokens (before.step.look 0) yielded after ∧
            value = ⟨tokens.spanBetween before.next after.next, .yield (some yielded) false⟩
        else
          after = before.step.look 0 ∧
            value = ⟨tokens.spanBetween before.next after.next, .yield none false⟩ := by
  by_cases hfrom : tokens.kindAt before.step = .keywordFrom
  · simp [yieldExpr, hfrom, and_assoc]
  · by_cases hstarts : (tokens.kindAt before.step).startsExpression
    · simp [yieldExpr, hfrom, hstarts, and_assoc]
    · simp [yieldExpr, hfrom, hstarts, and_assoc]

/-- What is assigned is a `yield` or expressions. -/
theorem reads_yieldOrStarExprs :
    level.yieldOrStarExprs.Reads tokens before value after ↔
      if tokens.kindAt before = .keywordYield then
        level.yieldExpr.Reads tokens (before.look 0) value after
      else level.starExprs.Reads tokens (before.look 0) value after := by
  simp [yieldOrStarExprs]

/-! ## Targets -/

private theorem reads_checkTarget {target : Expr} :
    (checkTarget target).Reads tokens before value after ↔
      target.isTarget ∧ value = target ∧ after = before := by
  simp [checkTarget]

/-- Targets are items that can all be assigned to. -/
theorem reads_targetList :
    level.targetList.Reads tokens before value after ↔
      value.isTarget ∧
        (tupleOf (level.starredOr level.bitwiseOr)).Reads tokens before value after := by
  simp [targetList, reads_checkTarget, and_comm]

/-- A target is an operand that can be assigned to. -/
theorem reads_target :
    level.target.Reads tokens before value after ↔
      value.isTarget ∧ level.bitwiseOr.Reads tokens before value after := by
  simp [target, reads_checkTarget, and_comm]

end PythonOutline.Level
