import PythonOutline.Parser.Nesting
import PythonOutline.Proofs.Grammar.Display
import PythonOutline.Proofs.Operator.Syntax

/-! # Layers of the expression grammar

The expression grammar has a parser for each precedence, which reads what binds at least as tight.
What the parser of one layer yields the looser ones yield too, provided that the first token is none
that they treat in a way of their own, and that the token behind is no operator of theirs.
-/

namespace PythonOutline

open PythonOutline.Parser

/-- A parser yields an expression up to spans from the tokens between two indices. -/
def Parser.Yields (parser : Parser Expr) (tokens : Tokens) (start stop : Nat) (expr : Expr) : Prop :=
  ∀ before : Place, before.next = start →
    ∃ value after, parser.Reads tokens before value after ∧ after.next = stop ∧
      value.withoutSpans = expr

/-- How tightly a token binds the operand in front of it, where it goes on with an expression. -/
def TokenKind.binds (kind : TokenKind) : Nat :=
  match kind with
  | .bracketOpen | .dot | .parenthesisOpen => atomPrecedence
  | .asteriskAsterisk => Operator.exponentiation.precedence
  | .keywordNot => comparisonPrecedence
  | .keywordAnd => Operator.logicalAnd.precedence
  | .keywordOr => Operator.logicalOr.precedence
  | .keywordIf => conditionalPrecedence
  | _ => ((Operator.binary? kind <|> Operator.comparison? kind).map Operator.precedence).getD 0

/-- The tightest layer whose expressions may start with a token, where one of them may. -/
def TokenKind.leads (kind : TokenKind) : Nat :=
  match kind with
  | .identifier | .parenthesisOpen => atomPrecedence
  | .keywordAwait => awaitPrecedence
  | .keywordNot => Operator.logicalNot.precedence
  | .keywordLambda => conditionalPrecedence
  | _ => ((Operator.unary? kind).map Operator.precedence).getD 0

/-- A binary operator binds by its precedence. -/
theorem TokenKind.binds_of_binary {kind : TokenKind} {operator : Operator}
    (hoperator : Operator.binary? kind = some operator) : kind.binds = operator.precedence := by
  cases kind <;> cases hoperator <;> rfl

/-- All comparisons bind alike. -/
theorem TokenKind.binds_of_comparison {kind : TokenKind} {operator : Operator}
    (hoperator : Operator.comparison? kind = some operator) : kind.binds = comparisonPrecedence := by
  cases kind <;> cases hoperator <;> rfl

/-- A sign leads the layer of signs. -/
theorem TokenKind.leads_of_unary {kind : TokenKind} {operator : Operator}
    (hoperator : Operator.unary? kind = some operator) : kind.leads = unaryPrecedence := by
  cases kind <;> cases hoperator <;> rfl

/-- The layer of unary operators asks nothing of the token behind. -/
theorem TokenKind.binds_ne_unary (kind : TokenKind) : kind.binds ≠ unaryPrecedence := by
  cases kind <;> decide

/-- A token that leads a tighter layer than another is not the other. -/
theorem TokenKind.ne_of_leads {kind other : TokenKind} (hlead : other.leads < kind.leads) :
    kind ≠ other := by
  rintro rfl
  exact Nat.lt_irrefl _ hlead

/-- A token that does not bind like another is not the other. -/
theorem TokenKind.ne_of_binds {kind other : TokenKind} (hfollow : kind.binds ≠ other.binds) :
    kind ≠ other := by
  rintro rfl
  exact hfollow rfl

namespace Level

/-- The parser of the expressions that bind at least as tight as a precedence. -/
def layer (level : Level) : (precedence : Nat) → Parser Expr
  | 0 | 1 | 2 => level.expr
  | 3 => level.orTest
  | 4 => level.andTest
  | 5 => level.notTest
  | 6 => level.comparison
  | 7 => level.binary 6
  | 8 => level.binary 5
  | 9 => level.binary 4
  | 10 => level.binary 3
  | 11 => level.binary 2
  | 12 => level.binary 1
  | 13 => level.factor
  | 14 => level.power
  | 15 => level.awaited
  | _ => level.primary

/-- The layer of a binary operator is a chain of the layer above. -/
theorem layer_eq_leftChain (level : Level) {precedence : Nat}
    (hloosest : Operator.bitwiseOr.precedence ≤ precedence) (htightest : precedence ≤ tightestBinary) :
    level.layer precedence = leftChain precedence (level.layer (precedence + 1)) := by
  have hcases : precedence = 7 ∨ precedence = 8 ∨ precedence = 9 ∨ precedence = 10 ∨
      precedence = 11 ∨ precedence = 12 := by
    change 7 ≤ precedence at hloosest
    change precedence ≤ 12 at htightest
    omega
  rcases hcases with rfl | rfl | rfl | rfl | rfl | rfl <;> rfl

/-- The layers of `and` and `or` are chains of the layer above. -/
theorem layer_eq_booleanChain (level : Level) (operator : BooleanOperator) :
    level.layer operator.operator.precedence =
      booleanChain operator.operator operator.kind
        (level.layer (operator.operator.precedence + 1)) := by
  cases operator <;> rfl

variable {level : Level} {tokens : Tokens} {start stop : Nat} {expr : Expr}

/-! ## From one layer to the next -/

/-- A primary may be an atom alone. -/
theorem primary_yields (hatom : level.atom.Yields tokens start stop expr)
    (hfollow : (tokens.get stop).kind.binds < atomPrecedence) :
    level.primary.Yields tokens start stop expr := by
  rintro before rfl
  obtain ⟨value, middle, hreads, rfl, rfl⟩ := hatom before rfl
  refine ⟨value, middle.look 0, ?_, rfl, rfl⟩
  simp only [primary, reads_bind, reads_mark, reads_iterate, existsAndEq, true_and]
  refine ⟨value, middle, hreads, 0, Nat.zero_le _, .done ?_⟩
  simp only [reads_bind, reads_peekKind, existsAndEq, true_and]
  rw [Tokens.get_kind] at hfollow
  generalize tokens.kindAt middle = kind at hfollow
  split <;> first | exact absurd hfollow (Nat.lt_irrefl _) | simp

private theorem awaited_yields (hprimary : level.primary.Yields tokens start stop expr)
    (hlead : awaitPrecedence < (tokens.get start).kind.leads) :
    level.awaited.Yields tokens start stop expr := by
  rintro before rfl
  have hkind : tokens.kindAt before ≠ .keywordAwait :=
    TokenKind.ne_of_leads hlead
  obtain ⟨value, after, hreads, hafter, hvalue⟩ := hprimary (before.look 0) rfl
  refine ⟨value, after, ?_, hafter, hvalue⟩
  rw [reads_awaited, if_neg hkind]
  exact hreads

private theorem power_yields (hawaited : level.awaited.Yields tokens start stop expr)
    (hfollow : (tokens.get stop).kind.binds ≠ Operator.exponentiation.precedence) :
    level.power.Yields tokens start stop expr := by
  rintro before rfl
  obtain ⟨value, middle, hreads, rfl, rfl⟩ := hawaited before rfl
  have hkind : tokens.kindAt middle ≠ .asteriskAsterisk :=
    TokenKind.ne_of_binds hfollow
  refine ⟨value, middle.look 0, ?_, rfl, rfl⟩
  rw [reads_power]
  exact ⟨value, middle, hreads, by rw [if_neg hkind]; exact ⟨rfl, rfl⟩⟩

private theorem factor_yields (hpower : level.power.Yields tokens start stop expr)
    (hlead : unaryPrecedence < (tokens.get start).kind.leads) :
    level.factor.Yields tokens start stop expr := by
  rintro before rfl
  have hkind : Operator.unary? (tokens.kindAt before) = none := by
    refine Option.eq_none_iff_forall_ne_some.mpr fun operator hoperator => ?_
    rw [Tokens.get_kind, TokenKind.leads_of_unary hoperator] at hlead
    exact absurd hlead (Nat.lt_irrefl _)
  obtain ⟨value, after, hreads, hafter, hvalue⟩ := hpower (before.look 0) rfl
  refine ⟨value, after, ?_, hafter, hvalue⟩
  rw [reads_factor, hkind]
  exact hreads

private theorem leftChain_yields {precedence : Nat} {operand : Parser Expr}
    (hoperand : operand.Yields tokens start stop expr)
    (hfollow : (tokens.get stop).kind.binds ≠ precedence) :
    (leftChain precedence operand).Yields tokens start stop expr := by
  rintro before rfl
  obtain ⟨value, middle, hreads, rfl, rfl⟩ := hoperand before rfl
  refine ⟨value, middle.look 0, ?_, rfl, rfl⟩
  rw [reads_leftChain]
  refine ⟨value, middle, hreads, 0, Nat.zero_le _, .stop fun operator hoperator => ?_⟩
  rw [← TokenKind.binds_of_binary hoperator]
  exact hfollow

/-- No comparison stands where a token binds in another way. -/
theorem reads_comparisonOperator?_none {before : Place}
    (hfollow : (tokens.kindAt before).binds ≠ comparisonPrecedence) :
    comparisonOperator?.Reads tokens before none (before.look 1) := by
  have hnot : tokens.kindAt before ≠ .keywordNot :=
    TokenKind.ne_of_binds hfollow
  have hnone : Operator.comparison? (tokens.kindAt before) = none :=
    Option.eq_none_iff_forall_ne_some.mpr fun operator hoperator =>
      hfollow (TokenKind.binds_of_comparison hoperator)
  have his : tokens.kindAt before ≠ .keywordIs := by
    intro his
    rw [his] at hnone
    cases hnone
  rw [reads_comparisonOperator?, if_neg (fun hboth => hnot hboth.1),
    if_neg (fun hboth => his hboth.1), hnone]
  exact ⟨rfl, rfl⟩

private theorem comparison_yields (hoperand : level.bitwiseOr.Yields tokens start stop expr)
    (hfollow : (tokens.get stop).kind.binds ≠ comparisonPrecedence) :
    level.comparison.Yields tokens start stop expr := by
  rintro before rfl
  obtain ⟨value, middle, hreads, rfl, rfl⟩ := hoperand before rfl
  refine ⟨value, middle.look 1, ?_, rfl, rfl⟩
  rw [reads_comparison]
  exact ⟨value, middle, [], hreads, Nat.zero_le _, .stop (reads_comparisonOperator?_none hfollow),
    rfl⟩

private theorem notTest_yields (hcomparison : level.comparison.Yields tokens start stop expr)
    (hlead : Operator.logicalNot.precedence < (tokens.get start).kind.leads) :
    level.notTest.Yields tokens start stop expr := by
  rintro before rfl
  have hkind : tokens.kindAt before ≠ .keywordNot :=
    TokenKind.ne_of_leads hlead
  obtain ⟨value, after, hreads, hafter, hvalue⟩ := hcomparison (before.look 0) rfl
  refine ⟨value, after, ?_, hafter, hvalue⟩
  rw [reads_notTest, if_neg hkind]
  exact hreads

private theorem booleanChain_yields {operator : BooleanOperator} {operand : Parser Expr}
    (hoperand : operand.Yields tokens start stop expr)
    (hfollow : (tokens.get stop).kind.binds ≠ operator.operator.precedence) :
    (booleanChain operator.operator operator.kind operand).Yields tokens start stop expr := by
  rintro before rfl
  obtain ⟨value, middle, hreads, rfl, rfl⟩ := hoperand before rfl
  have hkind : tokens.kindAt middle ≠ operator.kind := by
    cases operator <;> exact TokenKind.ne_of_binds hfollow
  refine ⟨value, middle.look 0, ?_, rfl, rfl⟩
  rw [reads_booleanChain]
  exact ⟨value, middle, hreads, by rw [if_neg hkind]; exact ⟨rfl, rfl⟩⟩

private theorem expr_yields (horTest : level.orTest.Yields tokens start stop expr)
    (hlead : conditionalPrecedence < (tokens.get start).kind.leads)
    (hfollow : (tokens.get stop).kind.binds ≠ conditionalPrecedence) :
    level.expr.Yields tokens start stop expr := by
  rintro before rfl
  have hlambda : tokens.kindAt before ≠ .keywordLambda :=
    TokenKind.ne_of_leads hlead
  obtain ⟨value, middle, hreads, rfl, rfl⟩ := horTest (before.look 0) rfl
  have hif : tokens.kindAt middle ≠ .keywordIf :=
    TokenKind.ne_of_binds hfollow
  refine ⟨value, middle.look 0, ?_, rfl, rfl⟩
  rw [reads_expr, if_neg hlambda]
  exact ⟨value, middle, hreads, by rw [if_neg hif]; exact ⟨rfl, rfl⟩⟩

/-- What a layer yields the next looser one yields, unless a token has a meaning of its
own there. -/
theorem layer_yields_of_succ {precedence : Nat} (hloosest : conditionalPrecedence ≤ precedence)
    (htightest : precedence < atomPrecedence)
    (hyields : (level.layer (precedence + 1)).Yields tokens start stop expr)
    (hlead : precedence < (tokens.get start).kind.leads)
    (hfollow : (tokens.get stop).kind.binds ≠ precedence) :
    (level.layer precedence).Yields tokens start stop expr := by
  by_cases hbinary : Operator.bitwiseOr.precedence ≤ precedence ∧ precedence ≤ tightestBinary
  · rw [level.layer_eq_leftChain hbinary.1 hbinary.2]
    exact leftChain_yields hyields hfollow
  · have hcases : precedence = 2 ∨ precedence = 3 ∨ precedence = 4 ∨ precedence = 5 ∨
        precedence = 6 ∨ precedence = 13 ∨ precedence = 14 ∨ precedence = 15 := by
      change 2 ≤ precedence at hloosest
      change precedence < 16 at htightest
      change ¬(7 ≤ precedence ∧ precedence ≤ 12) at hbinary
      omega
    rcases hcases with rfl | rfl | rfl | rfl | rfl | rfl | rfl | rfl
    · exact expr_yields hyields hlead hfollow
    · exact @booleanChain_yields _ _ _ _ .disjunction _ hyields hfollow
    · exact @booleanChain_yields _ _ _ _ .conjunction _ hyields hfollow
    · exact notTest_yields hyields hlead
    · exact comparison_yields hyields hfollow
    · exact factor_yields hyields hlead
    · exact power_yields hyields hfollow
    · exact awaited_yields hyields hlead

/-- What a layer yields every looser one yields, where the first token leads the tight layer and the
token behind binds less than the loose one. -/
theorem layer_yields_of_le {loose tight : Nat} (hloosest : conditionalPrecedence ≤ loose)
    (hle : loose ≤ tight) (htightest : tight ≤ atomPrecedence)
    (hyields : (level.layer tight).Yields tokens start stop expr)
    (hlead : tight ≤ (tokens.get start).kind.leads)
    (hfollow : (tokens.get stop).kind.binds < loose) :
    (level.layer loose).Yields tokens start stop expr := by
  obtain ⟨count, rfl⟩ := Nat.exists_eq_add_of_le hle
  clear hle
  induction count with
  | zero => exact hyields
  | succ count ih =>
    refine ih (by omega) (layer_yields_of_succ ?_ ?_ hyields ?_ ?_) (by omega)
    all_goals omega

/-! ## Operands and operators -/

/-- An identifier yields its name. -/
theorem atom_yields_name {text : String} (hkind : (tokens.get start).kind = .identifier)
    (htext : (tokens.get start).text = text) :
    level.atom.Yields tokens start (start + 1) ⟨.point 0, .name text⟩ := by
  rintro before rfl
  subst htext
  refine ⟨⟨(tokens.get before.next).span, .name (tokens.get before.next).text⟩, before.step, ?_, rfl,
    rfl⟩
  rw [reads_atom, show tokens.kindAt before = .identifier from hkind]
  exact ⟨rfl, rfl⟩

/-- Parentheses yield what is inside them. -/
theorem atom_yields_parens (hkind : (tokens.get start).kind = .parenthesisOpen)
    (hparens : level.innerParens.Yields tokens start stop expr) :
    level.atom.Yields tokens start stop expr := by
  rintro before rfl
  obtain ⟨value, after, hreads, rfl, rfl⟩ := hparens (before.look 0) rfl
  refine ⟨value, after, ?_, rfl, rfl⟩
  rw [reads_atom, show tokens.kindAt before = .parenthesisOpen from hkind]
  exact hreads

/-- An `await` yields the operand behind it. -/
theorem awaited_yields_await (hkind : (tokens.get start).kind = .keywordAwait)
    (hoperand : level.primary.Yields tokens (start + 1) stop expr) :
    level.awaited.Yields tokens start stop ⟨.point 0, .await expr⟩ := by
  rintro before rfl
  obtain ⟨value, after, hreads, rfl, rfl⟩ := hoperand before.step rfl
  refine ⟨⟨tokens.spanBetween before.next after.next, .await value⟩, after, ?_, rfl, rfl⟩
  rw [reads_awaited, if_pos (show tokens.kindAt before = .keywordAwait from hkind)]
  exact ⟨value, hreads, rfl⟩

/-- A power yields its base and its exponent. -/
theorem power_yields_binary {middle : Nat} {left right : Expr}
    (hleft : level.awaited.Yields tokens start middle left)
    (hkind : (tokens.get middle).kind = .asteriskAsterisk)
    (hright : level.innerFactor.Yields tokens (middle + 1) stop right) :
    level.power.Yields tokens start stop ⟨.point 0, .binary .exponentiation left right⟩ := by
  rintro before rfl
  obtain ⟨base, place, hbase, rfl, rfl⟩ := hleft before rfl
  obtain ⟨exponent, after, hexponent, rfl, rfl⟩ := hright place.step rfl
  refine ⟨⟨tokens.spanBetween before.next after.next, .binary .exponentiation base exponent⟩, after,
    ?_, rfl, rfl⟩
  rw [reads_power]
  refine ⟨base, place, hbase, ?_⟩
  rw [if_pos (show tokens.kindAt place = .asteriskAsterisk from hkind)]
  exact ⟨exponent, hexponent, rfl⟩

/-- A sign yields the operand behind it. -/
theorem factor_yields_unary {operator : Operator}
    (hoperator : Operator.unary? (tokens.get start).kind = some operator)
    (hoperand : level.innerFactor.Yields tokens (start + 1) stop expr) :
    level.factor.Yields tokens start stop ⟨.point 0, .unary operator expr⟩ := by
  rintro before rfl
  obtain ⟨value, after, hreads, rfl, rfl⟩ := hoperand before.step rfl
  refine ⟨⟨tokens.spanBetween before.next after.next, .unary operator value⟩, after, ?_, rfl, rfl⟩
  rw [reads_factor, show Operator.unary? (tokens.kindAt before) = some operator from hoperator]
  exact ⟨value, hreads, rfl⟩

/-- A negation yields what stands behind it. -/
theorem notTest_yields_unary (hkind : (tokens.get start).kind = .keywordNot)
    (hoperand : level.innerNotTest.Yields tokens (start + 1) stop expr) :
    level.notTest.Yields tokens start stop ⟨.point 0, .unary .logicalNot expr⟩ := by
  rintro before rfl
  obtain ⟨value, after, hreads, rfl, rfl⟩ := hoperand before.step rfl
  refine ⟨⟨tokens.spanBetween before.next after.next, .unary .logicalNot value⟩, after, ?_, rfl, rfl⟩
  rw [reads_notTest, if_pos (show tokens.kindAt before = .keywordNot from hkind)]
  exact ⟨value, hreads, rfl⟩

/-- A conditional yields its three parts, in the order of the tree and not of the text. -/
theorem expr_yields_conditional {middle last : Nat} {test consequent alternate : Expr}
    (hlead : conditionalPrecedence < (tokens.get start).kind.leads)
    (hconsequent : level.orTest.Yields tokens start middle consequent)
    (hif : (tokens.get middle).kind = .keywordIf)
    (htest : level.orTest.Yields tokens (middle + 1) last test)
    (helse : (tokens.get last).kind = .keywordElse)
    (halternate : level.innerExpr.Yields tokens (last + 1) stop alternate) :
    level.expr.Yields tokens start stop ⟨.point 0, .conditional test consequent alternate⟩ := by
  rintro before rfl
  have hlambda : tokens.kindAt before ≠ .keywordLambda :=
    TokenKind.ne_of_leads hlead
  obtain ⟨first, second, hfirst, rfl, rfl⟩ := hconsequent (before.look 0) rfl
  obtain ⟨condition, third, hcondition, rfl, rfl⟩ := htest second.step rfl
  obtain ⟨other, after, hother, rfl, rfl⟩ := halternate third.step rfl
  refine ⟨⟨tokens.spanBetween before.next after.next, .conditional condition first other⟩, after, ?_,
    rfl, rfl⟩
  rw [reads_expr, if_neg hlambda]
  refine ⟨first, second, hfirst, ?_⟩
  rw [if_pos (show tokens.kindAt second = .keywordIf from hif)]
  exact ⟨condition, third, other, hcondition, helse, hother, rfl⟩

/-- Parentheses round an expression group it, unless it is bound to a name or it starts in a way
that no layer knows. -/
theorem parenDisplay_yields (hopen : (tokens.get start).kind = .parenthesisOpen)
    (hexpr : level.expr.Yields tokens (start + 1) stop expr)
    (hlead : 0 < (tokens.get (start + 1)).kind.leads)
    (hnamed : (tokens.get (start + 1 + 1)).kind ≠ .colonEquals)
    (hclose : (tokens.get stop).kind = .parenthesisClose) :
    level.parenDisplay.Yields tokens start (stop + 1) expr := by
  rintro before rfl
  obtain ⟨value, middle, hreads, rfl, rfl⟩ := hexpr ((before.step.look 0).look 0 |>.look 1) rfl
  have hlast : tokens.kindAt middle = .parenthesisClose := hclose
  refine ⟨value, (middle.look 1).step, ?_, rfl, rfl⟩
  have hstart : ∀ {other : TokenKind}, other.leads = 0 → tokens.kindAt before.step ≠ other := by
    intro other hother
    exact TokenKind.ne_of_leads (by rw [hother]; exact hlead)
  rw [reads_parenDisplay, if_neg (hstart rfl), if_neg (hstart rfl)]
  refine ⟨hopen, value, middle, ?_, ?_⟩
  · rw [starNamedExpr, reads_starredOr, Tokens.kindAt_look, if_neg (hstart rfl), reads_namedExpr,
      if_neg (fun hboth => hnamed hboth.2)]
    exact hreads
  · simp [Tokens.startsFor, hlast]

/-! ## Chains that nest to the left -/

/-- The tokens between two indices are the left side of whatever operators of a precedence follow
them: an operand, and the operators that are applied to it in turn. -/
def LeftSide (level : Level) (precedence : Nat) (tokens : Tokens) (start stop : Nat) (expr : Expr) :
    Prop :=
  ∀ before : Place, before.next = start →
    ∃ first middle left last count,
      (level.layer (precedence + 1)).Reads tokens before first middle ∧ last.next = stop ∧
      left.withoutSpans = expr ∧ start + count ≤ stop ∧
      ∀ {more result after},
        Applies precedence (level.layer (precedence + 1)) tokens more left last result after →
          Applies precedence (level.layer (precedence + 1)) tokens (more + count) first middle result
            after

variable {precedence : Nat}

/-- One operand is a left side. -/
theorem LeftSide.of_operand (hoperand : (level.layer (precedence + 1)).Yields tokens start stop expr)
    (hle : start ≤ stop) : level.LeftSide precedence tokens start stop expr := by
  rintro before rfl
  obtain ⟨value, middle, hreads, rfl, rfl⟩ := hoperand before rfl
  exact ⟨value, middle, value, middle, 0, hreads, rfl, rfl, hle, fun happlies => happlies⟩

/-- A left side with an operator of the precedence and an operand is a left side again. -/
theorem LeftSide.apply {middle : Nat} {left right : Expr} {operator : Operator}
    (hleft : level.LeftSide precedence tokens start middle left)
    (hoperator : Operator.binary? (tokens.get middle).kind = some operator)
    (hprecedence : operator.precedence = precedence)
    (hright : (level.layer (precedence + 1)).Yields tokens (middle + 1) stop right)
    (hlt : middle < stop) :
    level.LeftSide precedence tokens start stop ⟨.point 0, .binary operator left right⟩ := by
  rintro before rfl
  obtain ⟨first, place, value, last, count, hfirst, rfl, rfl, hcount, hrest⟩ := hleft before rfl
  obtain ⟨operand, after, hoperand, rfl, rfl⟩ := hright last.step rfl
  refine ⟨first, place, ⟨value.span.join operand.span, .binary operator value operand⟩, after,
    count + 1, hfirst, rfl, rfl, by omega, fun {more result final} happlies => ?_⟩
  have hmore := hrest (.apply hoperator hprecedence hoperand happlies)
  rwa [Nat.add_right_comm, Nat.add_assoc] at hmore

/-- The left side of no further operator is a chain. -/
theorem LeftSide.yields (hside : level.LeftSide precedence tokens start stop expr)
    (hfollow : (tokens.get stop).kind.binds ≠ precedence) (hsize : stop ≤ tokens.tokens.size) :
    (leftChain precedence (level.layer (precedence + 1))).Yields tokens start stop expr := by
  rintro before rfl
  obtain ⟨first, place, value, last, count, hfirst, rfl, rfl, hcount, hrest⟩ := hside before rfl
  refine ⟨value, last.look 0, ?_, rfl, rfl⟩
  rw [reads_leftChain]
  refine ⟨first, place, hfirst, 0 + count, by omega, hrest (.stop fun operator hoperator => ?_)⟩
  rw [← TokenKind.binds_of_binary hoperator]
  exact hfollow

end Level

end PythonOutline
