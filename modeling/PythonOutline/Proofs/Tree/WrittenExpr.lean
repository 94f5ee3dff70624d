import PythonOutline.Proofs.Grammar.Expr
import PythonOutline.Proofs.Tree.Written

/-! # The tokens that operators are written in

Every parser of operands, of operators and of lists of expressions reads what is written in the
tokens it takes, if the parsers of the next inner level do. -/

namespace PythonOutline

namespace Operator

variable {kind : TokenKind} {operator : Operator}

private theorem isPlain_of_unary? (hunary : unary? kind = some operator) : kind.IsPlain := by
  unfold unary? at hunary
  split at hunary <;> first | contradiction | decide

private theorem isPlain_of_binary? (hbinary : binary? kind = some operator) : kind.IsPlain := by
  unfold binary? at hbinary
  split at hbinary <;> first | contradiction | decide

private theorem isPlain_of_comparison? (hcomparison : comparison? kind = some operator) :
    kind.IsPlain := by
  unfold comparison? at hcomparison
  split at hcomparison <;> first | contradiction | decide

/-- Powers are none of the operators that associate to the left. -/
theorem ne_exponentiation_of_binary? (hbinary : binary? kind = some operator) :
    operator ≠ .exponentiation := by
  rintro rfl
  cases kind <;> cases hbinary

end Operator

/-- What the parsers of a level read is written in the tokens that they take. -/
structure Level.Writes (level : Level) (tokens : Tokens) : Prop where
  innerLambda : level.innerLambda.Writes tokens
  innerExpr : level.innerExpr.Writes tokens
  innerNotTest : level.innerNotTest.Writes tokens
  innerFactor : level.innerFactor.Writes tokens
  innerArguments : ∀ ⦃before arguments after⦄,
    level.innerArguments.Reads tokens before arguments after →
    tokens.kindAt before = .parenthesisOpen →
    tokens.Holds before.next after.next (arguments.map Argument.value)
  innerIndex : ∀ ⦃before index after⦄, level.innerIndex.Reads tokens before index after →
    tokens.kindAt before = .bracketOpen → tokens.Holds before.next after.next [index]
  innerParens : level.innerParens.Writes tokens
  innerBrackets : level.innerBrackets.Writes tokens
  innerBraces : level.innerBraces.Writes tokens

namespace Level

open PythonOutline.Parser

attribute [local simp] ExprForm.parts ExprForm.besideParts ExprForm.nestedParts

variable {level : Level} {tokens : Tokens} {before after : Place}

/-! ## Operands -/

private theorem numberLiteral_writes : numberLiteral.Writes tokens := by
  intro before value after hreads
  obtain ⟨hkind, rfl, rfl⟩ := reads_numberLiteral.mp hreads
  exact .leaf hkind (by decide) rfl

private theorem stringLiteral_writes {value : Expr}
    (hreads : stringLiteral.Reads tokens before value after)
    (hkind : tokens.kindAt before = .literalString) :
    tokens.Writes before.next after.next value := by
  obtain ⟨hle, hafter, hall, text, bytes, formatted, rfl⟩ := reads_stringLiteral hreads
  have hlt : before.next < after.next := by
    refine Nat.lt_of_le_of_ne hle fun heq => hafter ?_
    rw [Tokens.kindAt, ← heq]
    exact hkind
  have hplain : ∀ index, before.next ≤ index → index < after.next →
      (tokens.get index).kind.IsPlain := by
    intro index hstart hstop
    rw [hall index hstart hstop]
    decide
  have hholds : tokens.Holds before.next after.next [] := ⟨.of_plain hle hplain, by simp⟩
  exact hholds.writes hlt (by simp)

section

variable (hlevel : level.Writes tokens)

include hlevel

private theorem atom_writes : level.atom.Writes tokens := by
  intro before value after hreads
  rw [reads_atom] at hreads
  split at hreads
  case h_6 => exact numberLiteral_writes.look hreads
  case h_7 hkind =>
    have hwrites := stringLiteral_writes hreads hkind
    exact hwrites
  case h_8 => exact hlevel.innerParens.look hreads
  case h_9 => exact hlevel.innerBrackets.look hreads
  case h_10 => exact hlevel.innerBraces.look hreads
  case h_11 => exact hreads.elim
  all_goals
    rename_i hkind
    obtain ⟨rfl, rfl⟩ := hreads
    exact .leaf hkind (by decide) rfl

/-- What follows an operand is written behind it. -/
theorem Extends.writes {start : Nat} {value result : Expr}
    (hextends : level.Extends tokens start value before result after)
    (hvalue : tokens.Writes start before.next value) : tokens.Writes start after.next result := by
  induction hextends with
  | stop => exact hvalue
  | member hdot hname _ ih =>
    have hboth := (hvalue.holds.thenToken hdot (by decide)).thenToken hname (by decide)
    exact ih (hboth.writes (Nat.lt_add_right 2 hvalue.lt) (by simp))
  | call hparen harguments _ ih =>
    have hcalled := hlevel.innerArguments harguments hparen
    have hboth := hvalue.holds.append hcalled
    exact ih (hboth.writes (Nat.lt_of_lt_of_le hvalue.lt hcalled.le) (by simp))
  | subscript hbracket hindex _ ih =>
    have hindexed := hlevel.innerIndex hindex hbracket
    have hboth := hvalue.holds.append hindexed
    exact ih (hboth.writes (Nat.lt_of_lt_of_le hvalue.lt hindexed.le) (by simp))

private theorem primary_writes : level.primary.Writes tokens := by
  intro before value after hreads
  obtain ⟨first, middle, hfirst, hextends⟩ := reads_primary hreads
  exact hextends.writes hlevel (atom_writes hlevel hfirst)

private theorem awaited_writes : level.awaited.Writes tokens := by
  intro before value after hreads
  rw [reads_awaited] at hreads
  split at hreads
  · rename_i hkind
    obtain ⟨operand, hreadsOperand, rfl⟩ := hreads
    have hoperand := (primary_writes hlevel hreadsOperand).holds
    exact (hoperand.behindToken hkind (by decide)).writes hoperand.le (by simp)
  · exact (primary_writes hlevel).look hreads

private theorem power_writes : level.power.Writes tokens := by
  intro before value after hreads
  obtain ⟨left, middle, hreadsLeft, hrest⟩ := reads_power.mp hreads
  have hleft := awaited_writes hlevel hreadsLeft
  split at hrest
  · rename_i hkind
    obtain ⟨right, hreadsRight, rfl⟩ := hrest
    have hright := hlevel.innerFactor hreadsRight
    have hboth := (hleft.holds.thenToken hkind (by decide)).append hright.holds
    exact hboth.writes (Nat.lt_trans (Nat.lt_succ_of_lt hleft.lt) hright.lt) (by simp)
  · obtain ⟨rfl, rfl⟩ := hrest
    exact hleft

/-- A sign and its operand write one expression. -/
theorem factor_writes : level.factor.Writes tokens := by
  intro before value after hreads
  rw [reads_factor] at hreads
  split at hreads
  · exact (power_writes hlevel).look hreads
  · rename_i operator hoperator
    obtain ⟨argument, hreadsArgument, rfl⟩ := hreads
    have hargument := (hlevel.innerFactor hreadsArgument).holds
    exact (hargument.behindToken rfl (Operator.isPlain_of_unary? hoperator)).writes hargument.le
      (by simp)

/-! ## Binary operators and comparisons -/

omit hlevel in
/-- Each operator of a chain joins what stands on its left with an operand. -/
theorem Applies.writes {precedence count start : Nat} {operand : Parser Expr} {left result : Expr}
    (hoperand : operand.Writes tokens)
    (happlies : Applies precedence operand tokens count left before result after)
    (hleft : tokens.Writes start before.next left) : tokens.Writes start after.next result := by
  induction happlies with
  | stop => exact hleft
  | apply hoperator _ hright _ ih =>
    exact ih (.join (Operator.ne_exponentiation_of_binary? hoperator) hleft
      (Operator.isPlain_of_binary? hoperator) (hoperand hright))

omit hlevel in
private theorem leftChain_writes {precedence : Nat} {operand : Parser Expr}
    (hoperand : operand.Writes tokens) : (leftChain precedence operand).Writes tokens := by
  intro before value after hreads
  obtain ⟨first, middle, hfirst, count, -, happlies⟩ := reads_leftChain.mp hreads
  exact happlies.writes hoperand (hoperand hfirst)

private theorem binary_writes (tiers : Nat) : (level.binary tiers).Writes tokens := by
  induction tiers with
  | zero => exact factor_writes hlevel
  | succ tiers ih => exact leftChain_writes ih

/-- Chains of binary operators are joined from operands. -/
theorem bitwiseOr_writes : level.bitwiseOr.Writes tokens :=
  binary_writes hlevel _

omit hlevel in
private theorem comparisonOperator?_holds : comparisonOperator?.Holds tokens fun _ => [] := by
  intro before operator after hreads
  rw [reads_comparisonOperator?] at hreads
  split at hreads
  · rename_i hkinds
    obtain ⟨-, rfl⟩ := hreads
    exact (Tokens.Holds.token hkinds.1 (by decide)).thenToken hkinds.2 (by decide)
  · split at hreads
    · rename_i hkinds
      obtain ⟨-, rfl⟩ := hreads
      exact (Tokens.Holds.token hkinds.1 (by decide)).thenToken hkinds.2 (by decide)
    · split at hreads
      · obtain ⟨-, rfl⟩ := hreads
        exact .nil _ _
      · rename_i hcomparison
        obtain ⟨-, rfl⟩ := hreads
        exact .token rfl (Operator.isPlain_of_comparison? hcomparison)

omit hlevel in
/-- Where no comparison stands, no token is taken. -/
theorem next_eq_of_noComparison (hreads : comparisonOperator?.Reads tokens before none after) :
    after.next = before.next := by
  rw [reads_comparisonOperator?] at hreads
  split at hreads
  · cases hreads.1
  split at hreads
  · cases hreads.1
  split at hreads
  · rw [hreads.2]
    rfl
  · cases hreads.1

/-- A comparison holds its operands one after another. -/
theorem Compares.holds {compared : List (Operator × Expr)}
    (hcompares : level.Compares tokens before compared after) :
    tokens.Holds before.next after.next (compared.map Prod.snd) := by
  induction hcompares with
  | stop hnone => exact comparisonOperator?_holds hnone
  | compare hoperator hright _ ih =>
    exact ((comparisonOperator?_holds hoperator).append (bitwiseOr_writes hlevel hright).holds).append
      ih

private theorem comparison_writes : level.comparison.Writes tokens := by
  intro before value after hreads
  obtain ⟨left, middle, compared, hreadsLeft, -, hcompares, rfl⟩ := reads_comparison.mp hreads
  have hleft := bitwiseOr_writes hlevel hreadsLeft
  have hothers := hcompares.holds hlevel
  have hlt := Nat.lt_of_lt_of_le hleft.lt hothers.le
  cases hcompares with
  | stop hnone =>
    rw [next_eq_of_noComparison hnone]
    exact hleft
  | compare => exact (hleft.holds.append hothers).writes hlt (by simp)

theorem notTest_writes : level.notTest.Writes tokens := by
  intro before value after hreads
  rw [reads_notTest] at hreads
  split at hreads
  · rename_i hkind
    obtain ⟨argument, hreadsArgument, rfl⟩ := hreads
    have hargument := (hlevel.innerNotTest hreadsArgument).holds
    exact (hargument.behindToken hkind (by decide)).writes hargument.le (by simp)
  · exact (comparison_writes hlevel).look hreads

/-! ## Boolean operators and conditionals -/

omit hlevel in
private theorem booleanChain_writes {operator : Operator} {keyword : TokenKind}
    {operand : Parser Expr} (hplain : keyword.IsPlain) (hoperand : operand.Writes tokens) :
    (booleanChain operator keyword operand).Writes tokens := by
  intro before value after hreads
  obtain ⟨first, middle, hreadsFirst, hrest⟩ := reads_booleanChain.mp hreads
  have hfirst := hoperand hreadsFirst
  split at hrest
  · obtain ⟨others, -, hreadsOthers, rfl⟩ := hrest
    have hothers := Holds.repeatsBehind hoperand.holds hplain hreadsOthers
    exact (hfirst.holds.append hothers).writes (Nat.lt_of_lt_of_le hfirst.lt hothers.le) (by simp)
  · obtain ⟨rfl, rfl⟩ := hrest
    exact hfirst

private theorem andTest_writes : level.andTest.Writes tokens :=
  booleanChain_writes (by decide) (notTest_writes hlevel)

theorem orTest_writes : level.orTest.Writes tokens :=
  booleanChain_writes (by decide) (andTest_writes hlevel)

/-- A conditional is written with its three parts. -/
theorem expr_writes : level.expr.Writes tokens := by
  intro before value after hreads
  rw [reads_expr] at hreads
  split at hreads
  · exact hlevel.innerLambda.look hreads
  · obtain ⟨consequent, middle, hreadsConsequent, hrest⟩ := hreads
    have hconsequent := (orTest_writes hlevel).look hreadsConsequent
    split at hrest
    · rename_i hif
      obtain ⟨test, last, alternate, hreadsTest, helse, hreadsAlternate, rfl⟩ := hrest
      have htest := (orTest_writes hlevel hreadsTest).holds.behindToken hif (by decide)
      have halternate := (hlevel.innerExpr hreadsAlternate).holds.behindToken helse (by decide)
      have hlt := Nat.lt_of_lt_of_le hconsequent.lt (Nat.le_trans htest.le halternate.le)
      exact ((hconsequent.holds.append htest).append halternate).writes hlt (by simp)
    · obtain ⟨rfl, rfl⟩ := hrest
      exact hconsequent

/-- A bound name is written with its expression. -/
theorem namedExpr_writes : level.namedExpr.Writes tokens := by
  intro before value after hreads
  rw [reads_namedExpr] at hreads
  split at hreads
  · rename_i hkinds
    obtain ⟨bound, hreadsBound, rfl⟩ := hreads
    have hbound : tokens.Writes (before.next + 2) after.next bound :=
      expr_writes hlevel hreadsBound
    have hnamed := (hbound.holds.behindToken hkinds.2 (by decide)).behindToken hkinds.1 (by decide)
    exact hnamed.writes (Nat.lt_trans (Nat.lt_add_of_pos_right (by decide)) hbound.lt) (by simp)
  · exact (expr_writes hlevel).look hreads

/-! ## Lists of expressions -/

private theorem starred_writes : level.starred.Writes tokens := by
  intro before value after hreads
  obtain ⟨hkind, starred, hreadsStarred, rfl⟩ := reads_starred.mp hreads
  have hstarred := (bitwiseOr_writes hlevel hreadsStarred).holds
  exact (hstarred.behindToken hkind (by decide)).writes hstarred.le (by simp)

private theorem starredOr_writes {other : Parser Expr} (hother : other.Writes tokens) :
    (level.starredOr other).Writes tokens := by
  intro before value after hreads
  rw [reads_starredOr] at hreads
  split at hreads
  · exact (starred_writes hlevel).look hreads
  · exact hother.look hreads

theorem starExpr_writes : level.starExpr.Writes tokens :=
  starredOr_writes hlevel (expr_writes hlevel)

theorem starNamedExpr_writes : level.starNamedExpr.Writes tokens :=
  starredOr_writes hlevel (namedExpr_writes hlevel)

omit hlevel in
/-- An item with further ones behind commas is written as a tuple. -/
theorem tuple_writes {item : Parser Expr} (hitem : item.Writes tokens) {starts : TokenKind → Bool}
    {start : Nat} {middle : Place} {first : Expr} {others : List Expr}
    (hfirst : tokens.Writes start middle.next first)
    (hreads : Continues .comma starts item tokens (middle.look 0) others after) :
    tokens.Writes start after.next ⟨tokens.spanBetween start after.next, .tuple (first :: others)⟩ := by
  have hothers := hitem.holds.continues (by decide) hreads
  exact (hfirst.holds.append hothers).writes (Nat.lt_of_lt_of_le hfirst.lt hothers.le) (by simp)

omit hlevel in
private theorem tupleOf_writes {item : Parser Expr} (hitem : item.Writes tokens) :
    (tupleOf item).Writes tokens := by
  intro before value after hreads
  obtain ⟨first, middle, hreadsFirst, hrest⟩ := reads_tupleOf hreads
  have hfirst := hitem hreadsFirst
  split at hrest
  · obtain ⟨others, hreadsOthers, rfl⟩ := hrest
    exact tuple_writes hitem hfirst hreadsOthers
  · obtain ⟨rfl, rfl⟩ := hrest
    exact hfirst

theorem starExprs_writes : level.starExprs.Writes tokens :=
  tupleOf_writes (starExpr_writes hlevel)

theorem starNamedExprs_writes : level.starNamedExprs.Writes tokens :=
  tupleOf_writes (starNamedExpr_writes hlevel)

theorem yieldExpr_writes : level.yieldExpr.Writes tokens := by
  intro before value after hreads
  obtain ⟨hyield, hrest⟩ := reads_yieldExpr.mp hreads
  split at hrest
  · rename_i hfrom
    obtain ⟨source, hreadsSource, rfl⟩ := hrest
    have hsource := (expr_writes hlevel hreadsSource).holds.behindToken hfrom (by decide)
    exact (hsource.behindToken hyield (by decide)).writes hsource.le (by simp)
  · split at hrest
    · obtain ⟨yielded, hreadsYielded, rfl⟩ := hrest
      have hyielded := ((starExprs_writes hlevel).look hreadsYielded).holds
      exact (hyielded.behindToken hyield (by decide)).writes hyielded.le (by simp)
    · obtain ⟨rfl, rfl⟩ := hrest
      exact (Tokens.Holds.token hyield (by decide)).writes (Nat.lt_succ_self _) (by simp)

/-- What may be assigned is written with its items. -/
theorem yieldOrStarExprs_writes : level.yieldOrStarExprs.Writes tokens := by
  intro before value after hreads
  rw [reads_yieldOrStarExprs] at hreads
  split at hreads
  · exact (yieldExpr_writes hlevel).look hreads
  · exact (starExprs_writes hlevel).look hreads

/-- Targets are written as the items that they are. -/
theorem targetList_writes : level.targetList.Writes tokens := by
  intro before value after hreads
  exact tupleOf_writes (starredOr_writes hlevel (bitwiseOr_writes hlevel))
    (reads_targetList.mp hreads).2

theorem target_writes : level.target.Writes tokens := by
  intro before value after hreads
  exact bitwiseOr_writes hlevel (reads_target.mp hreads).2

end

end Level

end PythonOutline
