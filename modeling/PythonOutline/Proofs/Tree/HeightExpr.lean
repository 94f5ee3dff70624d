import PythonOutline.Proofs.Grammar.Expr
import PythonOutline.Proofs.Tree.Height

/-! # The rank of operands and operators

Each layer of the expression grammar adds a constant to the rank of what it reads. The loops that
read chains of attributes, calls, subscripts and binary operators add nothing for each turn. -/

namespace PythonOutline

open Node PythonOutline.Parser

attribute [local simp] ExprForm.children

variable {tokens : Tokens} {bound : Nat}

/-- An expression ranks one more than its parts at most. -/
theorem Expr.rank_le {span : Span} {form : ExprForm} (hranks : RankAtMost bound form.children) :
    (Expr.node ⟨span, form⟩).rank ≤ bound + 1 :=
  Node.rank_le hranks

/-- What the parsers of a level read has at most a rank. -/
structure Level.Ranks (level : Level) (tokens : Tokens) (bound : Nat) : Prop where
  innerLambda : level.innerLambda.Ranks tokens Expr.node bound
  innerExpr : level.innerExpr.Ranks tokens Expr.node bound
  innerNotTest : level.innerNotTest.Ranks tokens Expr.node bound
  innerFactor : level.innerFactor.Ranks tokens Expr.node bound
  innerArguments : ∀ ⦃before arguments after⦄,
    level.innerArguments.Reads tokens before arguments after →
    RankAtMost bound (arguments.map Argument.node)
  innerIndex : level.innerIndex.Ranks tokens Expr.node bound
  innerParens : level.innerParens.Ranks tokens Expr.node bound
  innerBrackets : level.innerBrackets.Ranks tokens Expr.node bound
  innerBraces : level.innerBraces.Ranks tokens Expr.node bound

namespace Level

variable {level : Level} {before after : Place}

/-- An expression without parts keeps to every bound but zero. -/
theorem leaf_rank_le {span : Span} {form : ExprForm} (hleaf : form.children = []) :
    (Expr.node ⟨span, form⟩).rank ≤ bound + 1 :=
  Expr.rank_le (by rw [hleaf]; exact rankAtMost_nil)

section

variable (hlevel : level.Ranks tokens bound)

include hlevel

/-! ## Operands -/

private theorem atom_ranks : level.atom.Ranks tokens Expr.node (bound + 1) := by
  intro before value after hreads
  rw [reads_atom] at hreads
  split at hreads
  case h_6 =>
    obtain ⟨-, -, rfl⟩ := reads_numberLiteral.mp hreads
    exact leaf_rank_le rfl
  case h_7 =>
    obtain ⟨-, -, -, _, _, _, rfl⟩ := reads_stringLiteral hreads
    exact leaf_rank_le rfl
  case h_8 => exact Nat.le_succ_of_le (hlevel.innerParens hreads)
  case h_9 => exact Nat.le_succ_of_le (hlevel.innerBrackets hreads)
  case h_10 => exact Nat.le_succ_of_le (hlevel.innerBraces hreads)
  case h_11 => exact hreads.elim
  all_goals
    obtain ⟨rfl, -⟩ := hreads
    exact leaf_rank_le rfl

/-- Attributes, calls and subscripts do not add to the rank. -/
theorem Extends.rank_le {start : Nat} {value result : Expr}
    (hextends : level.Extends tokens start value before result after)
    (hvalue : value.node.rank ≤ bound + 1) : result.node.rank ≤ bound + 1 := by
  induction hextends with
  | stop => exact hvalue
  | member _ _ _ ih => exact ih (rank_le_of_isChained rfl hvalue rankAtMost_nil)
  | call _ harguments _ ih =>
    refine ih (rank_le_of_isChained rfl hvalue ?_)
    simpa using hlevel.innerArguments harguments
  | subscript _ hindex _ ih =>
    refine ih (rank_le_of_isChained rfl hvalue ?_)
    simpa using hlevel.innerIndex hindex

private theorem primary_ranks : level.primary.Ranks tokens Expr.node (bound + 1) := by
  intro before value after hreads
  obtain ⟨first, middle, hfirst, hextends⟩ := reads_primary hreads
  exact hextends.rank_le hlevel (atom_ranks hlevel hfirst)

private theorem awaited_ranks : level.awaited.Ranks tokens Expr.node (bound + 2) := by
  intro before value after hreads
  rw [reads_awaited] at hreads
  split at hreads
  · obtain ⟨operand, hoperand, rfl⟩ := hreads
    have hranks := primary_ranks hlevel hoperand
    exact Expr.rank_le (by simpa using hranks)
  · exact Nat.le_succ_of_le (primary_ranks hlevel hreads)

private theorem power_ranks : level.power.Ranks tokens Expr.node (bound + 2) := by
  intro before value after hreads
  obtain ⟨left, middle, hleft, hrest⟩ := reads_power.mp hreads
  have hranks := awaited_ranks hlevel hleft
  split at hrest
  · obtain ⟨right, hright, rfl⟩ := hrest
    have hexponent := hlevel.innerFactor hright
    exact rank_le_of_isChained rfl hranks (by simpa using Nat.le_succ_of_le hexponent)
  · rw [hrest.1]
    exact hranks

/-- A sign adds one to the rank of its operand. -/
theorem factor_ranks : level.factor.Ranks tokens Expr.node (bound + 2) := by
  intro before value after hreads
  rw [reads_factor] at hreads
  split at hreads
  · exact power_ranks hlevel hreads
  · obtain ⟨argument, hargument, rfl⟩ := hreads
    have hranks := hlevel.innerFactor hargument
    exact Nat.le_succ_of_le (Expr.rank_le (by simpa using hranks))

/-! ## Binary operators and comparisons -/

omit hlevel in
/-- Binary operators of one precedence add only the rank of one of them. -/
theorem Applies.rank_le {precedence count : Nat} {operand : Parser Expr} {left result : Expr}
    (hoperand : operand.Ranks tokens Expr.node bound)
    (happlies : Applies precedence operand tokens count left before result after)
    (hleft : left.node.rank ≤ bound + 1) : result.node.rank ≤ bound + 1 := by
  induction happlies with
  | stop => exact hleft
  | apply _ _ hright _ ih =>
    exact ih (rank_le_of_isChained rfl hleft (by simpa using hoperand hright))

omit hlevel in
private theorem leftChain_ranks {precedence : Nat} {operand : Parser Expr}
    (hoperand : operand.Ranks tokens Expr.node bound) :
    (leftChain precedence operand).Ranks tokens Expr.node (bound + 1) := by
  intro before value after hreads
  obtain ⟨first, middle, hfirst, count, -, happlies⟩ := reads_leftChain.mp hreads
  exact happlies.rank_le hoperand (Nat.le_succ_of_le (hoperand hfirst))

private theorem binary_ranks (tiers : Nat) :
    (level.binary tiers).Ranks tokens Expr.node (bound + 2 + tiers) := by
  induction tiers with
  | zero => exact factor_ranks hlevel
  | succ tiers ih => exact leftChain_ranks ih

/-- Each binary precedence adds one to the rank, however long its chains are. -/
theorem bitwiseOr_ranks : level.bitwiseOr.Ranks tokens Expr.node (bound + 8) :=
  binary_ranks hlevel 6

/-- The operands of a comparison have the rank of what is compared. -/
theorem Compares.rank_le {compared : List (Operator × Expr)}
    (hcompares : level.Compares tokens before compared after) :
    RankAtMost (bound + 8) (compared.map fun comparison => comparison.2.node) := by
  induction hcompares with
  | stop => exact rankAtMost_nil
  | compare _ hright _ ih => exact rankAtMost_cons.mpr ⟨bitwiseOr_ranks hlevel hright, ih⟩

private theorem comparison_ranks : level.comparison.Ranks tokens Expr.node (bound + 9) := by
  intro before value after hreads
  obtain ⟨left, middle, compared, hleft, -, hcompares, rfl⟩ := reads_comparison.mp hreads
  have hfirst := bitwiseOr_ranks hlevel hleft
  have hothers := hcompares.rank_le hlevel
  split
  · exact Nat.le_succ_of_le hfirst
  · refine Expr.rank_le ?_
    simpa [Function.comp_def] using ⟨hfirst, hothers⟩

/-- A negation adds one to the rank. -/
theorem notTest_ranks : level.notTest.Ranks tokens Expr.node (bound + 9) := by
  intro before value after hreads
  rw [reads_notTest] at hreads
  split at hreads
  · obtain ⟨argument, hargument, rfl⟩ := hreads
    have hranks := hlevel.innerNotTest hargument
    exact Nat.le_trans (Expr.rank_le (by simpa using hranks)) (by omega)
  · exact comparison_ranks hlevel hreads

/-! ## Boolean operators and conditionals -/

omit hlevel in
private theorem booleanChain_ranks {operator : Operator} {keyword : TokenKind}
    {operand : Parser Expr} (hoperand : operand.Ranks tokens Expr.node bound) :
    (booleanChain operator keyword operand).Ranks tokens Expr.node (bound + 1) := by
  intro before value after hreads
  obtain ⟨first, middle, hreadsFirst, hrest⟩ := reads_booleanChain.mp hreads
  have hfirst := hoperand hreadsFirst
  split at hrest
  · obtain ⟨others, -, hothers, rfl⟩ := hrest
    have hranks := hoperand.repeats hothers
    exact Expr.rank_le (by simpa using ⟨hfirst, hranks⟩)
  · rw [hrest.1]
    exact Nat.le_succ_of_le hfirst

private theorem andTest_ranks : level.andTest.Ranks tokens Expr.node (bound + 10) :=
  booleanChain_ranks (notTest_ranks hlevel)

/-- The layers of `and` and `or` add one each. -/
theorem orTest_ranks : level.orTest.Ranks tokens Expr.node (bound + 11) :=
  booleanChain_ranks (andTest_ranks hlevel)

/-- A conditional adds one to the rank of its parts. -/
theorem expr_ranks : level.expr.Ranks tokens Expr.node (bound + 12) := by
  intro before value after hreads
  rw [reads_expr] at hreads
  split at hreads
  · exact Nat.le_trans (hlevel.innerLambda hreads) (Nat.le_add_right ..)
  · obtain ⟨consequent, middle, hconsequent, hrest⟩ := hreads
    have hranks := orTest_ranks hlevel hconsequent
    split at hrest
    · obtain ⟨test, last, alternate, htest, -, halternate, rfl⟩ := hrest
      have htested := orTest_ranks hlevel htest
      have hother := Nat.le_trans (hlevel.innerExpr halternate) (Nat.le_add_right bound 11)
      exact Expr.rank_le (by simpa using ⟨htested, hranks, hother⟩)
    · rw [hrest.1]
      exact Nat.le_succ_of_le hranks

/-- A bound name adds one to the rank. -/
theorem namedExpr_ranks : level.namedExpr.Ranks tokens Expr.node (bound + 13) := by
  intro before value after hreads
  rw [reads_namedExpr] at hreads
  split at hreads
  · obtain ⟨value, hvalue, rfl⟩ := hreads
    have hranks := expr_ranks hlevel hvalue
    exact Expr.rank_le (by simpa using ⟨rank_leaf_le, hranks⟩)
  · exact Nat.le_succ_of_le (expr_ranks hlevel hreads)

/-! ## Lists of expressions -/

private theorem starred_ranks : level.starred.Ranks tokens Expr.node (bound + 9) := by
  intro before value after hreads
  obtain ⟨-, starred, hstarred, rfl⟩ := reads_starred.mp hreads
  have hranks := bitwiseOr_ranks hlevel hstarred
  exact Expr.rank_le (by simpa using hranks)

private theorem starredOr_ranks {other : Parser Expr} {greater : Nat} (hle : bound + 9 ≤ greater)
    (hother : other.Ranks tokens Expr.node greater) :
    (level.starredOr other).Ranks tokens Expr.node greater := by
  intro before value after hreads
  rw [reads_starredOr] at hreads
  split at hreads
  · exact Nat.le_trans (starred_ranks hlevel hreads) hle
  · exact hother hreads

theorem starExpr_ranks : level.starExpr.Ranks tokens Expr.node (bound + 12) :=
  starredOr_ranks hlevel (by omega) (expr_ranks hlevel)

theorem starNamedExpr_ranks : level.starNamedExpr.Ranks tokens Expr.node (bound + 13) :=
  starredOr_ranks hlevel (by omega) (namedExpr_ranks hlevel)

omit hlevel in
private theorem tupleOf_ranks {item : Parser Expr} (hitem : item.Ranks tokens Expr.node bound) :
    (tupleOf item).Ranks tokens Expr.node (bound + 1) := by
  intro before value after hreads
  obtain ⟨first, middle, hreadsFirst, hrest⟩ := reads_tupleOf hreads
  have hfirst := hitem hreadsFirst
  split at hrest
  · obtain ⟨others, hothers, rfl⟩ := hrest
    have hranks := hitem.continues hothers
    exact Expr.rank_le (by simpa using ⟨hfirst, hranks⟩)
  · rw [hrest.1]
    exact Nat.le_succ_of_le hfirst

theorem starExprs_ranks : level.starExprs.Ranks tokens Expr.node (bound + 13) :=
  tupleOf_ranks (starExpr_ranks hlevel)

theorem starNamedExprs_ranks : level.starNamedExprs.Ranks tokens Expr.node (bound + 14) :=
  tupleOf_ranks (starNamedExpr_ranks hlevel)

theorem yieldExpr_ranks : level.yieldExpr.Ranks tokens Expr.node (bound + 14) := by
  intro before value after hreads
  obtain ⟨-, hrest⟩ := reads_yieldExpr.mp hreads
  split at hrest
  · obtain ⟨source, hsource, rfl⟩ := hrest
    have hranks := Nat.le_succ_of_le (expr_ranks hlevel hsource)
    exact Expr.rank_le (by simpa using hranks)
  · split at hrest
    · obtain ⟨yielded, hyielded, rfl⟩ := hrest
      have hranks := starExprs_ranks hlevel hyielded
      exact Expr.rank_le (by simpa using hranks)
    · rw [hrest.2]
      exact leaf_rank_le rfl

/-- What may be assigned adds one to the rank of its items. -/
theorem yieldOrStarExprs_ranks : level.yieldOrStarExprs.Ranks tokens Expr.node (bound + 14) := by
  intro before value after hreads
  rw [reads_yieldOrStarExprs] at hreads
  split at hreads
  · exact yieldExpr_ranks hlevel hreads
  · exact Nat.le_succ_of_le (starExprs_ranks hlevel hreads)

/-- A list of targets adds one to the rank of its items. -/
theorem targetList_ranks : level.targetList.Ranks tokens Expr.node (bound + 10) := by
  intro before value after hreads
  have hitem := starredOr_ranks hlevel (Nat.le_refl _) ((bitwiseOr_ranks hlevel).mono (Nat.le_succ _))
  exact tupleOf_ranks hitem (reads_targetList.mp hreads).2

theorem target_ranks : level.target.Ranks tokens Expr.node (bound + 8) := by
  intro before value after hreads
  exact bitwiseOr_ranks hlevel (reads_target.mp hreads).2

end

end Level

end PythonOutline
