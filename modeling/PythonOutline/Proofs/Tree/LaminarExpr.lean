import PythonOutline.Proofs.Grammar.Expr
import PythonOutline.Proofs.Tree.Lays

/-! # Operators lay out laminar trees

Every parser of operands, of operators and of lists of expressions lays out a laminar tree over
tokens that are made of text, if the parsers of the next inner level do.
-/

namespace PythonOutline

namespace Operator

variable {kind : TokenKind} {operator : Operator}

/-- A sign is text. -/
theorem isSolid_of_unary? (hunary : unary? kind = some operator) : kind.IsSolid := by
  unfold unary? at hunary
  split at hunary <;> first | contradiction | decide

/-- A binary operator is text. -/
theorem isSolid_of_binary? (hbinary : binary? kind = some operator) : kind.IsSolid := by
  unfold binary? at hbinary
  split at hbinary <;> first | contradiction | decide

/-- An operator of a comparison is text. -/
theorem isSolid_of_comparison? (hcomparison : comparison? kind = some operator) :
    kind.IsSolid := by
  unfold comparison? at hcomparison
  split at hcomparison <;> first | contradiction | decide

/-- An operator of an assignment is text. -/
theorem isSolid_of_augmented? (haugmented : augmented? kind = some operator) : kind.IsSolid := by
  unfold augmented? at haugmented
  split at haugmented <;> first | contradiction | decide

end Operator

@[simp]
theorem Expr.node_span (expr : Expr) : expr.node.span = expr.span := by
  cases expr
  rfl

/-- A parser lays out the expression it reads. -/
def Parser.LaysExpr (parser : Parser Expr) (tokens : Tokens) : Prop :=
  parser.Lays tokens TokenKind.IsSolid fun expr => [expr.node]

/-- An expression with the span of a run of tokens and with children within it. -/
theorem Tokens.Fits.expr {tokens : Tokens} (hordered : tokens.InOrder) {start stop : Nat}
    {form : ExprForm} (hfits : tokens.Fits TokenKind.IsSolid start stop form.children)
    (hlt : start < stop) :
    tokens.Fits TokenKind.IsSolid start stop
      [Expr.node ⟨tokens.spanBetween start stop, form⟩] := by
  rw [Expr.node]
  exact hfits.solid hordered _ hlt

/-- The parsers of a level lay out what they read. -/
structure Level.Lays (level : Level) (tokens : Tokens) : Prop where
  innerLambda : level.innerLambda.LaysExpr tokens
  innerExpr : level.innerExpr.LaysExpr tokens
  innerNotTest : level.innerNotTest.LaysExpr tokens
  innerFactor : level.innerFactor.LaysExpr tokens
  innerArguments : ∀ ⦃before arguments after⦄,
    level.innerArguments.Reads tokens before arguments after →
    tokens.kindAt before = .parenthesisOpen →
    tokens.Fits TokenKind.IsSolid before.next after.next (arguments.map Argument.node)
  innerIndex : ∀ ⦃before index after⦄, level.innerIndex.Reads tokens before index after →
    tokens.kindAt before = .bracketOpen →
    tokens.Fits TokenKind.IsSolid before.next after.next [index.node]
  innerParens : level.innerParens.LaysExpr tokens
  innerBrackets : level.innerBrackets.LaysExpr tokens
  innerBraces : level.innerBraces.LaysExpr tokens

namespace Level

open PythonOutline.Parser

variable {level : Level} {tokens : Tokens}

/-! ## Operands -/

theorem numberLiteral_lays : numberLiteral.LaysExpr tokens := by
  intro before value after hreads
  obtain ⟨hkind, rfl, rfl⟩ := reads_numberLiteral.mp hreads
  exact .leaf _ (show (tokens.kindAt before).IsSolid by rw [hkind]; decide)

private theorem stringLiteral_fits (hordered : tokens.InOrder) {before after : Place} {value : Expr}
    (hreads : stringLiteral.Reads tokens before value after)
    (hkind : tokens.kindAt before = .literalString) :
    tokens.Fits TokenKind.IsSolid before.next after.next [value.node] := by
  obtain ⟨hle, hafter, hall, text, bytes, formatted, rfl⟩ := reads_stringLiteral hreads
  have hlt : before.next < after.next := by
    rcases Nat.eq_or_lt_of_le hle with heq | hlt
    · exact absurd (by rw [Tokens.kindAt, ← heq]; exact hkind) hafter
    · exact hlt
  refine .expr hordered ⟨hle, ?_, by simp [ExprForm.children], by simp [ExprForm.children]⟩ hlt
  intro index hstart hstop
  rw [hall index hstart hstop]
  decide

section

variable (hordered : tokens.InOrder) (hlevel : level.Lays tokens)

include hordered hlevel

/-- An atom is one node, whose span may leave out parentheses around it. -/
theorem atom_lays : level.atom.LaysExpr tokens := by
  intro before value after hreads
  rw [reads_atom] at hreads
  have hleaf : ∀ {kind : TokenKind} {form : ExprForm}, tokens.kindAt before = kind → kind.IsSolid →
      form.children = [] →
      tokens.Fits TokenKind.IsSolid before.next before.step.next
        [Expr.node ⟨(tokens.get before.next).span, form⟩] := by
    intro kind form hkind hsolid hform
    rw [Expr.node, hform]
    exact .leaf _ (show (tokens.kindAt before).IsSolid by rw [hkind]; exact hsolid)
  split at hreads
  case h_6 => exact numberLiteral_lays.look hreads
  case h_7 hkind =>
    have hfits := stringLiteral_fits hordered hreads hkind
    exact hfits
  case h_8 => exact hlevel.innerParens.look hreads
  case h_9 => exact hlevel.innerBrackets.look hreads
  case h_10 => exact hlevel.innerBraces.look hreads
  case h_11 => exact hreads.elim
  all_goals
    rename_i hkind
    obtain ⟨rfl, rfl⟩ := hreads
    exact hleaf hkind (by decide) rfl

/-- What follows an operand is laid out behind it. -/
theorem Extends.fits {start : Nat} {value result : Expr} {before after : Place}
    (hextends : level.Extends tokens start value before result after)
    (hvalue : tokens.Fits TokenKind.IsSolid start before.next [value.node]) :
    tokens.Fits TokenKind.IsSolid start after.next [result.node] := by
  induction hextends with
  | stop => exact hvalue
  | member hdot hname _ ih =>
    have hboth := (hvalue.thenToken hordered hdot (by decide)).thenToken hordered hname (by decide)
    exact ih (.expr hordered hboth (hboth.lt (List.mem_singleton_self _)))
  | call hparen harguments _ ih =>
    have hcalled := hlevel.innerArguments harguments hparen
    have hboth := hvalue.append hordered hcalled
    refine ih (.expr hordered ?_ (hboth.lt (List.mem_cons_self ..)))
    simpa [ExprForm.children] using hboth
  | subscript hbracket hindex _ ih =>
    have hindexed := hlevel.innerIndex hindex hbracket
    have hboth := hvalue.append hordered hindexed
    exact ih (.expr hordered hboth (hboth.lt (List.mem_cons_self ..)))

/-- Calls, attributes and subscripts are nodes around what they extend. -/
theorem primary_lays : level.primary.LaysExpr tokens := by
  intro before value after hreads
  obtain ⟨first, middle, hfirst, hextends⟩ := reads_primary hreads
  exact hextends.fits hordered hlevel (atom_lays hordered hlevel hfirst)

theorem awaited_lays : level.awaited.LaysExpr tokens := by
  intro before value after hreads
  rw [reads_awaited] at hreads
  split at hreads
  · rename_i hkind
    obtain ⟨operand, hoperand, rfl⟩ := hreads
    have hfits := (primary_lays hordered hlevel hoperand).behindToken hordered hkind (by decide)
    exact .expr hordered hfits (hfits.lt (List.mem_singleton_self _))
  · exact (primary_lays hordered hlevel).look hreads

theorem power_lays : level.power.LaysExpr tokens := by
  intro before value after hreads
  obtain ⟨left, middle, hleft, hrest⟩ := reads_power.mp hreads
  have hfirst := awaited_lays hordered hlevel hleft
  split at hrest
  · rename_i hkind
    obtain ⟨right, hright, rfl⟩ := hrest
    have hboth := (hfirst.thenToken hordered hkind (by decide)).append hordered
      (hlevel.innerFactor hright)
    exact .expr hordered hboth (hboth.lt (List.mem_cons_self ..))
  · obtain ⟨rfl, rfl⟩ := hrest
    exact hfirst

/-- A sign is a node around its operand. -/
theorem factor_lays : level.factor.LaysExpr tokens := by
  intro before value after hreads
  rw [reads_factor] at hreads
  split at hreads
  · exact (power_lays hordered hlevel).look hreads
  · rename_i operator hoperator
    obtain ⟨argument, hargument, rfl⟩ := hreads
    have hfits := (hlevel.innerFactor hargument).behindToken hordered rfl
      (Operator.isSolid_of_unary? hoperator)
    exact .expr hordered hfits (hfits.lt (List.mem_singleton_self _))

/-! ## Binary operators and comparisons -/

omit hlevel in
/-- Each operator of a chain is a node around what stands on its left. -/
theorem Applies.fits {precedence count start : Nat} {operand : Parser Expr} {left result : Expr}
    {before after : Place} (hoperand : operand.LaysExpr tokens)
    (happlies : Applies precedence operand tokens count left before result after)
    (hleft : tokens.Fits TokenKind.IsSolid start before.next [left.node]) :
    tokens.Fits TokenKind.IsSolid start after.next [result.node] := by
  induction happlies with
  | stop => exact hleft
  | @apply _ left right _ _ _ _ operator hoperator _ hright _ ih =>
    have hjoin := hleft.join hordered (Operator.isSolid_of_binary? hoperator) (hoperand hright)
      (ExprForm.binary operator left right).tag
    rw [Expr.node_span, Expr.node_span] at hjoin
    exact ih hjoin

omit hlevel in
private theorem leftChain_lays {precedence : Nat} {operand : Parser Expr}
    (hoperand : operand.LaysExpr tokens) : (leftChain precedence operand).LaysExpr tokens := by
  intro before value after hreads
  obtain ⟨first, middle, hfirst, count, -, happlies⟩ := reads_leftChain.mp hreads
  exact happlies.fits hordered hoperand (hoperand hfirst)

/-- A chain of operators is a node around its operands. -/
theorem binary_lays (tiers : Nat) : (level.binary tiers).LaysExpr tokens := by
  induction tiers with
  | zero => exact factor_lays hordered hlevel
  | succ tiers ih => exact leftChain_lays hordered ih

theorem bitwiseOr_lays : level.bitwiseOr.LaysExpr tokens :=
  binary_lays hordered hlevel _

omit hlevel in
private theorem comparisonOperator?_lays :
    comparisonOperator?.Lays tokens TokenKind.IsSolid fun _ => [] := by
  intro before operator after hreads
  rw [reads_comparisonOperator?] at hreads
  split at hreads
  · rename_i hkinds
    obtain ⟨-, rfl⟩ := hreads
    exact (Tokens.Fits.token hkinds.1 (by decide)).thenToken hordered hkinds.2 (by decide)
  · split at hreads
    · rename_i hkinds
      obtain ⟨-, rfl⟩ := hreads
      exact (Tokens.Fits.token hkinds.1 (by decide)).thenToken hordered hkinds.2 (by decide)
    · split at hreads
      · obtain ⟨-, rfl⟩ := hreads
        exact .nil _ _ _
      · rename_i hcomparison
        obtain ⟨-, rfl⟩ := hreads
        exact .token rfl (Operator.isSolid_of_comparison? hcomparison)

/-- The operands of a comparison are nodes behind each other. -/
theorem Compares.fits {before after : Place} {compared : List (Operator × Expr)}
    (hcompares : level.Compares tokens before compared after) :
    tokens.Fits TokenKind.IsSolid before.next after.next
      (compared.map fun comparison => comparison.2.node) := by
  induction hcompares with
  | stop hnone => exact comparisonOperator?_lays hordered hnone
  | compare hoperator hright _ ih =>
    exact ((comparisonOperator?_lays hordered hoperator).append hordered
      (bitwiseOr_lays hordered hlevel hright)).append hordered ih

theorem comparison_lays : level.comparison.LaysExpr tokens := by
  intro before value after hreads
  obtain ⟨left, middle, compared, hleft, -, hcompares, rfl⟩ := reads_comparison.mp hreads
  have hboth := (bitwiseOr_lays hordered hlevel hleft).append hordered
    (hcompares.fits hordered hlevel)
  cases compared with
  | nil => exact hboth
  | cons first others =>
    refine .expr hordered ?_ (hboth.lt (List.mem_cons_self ..))
    simpa [ExprForm.children, Function.comp_def] using hboth

theorem notTest_lays : level.notTest.LaysExpr tokens := by
  intro before value after hreads
  rw [reads_notTest] at hreads
  split at hreads
  · rename_i hkind
    obtain ⟨argument, hargument, rfl⟩ := hreads
    have hfits := (hlevel.innerNotTest hargument).behindToken hordered hkind (by decide)
    exact .expr hordered hfits (hfits.lt (List.mem_singleton_self _))
  · exact (comparison_lays hordered hlevel).look hreads

/-! ## Boolean operators and conditionals -/

omit hlevel in
private theorem booleanChain_lays {operator : Operator} {keyword : TokenKind}
    {operand : Parser Expr} (hsolid : keyword.IsSolid) (hoperand : operand.LaysExpr tokens) :
    (booleanChain operator keyword operand).LaysExpr tokens := by
  intro before value after hreads
  obtain ⟨first, middle, hreadsFirst, hrest⟩ := reads_booleanChain.mp hreads
  have hfirst := hoperand hreadsFirst
  split at hrest
  · obtain ⟨others, -, hothers, rfl⟩ := hrest
    have hfollowing := Lays.repeatsBehind hordered hoperand hsolid hothers
    have hall := hfirst.append hordered hfollowing
    refine .expr hordered ?_ (hall.lt (List.mem_cons_self ..))
    simpa [ExprForm.children] using hall
  · obtain ⟨rfl, rfl⟩ := hrest
    exact hfirst

theorem andTest_lays : level.andTest.LaysExpr tokens :=
  booleanChain_lays hordered (by decide) (notTest_lays hordered hlevel)

theorem orTest_lays : level.orTest.LaysExpr tokens :=
  booleanChain_lays hordered (by decide) (andTest_lays hordered hlevel)

/-- A conditional is a node around its three parts. -/
theorem expr_lays : level.expr.LaysExpr tokens := by
  intro before value after hreads
  rw [reads_expr] at hreads
  split at hreads
  · exact hlevel.innerLambda.look hreads
  · obtain ⟨consequent, middle, hconsequent, hrest⟩ := hreads
    have hfirst := (orTest_lays hordered hlevel).look hconsequent
    split at hrest
    · rename_i hif
      obtain ⟨test, last, alternate, htest, helse, halternate, rfl⟩ := hrest
      have htested := hfirst.append hordered
        ((orTest_lays hordered hlevel htest).behindToken hordered hif (by decide))
      have hall := htested.append hordered
        ((hlevel.innerExpr halternate).behindToken hordered helse (by decide))
      -- The tree has the test in front of the consequent.
      exact .expr hordered (hall.perm (.swap ..)) (hall.lt (List.mem_cons_self ..))
    · obtain ⟨rfl, rfl⟩ := hrest
      exact hfirst

/-- A bound name and its expression are below one node. -/
theorem namedExpr_lays : level.namedExpr.LaysExpr tokens := by
  intro before value after hreads
  rw [reads_namedExpr] at hreads
  split at hreads
  · rename_i hkinds
    obtain ⟨bound, hbound, rfl⟩ := hreads
    have htarget := Tokens.Fits.solid hordered (.token hkinds.1 (by decide)) "named_target"
      (Nat.lt_succ_self before.next)
    have hvalue : tokens.Fits TokenKind.IsSolid (before.next + 2) after.next [bound.node] :=
      expr_lays hordered hlevel hbound
    have hall := (htarget.thenToken hordered hkinds.2 (by decide)).append hordered hvalue
    exact .expr hordered hall (hall.lt (List.mem_cons_self ..))
  · exact (expr_lays hordered hlevel).look hreads

/-! ## Lists of expressions -/

theorem starred_lays : level.starred.LaysExpr tokens := by
  intro before value after hreads
  obtain ⟨hkind, starred, hstarred, rfl⟩ := reads_starred.mp hreads
  have hfits := (bitwiseOr_lays hordered hlevel hstarred).behindToken hordered hkind (by decide)
  exact .expr hordered hfits (hfits.lt (List.mem_singleton_self _))

theorem starredOr_lays {other : Parser Expr} (hother : other.LaysExpr tokens) :
    (level.starredOr other).LaysExpr tokens := by
  intro before value after hreads
  rw [reads_starredOr] at hreads
  split at hreads
  · exact (starred_lays hordered hlevel).look hreads
  · exact hother.look hreads

theorem starExpr_lays : level.starExpr.LaysExpr tokens :=
  starredOr_lays hordered hlevel (expr_lays hordered hlevel)

theorem starNamedExpr_lays : level.starNamedExpr.LaysExpr tokens :=
  starredOr_lays hordered hlevel (namedExpr_lays hordered hlevel)

omit hlevel in
/-- An item with further ones behind commas is laid out as a tuple. -/
theorem tuple_fits {item : Parser Expr} (hitem : item.LaysExpr tokens)
    {starts : TokenKind → Bool} {start : Nat} {middle after : Place} {first : Expr}
    {others : List Expr} (hfirst : tokens.Fits TokenKind.IsSolid start middle.next [first.node])
    (hothers : Continues .comma starts item tokens (middle.look 0) others after) :
    tokens.Fits TokenKind.IsSolid start after.next
      [Expr.node ⟨tokens.spanBetween start after.next, .tuple (first :: others)⟩] := by
  have hfollowing := Lays.continues hordered hitem (by decide) hothers
  have hall := hfirst.append hordered hfollowing
  refine .expr hordered ?_ (hall.lt (List.mem_cons_self ..))
  simpa [ExprForm.children] using hall

omit hlevel in
/-- A tuple is a node around its items. -/
theorem tupleOf_lays {item : Parser Expr} (hitem : item.LaysExpr tokens) :
    (tupleOf item).LaysExpr tokens := by
  intro before value after hreads
  obtain ⟨first, middle, hreadsFirst, hrest⟩ := reads_tupleOf hreads
  have hfirst := hitem hreadsFirst
  split at hrest
  · obtain ⟨others, hothers, rfl⟩ := hrest
    exact tuple_fits hordered hitem hfirst hothers
  · obtain ⟨rfl, rfl⟩ := hrest
    exact hfirst

theorem starExprs_lays : level.starExprs.LaysExpr tokens :=
  tupleOf_lays hordered (starExpr_lays hordered hlevel)

theorem starNamedExprs_lays : level.starNamedExprs.LaysExpr tokens :=
  tupleOf_lays hordered (starNamedExpr_lays hordered hlevel)

theorem yieldExpr_lays : level.yieldExpr.LaysExpr tokens := by
  intro before value after hreads
  obtain ⟨hyield, hrest⟩ := reads_yieldExpr.mp hreads
  split at hrest
  · rename_i hfrom
    obtain ⟨source, hsource, rfl⟩ := hrest
    have hfits := ((expr_lays hordered hlevel hsource).behindToken hordered hfrom
      (by decide)).behindToken hordered hyield (by decide)
    exact .expr hordered hfits (hfits.lt (List.mem_singleton_self _))
  · split at hrest
    · obtain ⟨yielded, hyielded, rfl⟩ := hrest
      have hfits := ((starExprs_lays hordered hlevel).look hyielded).behindToken hordered hyield
        (by decide)
      exact .expr hordered hfits (hfits.lt (List.mem_singleton_self _))
    · obtain ⟨rfl, rfl⟩ := hrest
      exact .expr hordered (.token hyield (by decide)) (Nat.lt_succ_self _)

theorem yieldOrStarExprs_lays : level.yieldOrStarExprs.LaysExpr tokens := by
  intro before value after hreads
  rw [reads_yieldOrStarExprs] at hreads
  split at hreads
  · exact (yieldExpr_lays hordered hlevel).look hreads
  · exact (starExprs_lays hordered hlevel).look hreads

/-- Targets are laid out as the items that they are. -/
theorem targetList_lays : level.targetList.LaysExpr tokens := by
  intro before value after hreads
  exact tupleOf_lays hordered (starredOr_lays hordered hlevel (bitwiseOr_lays hordered hlevel))
    (reads_targetList.mp hreads).2

theorem target_lays : level.target.LaysExpr tokens := by
  intro before value after hreads
  exact bitwiseOr_lays hordered hlevel (reads_target.mp hreads).2

end

end Level

end PythonOutline
