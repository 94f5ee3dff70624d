import PythonOutline.Proofs.Grammar.Param
import PythonOutline.Proofs.Parser.Ensures
import PythonOutline.Proofs.Tree.WellFormed

/-! # Properties that pass from the parts of an expression to the whole

A property of expressions is compositional if it passes from the parts of an expression to the
expression, possibly with one level less for the parts that are nested in it and with a role for the
parts of an index. A level reads expressions that have such a property if what it opens has it: each
layer of its grammar puts together what the layers below it read. -/

namespace PythonOutline

open PythonOutline.Expr PythonOutline.Parser

attribute [local simp] ExprForm.besideParts ExprForm.nestedParts

namespace Expr

/-- A property of expressions at a number of levels and in a role, which passes from the parts of an
expression to the expression. Parts that stand beside it are at as many levels, and parts that are
nested in it at one less. Slices stand in an index only, and a tuple that is an index may have some
among its elements. -/
structure Compositional (property : Nat → Role → Expr → Prop) : Prop where
  form {bound : Nat} {span : Span} {form : ExprForm} (hform : form.WellFormed)
    (hplain : form.isPlain) (hbeside : AllHave (property (bound + 1) .plain) form.besideParts)
    (hnested : AllHave (property bound .plain) form.nestedParts) :
    property (bound + 1) .plain ⟨span, form⟩
  subscript {bound : Nat} {span : Span} {value index : Expr}
    (hvalue : property (bound + 1) .plain value) (hindex : property bound .index index) :
    property (bound + 1) .plain ⟨span, .subscript value index⟩
  slice {bound : Nat} {role : Role} {span : Span} {lower upper step : Option Expr}
    (hrole : role ≠ .plain)
    (hparts : AllHave (property (bound + 1) .plain) (ExprForm.slice lower upper step).besideParts) :
    property (bound + 1) role ⟨span, .slice lower upper step⟩
  index {bound : Nat} {span : Span} {elements : List Expr}
    (helements : AllHave (property (bound + 1) .element) elements) :
    property (bound + 1) .index ⟨span, .tuple elements⟩
  withRole {bound : Nat} {role : Role} {expr : Expr} (hexpr : property bound .plain expr) :
    property bound role expr
  succ {bound : Nat} {expr : Expr} (hexpr : property bound .plain expr) :
    property (bound + 1) .plain expr

variable {property : Nat → Role → Expr → Prop} {bound : Nat} {span : Span} {form : ExprForm}

/-- An expression whose parts all stand beside it has a property at the level that they have it. -/
theorem Compositional.beside (hproperty : Compositional property) (hform : form.WellFormed)
    (hplain : form.isPlain) (hbeside : AllHave (property (bound + 1) .plain) form.besideParts)
    (hnested : form.nestedParts = []) : property (bound + 1) .plain ⟨span, form⟩ :=
  hproperty.form hform hplain hbeside (by rw [hnested]; exact allHave_nil)

/-- An expression whose parts are all nested in it has a property one level above them. -/
theorem Compositional.nested (hproperty : Compositional property) (hform : form.WellFormed)
    (hplain : form.isPlain) (hbeside : form.besideParts = [])
    (hnested : AllHave (property bound .plain) form.nestedParts) :
    property (bound + 1) .plain ⟨span, form⟩ :=
  hproperty.form hform hplain (by rw [hbeside]; exact allHave_nil) hnested

/-- An expression without parts has every compositional property. -/
theorem Compositional.leaf (hproperty : Compositional property) (hform : form.WellFormed)
    (hplain : form.isPlain) (hbeside : form.besideParts = []) (hnested : form.nestedParts = []) :
    property (bound + 1) .plain ⟨span, form⟩ :=
  hproperty.beside hform hplain (by rw [hbeside]; exact allHave_nil) hnested

/-- Both sides of a binary operator stand beside it, unless it is a power. -/
theorem Compositional.binary (hproperty : Compositional property) {kind : TokenKind}
    {operator : Operator} {left right : Expr} (hoperator : Operator.binary? kind = some operator)
    (hleft : property (bound + 1) .plain left) (hright : property (bound + 1) .plain right) :
    property (bound + 1) .plain ⟨span, .binary operator left right⟩ := by
  have hne : operator ≠ .exponentiation := by
    rintro rfl
    cases kind <;> cases hoperator
  refine hproperty.beside trivial rfl ?_ ?_
  · cases operator <;> first | exact absurd rfl hne | simpa using ⟨hleft, hright⟩
  · cases operator <;> first | exact absurd rfl hne | rfl

end Expr

/-- What a level opens has a compositional property at a number of levels. Displays and lambdas are
read with what opens them, which is one level more. -/
structure Level.Composes (level : Level) (tokens : Tokens) (property : Nat → Role → Expr → Prop)
    (bound : Nat) : Prop where
  compositional : Compositional property
  innerLambda : level.innerLambda.Ensures tokens (property (bound + 1) .plain)
  innerExpr : level.innerExpr.Ensures tokens (property bound .plain)
  innerNotTest : level.innerNotTest.Ensures tokens (property bound .plain)
  innerFactor : level.innerFactor.Ensures tokens (property bound .plain)
  innerArguments : level.innerArguments.Ensures tokens fun arguments =>
    Argument.Placed arguments ∧ ∀ argument ∈ arguments, property bound .plain argument.value
  innerIndex : level.innerIndex.Ensures tokens (property bound .index)
  innerParens : level.innerParens.Ensures tokens (property bound .plain)
  innerBrackets : level.innerBrackets.Ensures tokens (property (bound + 1) .plain)
  innerBraces : level.innerBraces.Ensures tokens (property (bound + 1) .plain)

namespace Level

variable {tokens : Tokens} {property : Nat → Role → Expr → Prop} {bound : Nat} {level : Level}
  {before after : Place}

/-! ## Chains of operands -/

section

variable {operand : Parser Expr} (hproperty : Compositional property)
  (hoperand : operand.Ensures tokens (property (bound + 1) .plain))

include hproperty hoperand

private theorem Applies.composes {precedence count : Nat} {left result : Expr}
    (happlies : Applies precedence operand tokens count left before result after)
    (hleft : property (bound + 1) .plain left) : property (bound + 1) .plain result := by
  induction happlies with
  | stop => exact hleft
  | apply hoperator _ hright _ ih => exact ih (hproperty.binary hoperator hleft (hoperand hright))

private theorem leftChain_composes {precedence : Nat} :
    (leftChain precedence operand).Ensures tokens (property (bound + 1) .plain) := by
  intro before value after hreads
  obtain ⟨first, middle, hfirst, count, -, happlies⟩ := reads_leftChain.mp hreads
  exact happlies.composes hproperty hoperand (hoperand hfirst)

/-- A chain is made only where its operator stands behind the first operand, so that another one
follows. -/
theorem booleanChain_composes {operator : Operator} {keyword : TokenKind} :
    (booleanChain operator keyword operand).Ensures tokens (property (bound + 1) .plain) := by
  intro before value after hreads
  obtain ⟨first, middle, hreadsFirst, hrest⟩ := reads_booleanChain.mp hreads
  have hfirst := hoperand hreadsFirst
  split at hrest
  · rename_i hkeyword
    obtain ⟨others, -, hreadsOthers, rfl⟩ := hrest
    have hothers : AllHave (property (bound + 1) .plain) others := hoperand.repeats hreadsOthers
    have hlength : 2 ≤ (first :: others).length := by
      cases hreadsOthers with
      | stop hstop => exact absurd hkeyword (reads_accept_false.mp hstop).1
      | item => simp
    exact hproperty.beside hlength rfl (by simpa using ⟨hfirst, hothers⟩) rfl
  · rw [hrest.1]
    exact hfirst

private theorem tupleOf_composes :
    (tupleOf operand).Ensures tokens (property (bound + 1) .plain) := by
  intro before value after hreads
  obtain ⟨first, middle, hreadsFirst, hrest⟩ := reads_tupleOf hreads
  have hfirst := hoperand hreadsFirst
  split at hrest
  · obtain ⟨others, hreadsOthers, rfl⟩ := hrest
    have hothers : AllHave (property (bound + 1) .plain) others := hoperand.continues hreadsOthers
    exact hproperty.beside trivial rfl (by simpa using ⟨hfirst, hothers⟩) rfl
  · rw [hrest.1]
    exact hfirst

end

section

variable (hlevel : level.Composes tokens property bound)

include hlevel

/-! ## Operands -/

private theorem atom_composes : level.atom.Ensures tokens (property (bound + 1) .plain) := by
  intro before value after hreads
  rw [reads_atom] at hreads
  split at hreads
  case h_6 =>
    obtain ⟨-, -, rfl⟩ := reads_numberLiteral.mp hreads
    exact hlevel.compositional.leaf trivial rfl rfl rfl
  case h_7 =>
    obtain ⟨-, -, -, _, _, _, rfl⟩ := reads_stringLiteral hreads
    exact hlevel.compositional.leaf trivial rfl rfl rfl
  case h_8 => exact hlevel.compositional.succ (hlevel.innerParens hreads)
  case h_9 => exact hlevel.innerBrackets hreads
  case h_10 => exact hlevel.innerBraces hreads
  case h_11 => exact hreads.elim
  all_goals
    obtain ⟨rfl, -⟩ := hreads
    exact hlevel.compositional.leaf trivial rfl rfl rfl

/-- Attributes, calls and subscripts stand beside what they are taken of. -/
theorem Extends.composes {start : Nat} {value result : Expr}
    (hextends : level.Extends tokens start value before result after)
    (hvalue : property (bound + 1) .plain value) : property (bound + 1) .plain result := by
  induction hextends with
  | stop => exact hvalue
  | member _ _ _ ih =>
    exact ih (hlevel.compositional.beside trivial rfl (by simpa using hvalue) rfl)
  | call _ hreads _ ih =>
    obtain ⟨hplaced, harguments⟩ := hlevel.innerArguments hreads
    exact ih (hlevel.compositional.form hplaced rfl (by simpa using hvalue)
      (by simpa using harguments))
  | subscript _ hreads _ ih =>
    exact ih (hlevel.compositional.subscript hvalue (hlevel.innerIndex hreads))

private theorem primary_composes : level.primary.Ensures tokens (property (bound + 1) .plain) := by
  intro before value after hreads
  obtain ⟨first, middle, hfirst, hextends⟩ := reads_primary hreads
  exact hextends.composes hlevel (atom_composes hlevel hfirst)

private theorem awaited_composes : level.awaited.Ensures tokens (property (bound + 1) .plain) := by
  intro before value after hreads
  rw [reads_awaited] at hreads
  split at hreads
  · obtain ⟨operand, hreadsOperand, rfl⟩ := hreads
    have hoperand := primary_composes hlevel hreadsOperand
    exact hlevel.compositional.beside trivial rfl (by simpa using hoperand) rfl
  · exact primary_composes hlevel hreads

private theorem power_composes : level.power.Ensures tokens (property (bound + 1) .plain) := by
  intro before value after hreads
  obtain ⟨left, middle, hreadsLeft, hrest⟩ := reads_power.mp hreads
  have hleft := awaited_composes hlevel hreadsLeft
  split at hrest
  · obtain ⟨right, hreadsRight, rfl⟩ := hrest
    have hright := hlevel.innerFactor hreadsRight
    exact hlevel.compositional.form trivial rfl (by simpa using hleft) (by simpa using hright)
  · rw [hrest.1]
    exact hleft

/-- A sign opens a level, and its operand has the property one level deeper. -/
theorem factor_composes : level.factor.Ensures tokens (property (bound + 1) .plain) := by
  intro before value after hreads
  rw [reads_factor] at hreads
  split at hreads
  · exact power_composes hlevel hreads
  · obtain ⟨argument, hreadsArgument, rfl⟩ := hreads
    have hargument := hlevel.innerFactor hreadsArgument
    exact hlevel.compositional.nested trivial rfl rfl (by simpa using hargument)

/-! ## Operators and conditionals -/

private theorem binary_composes (tiers : Nat) :
    (level.binary tiers).Ensures tokens (property (bound + 1) .plain) := by
  induction tiers with
  | zero => exact factor_composes hlevel
  | succ tiers ih => exact leftChain_composes hlevel.compositional ih

/-- A chain of binary operators opens no level. -/
theorem bitwiseOr_composes : level.bitwiseOr.Ensures tokens (property (bound + 1) .plain) :=
  binary_composes hlevel _

private theorem Compares.composes {compared : List (Operator × Expr)}
    (hcompares : level.Compares tokens before compared after) :
    AllHave (property (bound + 1) .plain) (compared.map Prod.snd) := by
  induction hcompares with
  | stop => exact allHave_nil
  | compare _ hright _ ih => exact allHave_cons.mpr ⟨bitwiseOr_composes hlevel hright, ih⟩

/-- Operators and operands are kept in pairs until a comparison is made of them. -/
theorem comparison_composes : level.comparison.Ensures tokens (property (bound + 1) .plain) := by
  intro before value after hreads
  obtain ⟨left, middle, compared, hreadsLeft, -, hcompares, rfl⟩ := reads_comparison.mp hreads
  have hleft := bitwiseOr_composes hlevel hreadsLeft
  have hothers := hcompares.composes hlevel
  split
  · exact hleft
  · rename_i hsome
    have hpaired :
        (ExprForm.compare left (compared.map Prod.fst) (compared.map Prod.snd)).WellFormed :=
      ⟨by simpa using hsome, by simp⟩
    exact hlevel.compositional.beside hpaired rfl (allHave_cons.mpr ⟨hleft, hothers⟩) rfl

/-- A negation opens a level. -/
theorem notTest_composes : level.notTest.Ensures tokens (property (bound + 1) .plain) := by
  intro before value after hreads
  rw [reads_notTest] at hreads
  split at hreads
  · obtain ⟨argument, hreadsArgument, rfl⟩ := hreads
    have hargument := hlevel.innerNotTest hreadsArgument
    exact hlevel.compositional.nested trivial rfl rfl (by simpa using hargument)
  · exact comparison_composes hlevel hreads

private theorem andTest_composes : level.andTest.Ensures tokens (property (bound + 1) .plain) :=
  booleanChain_composes hlevel.compositional (notTest_composes hlevel)

/-- A chain of `and` or `or` opens no level. -/
theorem orTest_composes : level.orTest.Ensures tokens (property (bound + 1) .plain) :=
  booleanChain_composes hlevel.compositional (andTest_composes hlevel)

/-- An expression opens a level as a lambda or behind `else`. -/
theorem expr_composes : level.expr.Ensures tokens (property (bound + 1) .plain) := by
  intro before value after hreads
  rw [reads_expr] at hreads
  split at hreads
  · exact hlevel.innerLambda hreads
  · obtain ⟨consequent, middle, hreadsConsequent, hrest⟩ := hreads
    have hconsequent := orTest_composes hlevel hreadsConsequent
    split at hrest
    · obtain ⟨test, last, alternate, hreadsTest, -, hreadsAlternate, rfl⟩ := hrest
      have htest := orTest_composes hlevel hreadsTest
      have halternate := hlevel.innerExpr hreadsAlternate
      exact hlevel.compositional.form trivial rfl (by simpa using ⟨htest, hconsequent⟩)
        (by simpa using halternate)
    · rw [hrest.1]
      exact hconsequent

/-- What is bound by `:=` is in the level of its expression. -/
theorem namedExpr_composes : level.namedExpr.Ensures tokens (property (bound + 1) .plain) := by
  intro before value after hreads
  rw [reads_namedExpr] at hreads
  split at hreads
  · obtain ⟨value, hreadsValue, rfl⟩ := hreads
    have hvalue := expr_composes hlevel hreadsValue
    exact hlevel.compositional.beside trivial rfl (by simpa using hvalue) rfl
  · exact expr_composes hlevel hreads

/-! ## Lists of expressions -/

private theorem starred_composes : level.starred.Ensures tokens (property (bound + 1) .plain) := by
  intro before value after hreads
  obtain ⟨-, starred, hreadsStarred, rfl⟩ := reads_starred.mp hreads
  have hstarred := bitwiseOr_composes hlevel hreadsStarred
  exact hlevel.compositional.beside trivial rfl (by simpa using hstarred) rfl

private theorem starredOr_composes {other : Parser Expr}
    (hother : other.Ensures tokens (property (bound + 1) .plain)) :
    (level.starredOr other).Ensures tokens (property (bound + 1) .plain) := by
  intro before value after hreads
  rw [reads_starredOr] at hreads
  split at hreads
  · exact starred_composes hlevel hreads
  · exact hother hreads

theorem starExpr_composes : level.starExpr.Ensures tokens (property (bound + 1) .plain) :=
  starredOr_composes hlevel (expr_composes hlevel)

theorem starNamedExpr_composes : level.starNamedExpr.Ensures tokens (property (bound + 1) .plain) :=
  starredOr_composes hlevel (namedExpr_composes hlevel)

theorem starExprs_composes : level.starExprs.Ensures tokens (property (bound + 1) .plain) :=
  tupleOf_composes hlevel.compositional (starExpr_composes hlevel)

theorem starNamedExprs_composes :
    level.starNamedExprs.Ensures tokens (property (bound + 1) .plain) :=
  tupleOf_composes hlevel.compositional (starNamedExpr_composes hlevel)

theorem yieldExpr_composes : level.yieldExpr.Ensures tokens (property (bound + 1) .plain) := by
  intro before value after hreads
  obtain ⟨-, hrest⟩ := reads_yieldExpr.mp hreads
  split at hrest
  · obtain ⟨source, hreadsSource, rfl⟩ := hrest
    have hsource := expr_composes hlevel hreadsSource
    exact hlevel.compositional.beside trivial rfl (by simpa using hsource) rfl
  · split at hrest
    · obtain ⟨yielded, hreadsYielded, rfl⟩ := hrest
      have hyielded := starExprs_composes hlevel hreadsYielded
      exact hlevel.compositional.beside trivial rfl (by simpa using hyielded) rfl
    · rw [hrest.2]
      exact hlevel.compositional.leaf trivial rfl rfl rfl

/-- What may be assigned is in the level of its expressions. -/
theorem yieldOrStarExprs_composes :
    level.yieldOrStarExprs.Ensures tokens (property (bound + 1) .plain) := by
  intro before value after hreads
  rw [reads_yieldOrStarExprs] at hreads
  split at hreads
  · exact yieldExpr_composes hlevel hreads
  · exact starExprs_composes hlevel hreads

/-! ## Targets -/

/-- Targets are in the level of their items. -/
theorem targetList_composes : level.targetList.Ensures tokens (property (bound + 1) .plain) := by
  intro before value after hreads
  exact tupleOf_composes hlevel.compositional
    (starredOr_composes hlevel (bitwiseOr_composes hlevel)) (reads_targetList.mp hreads).2

/-- A target is in the level of its operand. -/
theorem target_composes : level.target.Ensures tokens (property (bound + 1) .plain) := by
  intro before value after hreads
  exact bitwiseOr_composes hlevel (reads_target.mp hreads).2

end

/-- What is read as a list of targets can be assigned to. -/
theorem targetList_assignable : level.targetList.Ensures tokens IsAssignable := by
  intro before value after hreads
  exact isTarget_iff.mp (reads_targetList.mp hreads).1

/-- What is read as a target can be assigned to. -/
theorem target_assignable : level.target.Ensures tokens IsAssignable := by
  intro before value after hreads
  exact isTarget_iff.mp (reads_target.mp hreads).1

end Level

end PythonOutline
