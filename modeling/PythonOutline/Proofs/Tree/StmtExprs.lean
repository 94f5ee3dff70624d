import PythonOutline.Proofs.Parser.Ensures
import PythonOutline.Proofs.Tree.Nesting
import PythonOutline.Proofs.Tree.StmtStart

/-! # The expressions of statements

A statement reads its expressions at the outermost level. A property of all that is read there is
one of all expressions of a module that are in no other expression. -/

namespace PythonOutline

open PythonOutline.Expr

/-- The expressions in a type parameter. -/
def TypeParam.parts (param : TypeParam) : List Expr :=
  param.bound.toList ++ param.defaultValue.toList

/-- The expressions in a context of a `with` statement. -/
def WithItem.parts (item : WithItem) : List Expr :=
  item.context :: item.target.toList

/-- The expressions of a form of statement that are in no statement inside it. -/
def StmtForm.exprs : StmtForm → List Expr
  | .annotate target hint value => target :: hint :: value.toList
  | .assert test message => test :: message.toList
  | .assign targets value => targets ++ [value]
  | .augment _ target value => [target, value]
  | .classDef decorators _ typeParams arguments _ =>
    decorators.map Decorator.expression ++ typeParams.flatMap TypeParam.parts ++
      arguments.map Argument.value
  | .delete targets => targets
  | .expression value => [value]
  | .forLoop _ target iterable _ _ => [target, iterable]
  | .functionDef decorators _ _ typeParams params returns _ =>
    decorators.map Decorator.expression ++ typeParams.flatMap TypeParam.parts ++
      params.flatMap Param.parts ++ returns.toList
  | .conditional test _ _ => [test]
  | .matchCases subject cases => subject :: cases.flatMap fun case => case.guard.toList
  | .raise exception cause => exception.toList ++ cause.toList
  | .return value => value.toList
  | .tryBlock _ handlers _ _ _ => handlers.flatMap fun handler => handler.exception.toList
  | .typeAlias _ typeParams value => typeParams.flatMap TypeParam.parts ++ [value]
  | .whileLoop test _ _ => [test]
  | .withBlock _ items _ => items.flatMap WithItem.parts
  | _ => []

attribute [local simp] StmtForm.exprs

namespace Parser

/-- A property that all expressions have which statements read at the outermost level. -/
structure EnsuresExprs (tokens : Tokens) (property : Expr → Prop) : Prop where
  expr : expr.Ensures tokens property
  namedExpr : namedExpr.Ensures tokens property
  starExpr : Level.outermost.starExpr.Ensures tokens property
  starExprs : starExprs.Ensures tokens property
  starNamedExprs : Level.outermost.starNamedExprs.Ensures tokens property
  yieldOrStarExprs : yieldOrStarExprs.Ensures tokens property
  target : Level.outermost.target.Ensures tokens property
  targetList : Level.outermost.targetList.Ensures tokens property
  arguments : Level.outermost.arguments.Ensures tokens
    fun arguments => ∀ argument ∈ arguments, property argument.value
  params : ∀ close typeHints, (Level.outermost.params close typeHints).Ensures tokens
    fun params => ∀ param ∈ params, AllHave property param.parts

variable {tokens : Tokens} {before after : Place} {stmt : Stmt} {block : Parser (List Stmt)}
  {property : Expr → Prop} (hensures : EnsuresExprs tokens property)

include hensures

/-! ## Parts of statements -/

private theorem typeParam_exprs :
    typeParam.Ensures tokens fun param => AllHave property param.parts := by
  intro before param after hreads
  obtain ⟨kind, start, limit, middle, defaultValue, -, -, hreadsLimit, hreadsDefault, rfl⟩ :=
    reads_typeParam hreads
  have hlimit : ∀ value ∈ limit, property value := by
    split at hreadsLimit
    · exact hensures.expr.ifAccepted hreadsLimit
    · rw [hreadsLimit.1]
      simp
  have hdefault := hensures.starExpr.ifAccepted hreadsDefault
  simpa [TypeParam.parts] using ⟨hlimit, hdefault⟩

private theorem typeParams_exprs : typeParams.Ensures tokens
    fun params => ∀ param ∈ params, AllHave property param.parts := by
  intro before params after hreads
  rw [reads_typeParams] at hreads
  split at hreads
  · exact (typeParam_exprs hensures).lists (.of_reads hreads.1)
  · rw [hreads.1]
    exact List.forall_mem_nil _

private theorem decorator_exprs :
    decorator.Ensures tokens fun decorator => property decorator.expression := by
  intro before decorator after hreads
  obtain ⟨-, expression, last, hexpression, -, -, rfl⟩ := reads_decorator.mp hreads
  exact hensures.namedExpr hexpression

private theorem withItem_exprs :
    withItem.Ensures tokens fun item => AllHave property item.parts := by
  intro before item after hreads
  obtain ⟨context, middle, hreadsContext, target, hreadsTarget, rfl⟩ := reads_withItem.mp hreads
  have hcontext := hensures.expr hreadsContext
  have htarget := hensures.target.ifAccepted hreadsTarget
  simpa [WithItem.parts] using ⟨hcontext, htarget⟩

private theorem withItems_exprs : withItems.Ensures tokens
    fun items => ∀ item ∈ items, AllHave property item.parts := by
  intro before items after hreads
  rcases reads_withItems hreads with ⟨-, hgrouped⟩ | ⟨_, -, hitems⟩
  · obtain ⟨_, hitems, -⟩ := reads_groupedWithItems? hgrouped
    exact (withItem_exprs hensures).lists (.of_reads hitems)
  · exact (withItem_exprs hensures).commaSeparated hitems

/-! ## Simple statements -/

/-- All targets of an assignment have the property, and so does its value. -/
theorem Assigns.exprs {value last : Expr} {targets : List Expr}
    (hassigns : Assigns tokens value before targets last after) (hvalue : property value) :
    AllHave property targets ∧ property last := by
  induction hassigns with
  | last => exact ⟨allHave_nil, hvalue⟩
  | assign _ hnext _ ih =>
    obtain ⟨htargets, hlast⟩ := ih (hensures.yieldOrStarExprs hnext)
    exact ⟨allHave_cons.mpr ⟨hvalue, htargets⟩, hlast⟩

private theorem expressionStmt_exprs :
    expressionStmt.Ensures tokens fun stmt => AllHave property stmt.form.exprs := by
  intro before stmt after hreads
  obtain ⟨first, middle, form, hreadsFirst, rfl, hrest⟩ := reads_expressionStmt hreads
  have hfirst := hensures.yieldOrStarExprs hreadsFirst
  split at hrest
  · obtain ⟨-, hint, last, value, hreadsHint, hreadsValue, rfl⟩ := hrest
    have hhint := hensures.expr hreadsHint
    have hvalue := hensures.yieldOrStarExprs.ifAccepted hreadsValue
    simpa using ⟨hfirst, hhint, hvalue⟩
  · split at hrest
    · obtain ⟨-, value, hreadsValue, rfl⟩ := hrest
      have hvalue := hensures.yieldOrStarExprs hreadsValue
      simpa using ⟨hfirst, hvalue⟩
    · split at hrest
      · obtain ⟨targets, value, hassigns, -, rfl⟩ := hrest
        simpa using hassigns.exprs hensures hfirst
      · rw [hrest.1]
        simpa using hfirst

private theorem simpleStmt_exprs :
    simpleStmt.Ensures tokens fun stmt => AllHave property stmt.form.exprs := by
  intro before stmt after hreads
  rw [reads_simpleStmt] at hreads
  split at hreads
  case h_1 =>
    obtain ⟨-, test, middle, hreadsTest, message, hreadsMessage, rfl⟩ := reads_assertStmt.mp hreads
    have htest := hensures.expr hreadsTest
    have hmessage := hensures.expr.ifAccepted hreadsMessage
    simpa using ⟨htest, hmessage⟩
  case h_4 =>
    obtain ⟨-, first, middle, others, hreadsFirst, hreadsOthers, rfl⟩ := reads_deleteStmt hreads
    have hfirst := hensures.target hreadsFirst
    have hothers : AllHave property others := hensures.target.continues hreadsOthers
    simpa using ⟨hfirst, hothers⟩
  case h_5 =>
    obtain ⟨-, _, _, _, _, names, -, -, -, -, rfl⟩ := reads_importFrom hreads
    exact allHave_nil
  case h_7 =>
    obtain ⟨-, names, -, rfl⟩ := reads_importModules.mp hreads
    exact allHave_nil
  case h_10 =>
    obtain ⟨-, hrest⟩ := reads_raiseStmt.mp hreads
    split at hrest
    · obtain ⟨exception, middle, hreadsException, cause, hreadsCause, rfl⟩ := hrest
      have hexception := hensures.expr hreadsException
      have hcause := hensures.expr.ifAccepted hreadsCause
      simpa using ⟨hexception, hcause⟩
    · rw [hrest.2]
      exact allHave_nil
  case h_11 =>
    obtain ⟨-, hrest⟩ := reads_returnStmt.mp hreads
    split at hrest
    · obtain ⟨value, hvalue, rfl⟩ := hrest
      simpa using hensures.starExprs hvalue
    · rw [hrest.2]
      exact allHave_nil
  case h_12 =>
    split at hreads
    · obtain ⟨-, params, middle, hreadsParams, -, value, hreadsValue, rfl⟩ :=
        reads_typeAliasStmt.mp hreads
      have hparams := typeParams_exprs hensures hreadsParams
      have hvalue := hensures.expr hreadsValue
      simpa using ⟨hparams, hvalue⟩
    · exact expressionStmt_exprs hensures hreads
  case h_13 => exact expressionStmt_exprs hensures hreads
  case h_6 | h_8 =>
    obtain ⟨names, -, rfl⟩ := reads_namesStmt.mp hreads
    exact allHave_nil
  all_goals
    obtain ⟨-, rfl⟩ := reads_keywordStmt.mp hreads
    exact allHave_nil

/-! ## Compound statements -/

private theorem ifClause_exprs :
    (ifClause block).Ensures tokens fun clause => property clause.test := by
  intro before clause after hreads
  obtain ⟨-, test, _, htest, body, -, rfl⟩ := reads_ifClause.mp hreads
  exact hensures.namedExpr htest

omit hensures in
/-- All conditions of an `if` statement have the property. -/
theorem Completes.exprs {clause : IfClause}
    (hcompletes : Completes block tokens clause before stmt after) (hclause : property clause.test) :
    AllHave property stmt.form.exprs := by
  cases hcompletes <;> simpa [IfClause.close] using hclause

private theorem handler_exprs : (handler block).Ensures tokens
    fun handled => ∀ exception ∈ handled.1.exception, property exception := by
  rintro before ⟨handled, star⟩ after hreads
  obtain ⟨_, exception, _, _, _, _, -, hexception, -, -, rfl⟩ := reads_handler hreads
  split at hexception
  · rw [hexception.1]
    simp
  · obtain ⟨value, hvalue, rfl⟩ := hexception
    simpa using hensures.expr hvalue

private theorem matchCase_exprs : (matchCase block).Ensures tokens
    fun case => ∀ guard ∈ case.guard, property guard := by
  intro before case after hreads
  obtain ⟨_, _, -, guard, _, hguard, _, -, rfl⟩ := reads_matchCase.mp hreads
  exact hensures.namedExpr.ifAccepted hguard

private theorem definition_exprs : (definition block).Ensures tokens
    fun stmt => AllHave property stmt.form.exprs := by
  intro before stmt after hreads
  obtain ⟨decorators, _, form, hreadsDecorators, rfl, hform⟩ := reads_definition hreads
  have hdecorators := (decorator_exprs hensures).repeats (reads_decorators hreadsDecorators)
  rcases hform with ⟨-, hclass⟩ | ⟨-, hfunction⟩
  · obtain ⟨name, _, params, _, arguments, _, body, -, -, hreadsParams, hreadsArguments, -, rfl⟩ :=
      reads_classDef hclass
    have hparams := typeParams_exprs hensures hreadsParams
    have harguments : ∀ argument ∈ arguments, property argument.value := by
      split at hreadsArguments
      · exact hensures.arguments hreadsArguments
      · rw [hreadsArguments.1]
        exact List.forall_mem_nil _
    simpa using ⟨hdecorators, hparams, harguments⟩
  · obtain ⟨_, _, name, _, params, _, parameters, _, returns, _, body, -, -, -, hreadsParams, -,
      hreadsParameters, hreadsReturns, -, rfl⟩ := reads_functionDef hfunction
    have hparams := typeParams_exprs hensures hreadsParams
    have hparameters := hensures.params _ _ hreadsParameters
    have hreturns := hensures.expr.ifAccepted hreadsReturns
    simpa using ⟨hdecorators, hparams, hparameters, hreturns⟩

private theorem compound_exprs (hcompound : ReadsCompound block tokens before stmt after) :
    AllHave property stmt.form.exprs := by
  cases hcompound with
  | definition _ hreads => exact definition_exprs hensures hreads
  | loop _ hreads =>
    obtain ⟨_, _, target, _, iterable, _, _, _, _, -, -, hreadsTarget, -, hreadsIterable, -, -, rfl⟩ :=
      reads_forStmt hreads
    have htarget : property target := hensures.targetList hreadsTarget
    have hiterable := hensures.starExprs hreadsIterable
    simpa using ⟨htarget, hiterable⟩
  | context _ hreads =>
    obtain ⟨_, _, items, _, _, -, -, hreadsItems, -, rfl⟩ := reads_withStmt hreads
    simpa using withItems_exprs hensures hreadsItems
  | conditional _ hreads =>
    obtain ⟨first, middle, hfirst, hcompletes⟩ := reads_ifStmt hreads
    exact hcompletes.exprs (ifClause_exprs hensures hfirst)
  | attempt _ hreads =>
    obtain ⟨-, _, _, handlers, _, -, hreadsHandlers, _, _, rfl, -⟩ := reads_tryStmt hreads
    have hhandlers := (handler_exprs hensures).repeats hreadsHandlers
    refine allHave_flatMap.mpr fun handled hhandled => ?_
    obtain ⟨pair, hpair, rfl⟩ := List.mem_map.mp hhandled
    simpa using hhandlers pair hpair
  | whileLoop _ hreads =>
    obtain ⟨-, test, _, htest, _, _, -, _, -, rfl⟩ := reads_whileStmt.mp hreads
    simpa using hensures.namedExpr htest
  | cases _ hreads =>
    obtain ⟨subject, _, cases, _, hreadsSubject, hreadsCases, -, -, rfl⟩ :=
      reads_matchStmt?_some hreads
    obtain ⟨_, hmatched, -⟩ := reads_matchSubject?.mp hreadsSubject
    have hsubject : property subject := hensures.starNamedExprs hmatched
    have hcases := (matchCase_exprs hensures).repeats hreadsCases
    simpa using ⟨hsubject, hcases⟩

/-- All expressions of a statement have the property. -/
theorem ReadsStmt.exprs (hreads : ReadsStmt tokens before stmt) :
    AllHave property stmt.form.exprs := by
  cases hreads with
  | simple hreads => exact simpleStmt_exprs hensures hreads
  | compound _ hcompound => exact compound_exprs hensures hcompound
  | elif hclause hcompletes => exact hcompletes.exprs (ifClause_exprs hensures hclause)

end Parser

end PythonOutline
