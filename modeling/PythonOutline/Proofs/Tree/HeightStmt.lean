import PythonOutline.Proofs.Grammar.Module
import PythonOutline.Proofs.Operator.RoundTrip
import PythonOutline.Proofs.Tree.HeightDisplay

/-! # The rank of modules

A compound statement ranks a constant more than the statements in its blocks, and blocks nest no
deeper than the indentation of the source. A chain of `elif`s does not count, so one constant bounds
the rank of every module. None bounds the height, as a sum may be as long as the source.
-/

namespace PythonOutline

open Node

attribute [local simp] StmtForm.children

/-- A statement ranks one more than its parts at most. -/
theorem Stmt.rank_le {bound : Nat} {span : Span} {form : StmtForm}
    (hranks : RankAtMost bound form.children) : (Stmt.node ⟨span, form⟩).rank ≤ bound + 1 :=
  Node.rank_le hranks

namespace Parser

variable {tokens : Tokens} {before after : Place} {stmt : Stmt}

/-- A rank that no part of a simple statement exceeds. -/
def maxPartRank : Nat :=
  Level.maxRank + 15

/-- What a level reads keeps to the bound on the parts of statements. -/
theorem Ranks.parts {α : Type} {parser : Parser α} {node : α → Node} {more : Nat}
    (hranks : parser.Ranks tokens node (Level.maxRank + more)) (hle : more ≤ 15) :
    parser.Ranks tokens node maxPartRank :=
  hranks.mono (Nat.add_le_add_left hle _)

theorem expr_ranks : expr.Ranks tokens Expr.node maxPartRank :=
  (Level.expr_ranks Level.outermost_ranks).parts (by decide)

theorem namedExpr_ranks : namedExpr.Ranks tokens Expr.node maxPartRank :=
  (Level.namedExpr_ranks Level.outermost_ranks).parts (by decide)

theorem starExprs_ranks : starExprs.Ranks tokens Expr.node maxPartRank :=
  (Level.starExprs_ranks Level.outermost_ranks).parts (by decide)

theorem yieldOrStarExprs_ranks : yieldOrStarExprs.Ranks tokens Expr.node maxPartRank :=
  (Level.yieldOrStarExprs_ranks Level.outermost_ranks).parts (by decide)

theorem target_ranks : Level.outermost.target.Ranks tokens Expr.node maxPartRank :=
  (Level.target_ranks Level.outermost_ranks).parts (by decide)

/-! ## Parts of statements -/

private theorem typeParam_ranks : typeParam.Ranks tokens TypeParam.node maxPartRank := by
  intro before param after hreads
  obtain ⟨kind, start, limit, middle, defaultValue, -, -, hreadsLimit, hreadsDefault, rfl⟩ :=
    reads_typeParam hreads
  have hlimit : RankAtMost (Level.maxRank + 12) (limit.toList.map Expr.node) := by
    split at hreadsLimit
    · exact (Level.expr_ranks Level.outermost_ranks).ifAccepted hreadsLimit
    · rw [hreadsLimit.1]
      exact rankAtMost_nil
  have hdefault := (Level.starExpr_ranks Level.outermost_ranks).ifAccepted hreadsDefault
  refine Nat.le_trans (Node.rank_le ?_) (by decide : Level.maxRank + 12 + 1 ≤ maxPartRank)
  simpa using ⟨hlimit, hdefault⟩

private theorem typeParams_rank_le {params : List TypeParam}
    (hreads : typeParams.Reads tokens before params after) :
    RankAtMost maxPartRank (params.map TypeParam.node) := by
  rw [reads_typeParams] at hreads
  split at hreads
  · exact typeParam_ranks.lists (.of_reads hreads.1)
  · rw [hreads.1]
    exact rankAtMost_nil

private theorem decorator_ranks : decorator.Ranks tokens Decorator.node maxPartRank := by
  intro before decorator after hreads
  obtain ⟨-, expression, last, hexpression, -, -, rfl⟩ := reads_decorator.mp hreads
  have hranks := Level.namedExpr_ranks Level.outermost_ranks hexpression
  refine Nat.le_trans (Node.rank_le ?_) (by decide : Level.maxRank + 13 + 1 ≤ maxPartRank)
  simpa using hranks

private theorem withItem_ranks : withItem.Ranks tokens WithItem.node maxPartRank := by
  intro before item after hreads
  obtain ⟨context, middle, hcontext, target, htarget, rfl⟩ := reads_withItem.mp hreads
  have hranks := Level.expr_ranks Level.outermost_ranks hcontext
  have htargeted := ((Level.target_ranks Level.outermost_ranks).mono
    (by omega : _ ≤ Level.maxRank + 12)).ifAccepted htarget
  refine Nat.le_trans (Node.rank_le ?_) (by decide : Level.maxRank + 12 + 1 ≤ maxPartRank)
  simpa using ⟨hranks, htargeted⟩

private theorem withItems_rank_le {items : List WithItem}
    (hreads : withItems.Reads tokens before items after) :
    RankAtMost maxPartRank (items.map WithItem.node) := by
  rcases reads_withItems hreads with ⟨-, hgrouped⟩ | ⟨_, -, hitems⟩
  · obtain ⟨_, hitems, -⟩ := reads_groupedWithItems? hgrouped
    exact withItem_ranks.lists (.of_reads hitems)
  · exact withItem_ranks.commaSeparated hitems

/-! ## Simple statements -/

private theorem importAliases_rank_le (names : List ImportAlias) :
    RankAtMost maxPartRank (names.map ImportAlias.node) := by
  intro node hnode
  obtain ⟨name, -, rfl⟩ := List.mem_map.mp hnode
  exact rank_leaf_le

/-- All targets of an assignment keep to the bound, and so does its value. -/
theorem Assigns.rank_le {value last : Expr} {targets : List Expr}
    (hassigns : Assigns tokens value before targets last after)
    (hvalue : value.node.rank ≤ maxPartRank) :
    RankAtMost maxPartRank (targets.map Expr.node) ∧ last.node.rank ≤ maxPartRank := by
  induction hassigns with
  | last => exact ⟨rankAtMost_nil, hvalue⟩
  | assign _ hnext _ ih =>
    obtain ⟨htargets, hlast⟩ := ih (yieldOrStarExprs_ranks hnext)
    exact ⟨rankAtMost_cons.mpr ⟨hvalue, htargets⟩, hlast⟩

private theorem expressionStmt_ranks : expressionStmt.Ranks tokens Stmt.node (maxPartRank + 1) := by
  intro before stmt after hreads
  obtain ⟨first, middle, form, hreadsFirst, rfl, hrest⟩ := reads_expressionStmt hreads
  have hfirst := yieldOrStarExprs_ranks hreadsFirst
  refine Stmt.rank_le ?_
  split at hrest
  · obtain ⟨-, hint, last, value, hreadsHint, hreadsValue, rfl⟩ := hrest
    have hhint := expr_ranks hreadsHint
    have hvalue := yieldOrStarExprs_ranks.ifAccepted hreadsValue
    simpa using ⟨hfirst, hhint, hvalue⟩
  · split at hrest
    · obtain ⟨-, value, hreadsValue, rfl⟩ := hrest
      have hvalue := yieldOrStarExprs_ranks hreadsValue
      simpa using ⟨hfirst, hvalue⟩
    · split at hrest
      · obtain ⟨targets, value, hassigns, -, rfl⟩ := hrest
        obtain ⟨htargets, hvalue⟩ := hassigns.rank_le hfirst
        simpa using ⟨htargets, hvalue⟩
      · rw [hrest.1]
        simpa using hfirst

private theorem simpleStmt_ranks : simpleStmt.Ranks tokens Stmt.node (maxPartRank + 1) := by
  intro before stmt after hreads
  rw [reads_simpleStmt] at hreads
  split at hreads
  case h_1 =>
    obtain ⟨-, test, middle, hreadsTest, message, hreadsMessage, rfl⟩ := reads_assertStmt.mp hreads
    have htest := expr_ranks hreadsTest
    have hmessage := expr_ranks.ifAccepted hreadsMessage
    exact Stmt.rank_le (by simpa using ⟨htest, hmessage⟩)
  case h_4 =>
    obtain ⟨-, first, middle, others, hreadsFirst, hreadsOthers, rfl⟩ := reads_deleteStmt hreads
    have hfirst := target_ranks hreadsFirst
    have hothers := target_ranks.continues hreadsOthers
    exact Stmt.rank_le (by simpa using ⟨hfirst, hothers⟩)
  case h_5 =>
    obtain ⟨-, _, _, _, _, names, -, -, -, -, rfl⟩ := reads_importFrom hreads
    cases names with
    | all => exact Stmt.rank_le rankAtMost_nil
    | specific names => exact Stmt.rank_le (importAliases_rank_le names)
  case h_7 =>
    obtain ⟨-, names, -, rfl⟩ := reads_importModules.mp hreads
    exact Stmt.rank_le (importAliases_rank_le names)
  case h_10 =>
    obtain ⟨-, hrest⟩ := reads_raiseStmt.mp hreads
    split at hrest
    · obtain ⟨exception, middle, hreadsException, cause, hreadsCause, rfl⟩ := hrest
      have hexception := expr_ranks hreadsException
      have hcause := expr_ranks.ifAccepted hreadsCause
      exact Stmt.rank_le (by simpa using ⟨hexception, hcause⟩)
    · rw [hrest.2]
      exact Stmt.rank_le rankAtMost_nil
  case h_11 =>
    obtain ⟨-, hrest⟩ := reads_returnStmt.mp hreads
    split at hrest
    · obtain ⟨value, hvalue, rfl⟩ := hrest
      have hranks := starExprs_ranks hvalue
      exact Stmt.rank_le (by simpa using hranks)
    · rw [hrest.2]
      exact Stmt.rank_le rankAtMost_nil
  case h_12 =>
    split at hreads
    · obtain ⟨-, params, middle, hreadsParams, -, value, hreadsValue, rfl⟩ :=
        reads_typeAliasStmt.mp hreads
      have hparams := typeParams_rank_le hreadsParams
      have hvalue := expr_ranks hreadsValue
      exact Stmt.rank_le (by simpa using ⟨hparams, hvalue⟩)
    · exact expressionStmt_ranks hreads
  case h_13 => exact expressionStmt_ranks hreads
  case h_6 | h_8 =>
    obtain ⟨names, -, rfl⟩ := reads_namesStmt.mp hreads
    exact Stmt.rank_le rankAtMost_nil
  all_goals
    obtain ⟨-, rfl⟩ := reads_keywordStmt.mp hreads
    exact Stmt.rank_le rankAtMost_nil

/-- The statements that a parser reads have at most a rank. -/
def RanksStmts (parser : Parser (List Stmt)) (tokens : Tokens) (bound : Nat) : Prop :=
  ∀ ⦃before stmts after⦄, parser.Reads tokens before stmts after →
    RankAtMost bound (stmts.map Stmt.node)

private theorem simpleStmts_ranks : simpleStmts.RanksStmts tokens (maxPartRank + 1) := by
  intro before stmts after hreads
  obtain ⟨first, _, others, _, hfirst, hothers, -, -, rfl⟩ := reads_simpleStmts hreads
  exact rankAtMost_cons.mpr ⟨simpleStmt_ranks hfirst, simpleStmt_ranks.continues hothers⟩

/-! ## Compound statements -/

section

variable {block : Parser (List Stmt)} {bound : Nat} (hle : maxPartRank ≤ bound)
  (hblock : block.RanksStmts tokens bound)

include hblock

private theorem elseBlock_ranks : (elseBlock block).RanksStmts tokens bound := by
  intro before stmts after hreads
  rw [reads_elseBlock] at hreads
  split at hreads
  · exact hblock hreads
  · rw [hreads.1]
    exact rankAtMost_nil

include hle

/-- A clause whose test and body have at most a rank. -/
theorem ifClause_rank_le {clause : IfClause}
    (hreads : (ifClause block).Reads tokens before clause after) :
    clause.test.node.rank ≤ bound ∧ RankAtMost bound (clause.body.map Stmt.node) := by
  obtain ⟨-, test, _, htest, body, hbody, rfl⟩ := reads_ifClause.mp hreads
  exact ⟨Nat.le_trans (namedExpr_ranks htest) hle, hblock hbody⟩

/-- However many clauses a conditional has, they rank no more than one. -/
theorem Completes.rank_le {clause : IfClause}
    (hcompletes : Completes block tokens clause before stmt after)
    (hclause : clause.test.node.rank ≤ bound ∧ RankAtMost bound (clause.body.map Stmt.node)) :
    stmt.node.rank ≤ bound + 1 ∧ stmt.node.kind = "If" := by
  induction hcompletes with
  | last _ helse =>
    have horElse := elseBlock_ranks hblock helse
    refine ⟨Stmt.rank_le ?_, rfl⟩
    simpa using ⟨hclause.1, hclause.2, horElse⟩
  | @elif clause _ _ _ _ inner _ hnext _ ih =>
    obtain ⟨hranks, hkind⟩ := ih (ifClause_rank_le hle hblock hnext)
    refine ⟨?_, rfl⟩
    have hchildren : (StmtForm.conditional clause.test clause.body [inner]).children =
        clause.test.node :: (clause.body.map Stmt.node ++ [inner.node]) := by
      simp
    rw [IfClause.close, Stmt.node, hchildren]
    exact rank_le_of_elif hclause.1 hclause.2 hkind hranks

private theorem ifStmt_ranks : (ifStmt block).Ranks tokens Stmt.node (bound + 1) := by
  intro before stmt after hreads
  obtain ⟨first, middle, hfirst, hcompletes⟩ := reads_ifStmt hreads
  exact (hcompletes.rank_le hle hblock (ifClause_rank_le hle hblock hfirst)).1

private theorem whileStmt_ranks : (whileStmt block).Ranks tokens Stmt.node (bound + 1) := by
  intro before stmt after hreads
  obtain ⟨-, test, _, hreadsTest, body, _, hreadsBody, orElse, hreadsElse, rfl⟩ :=
    reads_whileStmt.mp hreads
  have htest := Nat.le_trans (namedExpr_ranks hreadsTest) hle
  have hbody := hblock hreadsBody
  have horElse := elseBlock_ranks hblock hreadsElse
  exact Stmt.rank_le (by simpa using ⟨htest, hbody, horElse⟩)

private theorem forStmt_ranks : (forStmt block).Ranks tokens Stmt.node (bound + 1) := by
  intro before stmt after hreads
  obtain ⟨_, _, target, _, iterable, _, body, _, orElse, -, -, hreadsTarget, -, hreadsIterable,
    hreadsBody, hreadsElse, rfl⟩ := reads_forStmt hreads
  have htarget := Nat.le_trans ((Level.targetList_ranks Level.outermost_ranks).parts (by decide)
    hreadsTarget) hle
  have hiterable := Nat.le_trans (starExprs_ranks hreadsIterable) hle
  have hbody := hblock hreadsBody
  have horElse := elseBlock_ranks hblock hreadsElse
  exact Stmt.rank_le (by simpa using ⟨htarget, hiterable, hbody, horElse⟩)

private theorem handler_ranks {handled : Handler} {star : Bool}
    (hreads : (handler block).Reads tokens before (handled, star) after) :
    handled.node.rank ≤ bound + 1 := by
  obtain ⟨_, exception, _, _, _, body, -, hreadsException, -, hreadsBody, rfl⟩ :=
    reads_handler hreads
  have hexception : RankAtMost bound (exception.toList.map Expr.node) := by
    split at hreadsException
    · rw [hreadsException.1]
      exact rankAtMost_nil
    · obtain ⟨value, hvalue, rfl⟩ := hreadsException
      simpa using Nat.le_trans (expr_ranks hvalue) hle
  have hbody := hblock hreadsBody
  exact Node.rank_le (by simpa using ⟨hexception, hbody⟩)

private theorem tryStmt_ranks : (tryStmt block).Ranks tokens Stmt.node (bound + 2) := by
  intro before stmt after hreads
  obtain ⟨-, body, _, handlers, _, hreadsBody, hreadsHandlers, orElse, finalBody, rfl, hrest⟩ :=
    reads_tryStmt hreads
  have hbody := (hblock hreadsBody).mono (Nat.le_succ bound)
  have hhandler : (handler block).Ranks tokens (fun handled => handled.1.node) (bound + 1) :=
    fun _ _ _ hhandled => handler_ranks hle hblock hhandled
  have hhandlers := hhandler.repeats hreadsHandlers
  have hothers : RankAtMost bound (orElse.map Stmt.node) ∧
      RankAtMost bound (finalBody.map Stmt.node) := by
    split at hrest
    · obtain ⟨-, rfl, hfinal⟩ := hrest
      exact ⟨rankAtMost_nil, hblock hfinal⟩
    · obtain ⟨_, helse, hrest⟩ := hrest
      refine ⟨elseBlock_ranks hblock helse, ?_⟩
      split at hrest
      · exact hblock hrest
      · rw [hrest.1]
        exact rankAtMost_nil
  have horElse := hothers.1.mono (Nat.le_succ bound)
  have hfinal := hothers.2.mono (Nat.le_succ bound)
  refine Stmt.rank_le ?_
  simpa [Function.comp_def] using ⟨hbody, hhandlers, horElse, hfinal⟩

private theorem withStmt_ranks : (withStmt block).Ranks tokens Stmt.node (bound + 1) := by
  intro before stmt after hreads
  obtain ⟨_, _, items, _, body, -, -, hreadsItems, hreadsBody, rfl⟩ := reads_withStmt hreads
  have hitems := (withItems_rank_le hreadsItems).mono hle
  have hbody := hblock hreadsBody
  exact Stmt.rank_le (by simpa using ⟨hitems, hbody⟩)

private theorem matchCase_ranks : (matchCase block).Ranks tokens MatchCase.node (bound + 1) := by
  intro before case after hreads
  obtain ⟨_, _, -, guard, _, hreadsGuard, body, hreadsBody, rfl⟩ := reads_matchCase.mp hreads
  have hguard := (namedExpr_ranks.ifAccepted hreadsGuard).mono hle
  have hbody := hblock hreadsBody
  exact Node.rank_le (by simpa using ⟨hguard, hbody⟩)

private theorem matchStmt?_rank_le
    (hreads : (matchStmt? block).Reads tokens before (some stmt) after) :
    stmt.node.rank ≤ bound + 2 := by
  obtain ⟨subject, _, cases, _, hreadsSubject, hreadsCases, -, -, rfl⟩ := reads_matchStmt?_some hreads
  obtain ⟨_, hmatched, -⟩ := reads_matchSubject?.mp hreadsSubject
  have hsubject := Nat.le_trans ((Level.starNamedExprs_ranks Level.outermost_ranks).parts (by decide)
    hmatched) (Nat.le_succ_of_le hle)
  have hcases := (matchCase_ranks hle hblock).repeats hreadsCases
  exact Stmt.rank_le (by simpa using ⟨hsubject, hcases⟩)

private theorem definition_ranks : (definition block).Ranks tokens Stmt.node (bound + 1) := by
  intro before stmt after hreads
  obtain ⟨decorators, _, form, hreadsDecorators, rfl, hform⟩ := reads_definition hreads
  have hdecorators := (decorator_ranks.repeats (reads_decorators hreadsDecorators)).mono hle
  have hname : ∀ name : Name, name.node.rank ≤ bound :=
    fun _ => Nat.le_trans rank_leaf_le hle
  refine Stmt.rank_le ?_
  rcases hform with ⟨-, hclass⟩ | ⟨-, hfunction⟩
  · obtain ⟨name, _, params, _, arguments, _, body, -, -, hreadsParams, hreadsArguments, hreadsBody,
      rfl⟩ := reads_classDef hclass
    have hparams := (typeParams_rank_le hreadsParams).mono hle
    have hbody := hblock hreadsBody
    have harguments : RankAtMost bound (arguments.map Argument.node) := by
      split at hreadsArguments
      · exact (Level.arguments_rank_le Level.outermost_ranks hreadsArguments).mono hle
      · rw [hreadsArguments.1]
        exact rankAtMost_nil
    simpa using ⟨hdecorators, hname _, hparams, harguments, hbody⟩
  · obtain ⟨_, _, name, _, params, _, parameters, _, returns, _, body, -, -, -, hreadsParams, -,
      hreadsParameters, hreadsReturns, hreadsBody, rfl⟩ := reads_functionDef hfunction
    have hparams := (typeParams_rank_le hreadsParams).mono hle
    have hparameters := (Level.params_rank_le Level.outermost_ranks hreadsParameters).mono
      (Nat.le_trans (by decide : _ ≤ maxPartRank) hle)
    have hreturns := (expr_ranks.ifAccepted hreadsReturns).mono hle
    have hbody := hblock hreadsBody
    simpa using ⟨hdecorators, hname _, hparams, hparameters, hreturns, hbody⟩

private theorem compound_rank_le (hcompound : ReadsCompound block tokens before stmt after) :
    stmt.node.rank ≤ bound + 2 := by
  cases hcompound with
  | definition _ hreads => exact Nat.le_succ_of_le (definition_ranks hle hblock hreads)
  | loop _ hreads => exact Nat.le_succ_of_le (forStmt_ranks hle hblock hreads)
  | context _ hreads => exact Nat.le_succ_of_le (withStmt_ranks hle hblock hreads)
  | conditional _ hreads => exact Nat.le_succ_of_le (ifStmt_ranks hle hblock hreads)
  | attempt _ hreads => exact tryStmt_ranks hle hblock hreads
  | whileLoop _ hreads => exact Nat.le_succ_of_le (whileStmt_ranks hle hblock hreads)
  | cases _ hreads => exact matchStmt?_rank_le hle hblock hreads

/-! ## Blocks -/

private theorem stmtLineOver_ranks : (stmtLineOver block).RanksStmts tokens (bound + 2) := by
  intro before stmts after hreads
  rcases reads_stmtLineOver hreads with ⟨stmt, rfl, hcompound⟩ | ⟨-, start, -, hsimple⟩
  · simpa using compound_rank_le hle hblock hcompound
  · exact (simpleStmts_ranks hsimple).mono (by omega)

end

private theorem stmtsOver_ranks {line : Parser (List Stmt)} {stop : TokenKind} {bound : Nat}
    (hline : line.RanksStmts tokens bound) : (stmtsOver line stop).RanksStmts tokens bound := by
  intro before stmts after hreads
  have hlines := reads_stmtsOver hreads
  clear hreads
  induction hlines with
  | stop => exact rankAtMost_nil
  | line _ _ hfirst _ ih =>
    rw [List.map_append]
    exact rankAtMost_append.mpr ⟨hline hfirst, ih⟩

private theorem blockOver_ranks {line : Parser (List Stmt)} {bound : Nat}
    (hle : maxPartRank + 1 ≤ bound) (hline : line.RanksStmts tokens bound) :
    (blockOver line).RanksStmts tokens bound := by
  intro before stmts after hreads
  obtain ⟨-, hrest⟩ := reads_blockOver.mp hreads
  split at hrest
  · obtain ⟨-, last, hstmts, -, -⟩ := hrest
    exact stmtsOver_ranks hline hstmts
  · exact (simpleStmts_ranks hrest).mono hle

/-- Each block adds a constant to the rank of the statements in it. -/
theorem blockWithin_ranks (depth : Nat) :
    (blockWithin depth).RanksStmts tokens (maxPartRank + 2 * depth) := by
  induction depth with
  | zero =>
    intro before stmts after hreads
    exact (reads_failNext.mp hreads).elim
  | succ depth ih =>
    rw [show maxPartRank + 2 * (depth + 1) = maxPartRank + 2 * depth + 2 by omega]
    exact blockOver_ranks (by omega) (stmtLineOver_ranks (Nat.le_add_right ..) ih)

end Parser

/-- **Chains aside, trees have bounded height.** On no way down the tree of a module are there more
than 3203 nodes, if the links of chains of attributes, calls, subscripts, binary operators and
`elif`s do not count. -/
theorem parseModule_rank {source : String} {module : Module}
    (hparse : parseModule source = .ok module) : module.node.rank ≤ 3203 := by
  obtain ⟨body, last, hbody, -, -, rfl⟩ := reads_of_parseModule hparse
  have hranks := Parser.stmtsOver_ranks (Parser.stmtLineOver_ranks (Nat.le_add_right ..)
    (Parser.blockWithin_ranks maxIndentLevels)) hbody
  rw [Module.node, stmtNodes_eq]
  exact Node.rank_le hranks

/-- A chain of clauses with attributes, calls and sums in them. -/
theorem parseModule_rank_elif :
    ∃ module, parseModule "if a.b.c:\n    f(x)(y)\nelif a + b + c:\n    pass\n" = .ok module ∧
      module.node.rank ≤ 3203 := by
  have hparses : (parseModule "if a.b.c:\n    f(x)(y)\nelif a + b + c:\n    pass\n").isOk := by
    decide +kernel
  cases hparse : parseModule "if a.b.c:\n    f(x)(y)\nelif a + b + c:\n    pass\n" with
  | error failure =>
    rw [hparse] at hparses
    cases hparses
  | ok module => exact ⟨module, rfl, parseModule_rank hparse⟩

/-! ## Sums of any length -/

namespace OperatorExpr

/-- A sum of the identifier `a`, as often as a number says and once more. -/
def sum : Nat → OperatorExpr
  | 0 => .name ⟨'a', [], by decide, by simp, by decide⟩
  | count + 1 =>
    .binary ⟨.plus, .addition, rfl⟩ (sum count) (.name ⟨'a', [], by decide, by simp, by decide⟩)

private theorem sum_precedence (count : Nat) :
    Operator.addition.operandPrecedence .left ≤ (sum count).precedence := by
  cases count with
  | zero => decide
  | succ =>
    rw [sum, precedence]
    decide

/-- A sum is written without parentheses. -/
theorem sum_nesting (count : Nat) : (sum count).nesting = 0 := by
  induction count with
  | zero => rfl
  | succ count ih =>
    have hbare : ¬(sum count).precedence < Operator.addition.operandPrecedence .left :=
      Nat.not_lt.mpr (sum_precedence count)
    simp only [sum, nesting, ih, hbare, nestedBy, decide_false, Bool.false_eq_true, if_false,
      Nat.zero_max]
    decide

/-- Every addition makes the tree of a sum higher. -/
theorem lt_height_of_sum {count : Nat} {value : Expr}
    (hvalue : value.withoutSpans = (sum count).toExpr) : count < value.node.height := by
  induction count generalizing value with
  | zero =>
    obtain ⟨span, form⟩ := value
    exact Nat.succ_pos _
  | succ count ih =>
    obtain ⟨span, form⟩ := value
    cases form
    case binary operator left right =>
      simp only [sum, toExpr, Expr.withoutSpans, ExprForm.withoutSpans, Expr.mk.injEq,
        ExprForm.binary.injEq, true_and] at hvalue
      have hleft := ih hvalue.2.1
      simp only [Expr.node, ExprForm.children, Node.height, Node.heightAll]
      omega
    all_goals
      simp [sum, toExpr, Expr.withoutSpans, ExprForm.withoutSpans] at hvalue

end OperatorExpr

/-- The trees of sums are as high as the sums are long. -/
theorem parseModule_height_unbounded :
    ¬∃ bound, ∀ source module, parseModule source = .ok module → module.node.height ≤ bound := by
  rintro ⟨bound, hbound⟩
  have hnesting : (OperatorExpr.sum bound).nesting < Level.maxCount := by
    rw [OperatorExpr.sum_nesting]
    decide
  obtain ⟨span, value, after, hreads, hvalue⟩ := (OperatorExpr.sum bound).tokens_module hnesting
  have hle := hbound _ _ (OperatorExpr.parseModule_tokens hreads)
  have hlt := OperatorExpr.lt_height_of_sum hvalue
  simp only [Module.node, stmtNodes_eq, List.map_cons, Stmt.node, StmtForm.children, Node.height,
    Node.heightAll] at hle
  omega

end PythonOutline
