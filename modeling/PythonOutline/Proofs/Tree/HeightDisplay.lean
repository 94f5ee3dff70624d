import PythonOutline.Proofs.Grammar.ParamEntry
import PythonOutline.Proofs.Tree.HeightExpr

/-! # The rank of displays, arguments and nesting levels

What a nesting level opens ranks a constant more than what the level inside it reads: displays and
comprehensions, call arguments and subscripts, and parameters of lambdas.
-/

namespace PythonOutline

open Node PythonOutline.Parser

attribute [local simp] ExprForm.children

namespace Level

variable {tokens : Tokens} {bound : Nat} {level : Level} {before after : Place}

section

variable (hlevel : level.Ranks tokens bound)

include hlevel

/-! ## Displays -/

private theorem forClause_ranks : level.forClause.Ranks tokens ForClause.node (bound + 12) := by
  intro before clause after hreads
  obtain ⟨_, _, target, _, iterable, _, conditions, -, -, htarget, -, hiterable, hconditions, rfl⟩ :=
    reads_forClause hreads
  have hbound := (targetList_ranks hlevel).mono (Nat.le_succ _) htarget
  have hiterated := orTest_ranks hlevel hiterable
  have hitem : (do let _ ← take; level.orTest).Ranks tokens Expr.node (bound + 11) := by
    intro before value after hreads
    obtain ⟨_, _, -, hvalue⟩ := reads_bind.mp hreads
    exact orTest_ranks hlevel hvalue
  have hconditioned := hitem.repeats hconditions
  exact Node.rank_le (by simpa using ⟨hbound, hiterated, hconditioned⟩)

private theorem forClauses_rank_le {clauses : List ForClause}
    (hreads : level.forClauses.Reads tokens before clauses after) :
    RankAtMost (bound + 12) (clauses.map ForClause.node) :=
  (forClause_ranks hlevel).repeats (reads_forClauses hreads)

private theorem comprehension_ranks {start : Nat} {close : TokenKind} {kind : ComprehensionKind}
    {element : Expr} {second : Option Expr} (helement : element.node.rank ≤ bound + 13)
    (hsecond : RankAtMost (bound + 13) (second.toList.map Expr.node)) :
    (level.comprehension start close kind element second).Ranks tokens Expr.node (bound + 14) := by
  intro before value after hreads
  obtain ⟨clauses, last, hclauses, -, -, rfl⟩ := reads_comprehension.mp hreads
  have hranks := (forClauses_rank_le hlevel hclauses).mono (Nat.le_succ _)
  exact Expr.rank_le (by simpa using ⟨helement, hsecond, hranks⟩)

private theorem displayElements_rank_le {close : TokenKind} {elements : List Expr}
    (hreads : (level.displayElements close).Reads tokens before elements after) :
    RankAtMost (bound + 13) (elements.map Expr.node) :=
  (starNamedExpr_ranks hlevel).lists (reads_displayElements hreads)

private theorem parenDisplay_ranks : level.parenDisplay.Ranks tokens Expr.node (bound + 14) := by
  intro before value after hreads
  obtain ⟨-, hrest⟩ := reads_parenDisplay.mp hreads
  split at hrest
  · rw [hrest.2]
    exact leaf_rank_le rfl
  split at hrest
  · obtain ⟨_, hyield, -, -⟩ := hrest
    exact yieldExpr_ranks hlevel hyield
  obtain ⟨first, middle, hreadsFirst, hrest⟩ := hrest
  have hfirst := starNamedExpr_ranks hlevel hreadsFirst
  split at hrest
  · exact comprehension_ranks hlevel hfirst rankAtMost_nil hrest
  split at hrest
  · obtain ⟨others, hothers, rfl⟩ := hrest
    have hranks := displayElements_rank_le hlevel hothers
    exact Expr.rank_le (by simpa using ⟨hfirst, hranks⟩)
  · rw [hrest.2.2]
    exact Nat.le_succ_of_le hfirst

private theorem listDisplay_ranks : level.listDisplay.Ranks tokens Expr.node (bound + 14) := by
  intro before value after hreads
  obtain ⟨-, hrest⟩ := reads_listDisplay.mp hreads
  split at hrest
  · obtain ⟨elements, helements, rfl⟩ := hrest
    have hranks := displayElements_rank_le hlevel helements
    exact Expr.rank_le (by simpa using hranks)
  obtain ⟨first, middle, hreadsFirst, hrest⟩ := hrest
  have hfirst := starNamedExpr_ranks hlevel hreadsFirst
  split at hrest
  · exact comprehension_ranks hlevel hfirst rankAtMost_nil hrest
  split at hrest
  · obtain ⟨others, hothers, rfl⟩ := hrest
    have hranks := displayElements_rank_le hlevel hothers
    exact Expr.rank_le (by simpa using ⟨hfirst, hranks⟩)
  · rw [hrest.2.2]
    exact Expr.rank_le (by simpa using hfirst)

private theorem dictEntry_ranks : level.dictEntry.Ranks tokens DictEntry.node (bound + 13) := by
  intro before entry after hreads
  rw [reads_dictEntry] at hreads
  split at hreads
  · obtain ⟨mapping, hmapping, rfl⟩ := hreads
    have hranks := (bitwiseOr_ranks hlevel).mono (by omega : bound + 8 ≤ bound + 12) hmapping
    exact Node.rank_le (by simpa using hranks)
  · obtain ⟨key, _, hkey, -, value, hvalue, rfl⟩ := hreads
    have hkeyed := expr_ranks hlevel hkey
    have hvalued := expr_ranks hlevel hvalue
    exact Node.rank_le (by simpa using ⟨hkeyed, hvalued⟩)

private theorem setDisplay_ranks {start : Nat} {first : Expr}
    (hfirst : first.node.rank ≤ bound + 13) :
    (level.setDisplay start first).Ranks tokens Expr.node (bound + 14) := by
  intro before value after hreads
  rw [reads_setDisplay] at hreads
  split at hreads
  · exact comprehension_ranks hlevel hfirst rankAtMost_nil hreads
  split at hreads
  · obtain ⟨others, hothers, rfl⟩ := hreads
    have hranks := displayElements_rank_le hlevel hothers
    exact Expr.rank_le (by simpa using ⟨hfirst, hranks⟩)
  · rw [hreads.2.2]
    exact Expr.rank_le (by simpa using hfirst)

private theorem dictDisplay_ranks {start entryStart : Nat} {key : Expr}
    (hkey : key.node.rank ≤ bound + 13) :
    (level.dictDisplay start entryStart key).Ranks tokens Expr.node (bound + 15) := by
  intro before value after hreads
  obtain ⟨first, middle, hreadsFirst, hrest⟩ := reads_dictDisplay.mp hreads
  have hfirst := Nat.le_succ_of_le (expr_ranks hlevel hreadsFirst)
  have hentry : ∀ span, (DictEntry.node ⟨span, some key, first⟩).rank ≤ bound + 14 :=
    fun _ => Node.rank_le (by simpa using ⟨hkey, hfirst⟩)
  split at hrest
  · exact Nat.le_succ_of_le
      (comprehension_ranks hlevel hkey (by simpa using hfirst) hrest)
  split at hrest
  · obtain ⟨others, hothers, rfl⟩ := hrest
    have hranks := ((dictEntry_ranks hlevel).lists (.of_reads hothers)).mono (Nat.le_succ _)
    exact Expr.rank_le (by simpa using ⟨hentry _, hranks⟩)
  · rw [hrest.2.2]
    exact Expr.rank_le (by simpa using hentry _)

private theorem braceDisplay_ranks : level.braceDisplay.Ranks tokens Expr.node (bound + 15) := by
  intro before value after hreads
  obtain ⟨-, hrest⟩ := reads_braceDisplay.mp hreads
  split at hrest
  · obtain ⟨entries, hentries, rfl⟩ := hrest
    have hranks := ((dictEntry_ranks hlevel).lists (.of_reads hentries)).mono (Nat.le_succ _)
    exact Expr.rank_le (by simpa using hranks)
  · obtain ⟨first, middle, hreadsFirst, hrest⟩ := hrest
    have hfirst := starNamedExpr_ranks hlevel hreadsFirst
    split at hrest
    · exact dictDisplay_ranks hlevel hfirst hrest
    · exact Nat.le_succ_of_le (setDisplay_ranks hlevel hfirst hrest)

/-! ## Arguments and subscripts -/

private theorem positionalArgument_ranks :
    level.positionalArgument.Ranks tokens Expr.node (bound + 14) := by
  intro before value after hreads
  obtain ⟨first, middle, hreadsFirst, hrest⟩ := reads_positionalArgument.mp hreads
  have hfirst := namedExpr_ranks hlevel hreadsFirst
  split at hrest
  · obtain ⟨clauses, hclauses, rfl⟩ := hrest
    have hranks := (forClauses_rank_le hlevel hclauses).mono (Nat.le_succ _)
    exact Expr.rank_le (by simpa using ⟨hfirst, hranks⟩)
  · rw [hrest.1]
    exact Nat.le_succ_of_le hfirst

private theorem argument_ranks : level.argument.Ranks tokens Argument.node (bound + 15) := by
  intro before argument after hreads
  rw [reads_argument] at hreads
  have hsingle : ∀ {value : Expr} {before after : Place} {span : Span} {keyword : Option String}
      {unpack : Unpack}, level.expr.Reads tokens before value after →
      (Argument.node ⟨span, keyword, unpack, value⟩).rank ≤ bound + 15 := by
    intro value before after span keyword unpack hvalue
    have hranks := (expr_ranks hlevel).mono (by omega : bound + 12 ≤ bound + 14) hvalue
    exact Node.rank_le (by simpa using hranks)
  split at hreads
  · obtain ⟨value, hvalue, rfl⟩ := hreads
    exact hsingle hvalue
  split at hreads
  · obtain ⟨value, hvalue, rfl⟩ := hreads
    exact hsingle hvalue
  split at hreads
  · obtain ⟨value, hvalue, rfl⟩ := hreads
    exact hsingle hvalue
  · obtain ⟨value, hvalue, rfl⟩ := hreads
    have hranks := positionalArgument_ranks hlevel hvalue
    exact Node.rank_le (by simpa using hranks)

/-- Arguments rank two more than the expressions in them at most. -/
theorem arguments_rank_le {arguments : List Argument}
    (hreads : level.arguments.Reads tokens before arguments after) :
    RankAtMost (bound + 15) (arguments.map Argument.node) :=
  (argument_ranks hlevel).lists (reads_arguments hreads).1

private theorem sliceBound_rank_le {limit : Option Expr}
    (hreads : level.sliceBound.Reads tokens before limit after) :
    RankAtMost (bound + 13) (limit.toList.map Expr.node) := by
  rw [reads_sliceBound] at hreads
  split at hreads
  · rw [hreads.1]
    exact rankAtMost_nil
  · obtain ⟨value, hvalue, rfl⟩ := hreads
    simpa using Nat.le_succ_of_le (expr_ranks hlevel hvalue)

private theorem sliceRest_ranks {start : Nat} {lower : Option Expr}
    (hlower : RankAtMost (bound + 13) (lower.toList.map Expr.node)) :
    (level.sliceRest start lower).Ranks tokens Expr.node (bound + 14) := by
  intro before value after hreads
  obtain ⟨-, upper, middle, hreadsUpper, hrest⟩ := reads_sliceRest.mp hreads
  have hupper := sliceBound_rank_le hlevel hreadsUpper
  split at hrest
  · obtain ⟨step, hreadsStep, rfl⟩ := hrest
    have hstep := sliceBound_rank_le hlevel hreadsStep
    exact Expr.rank_le (by simpa using ⟨hlower, hupper, hstep⟩)
  · rw [hrest.2]
    exact Expr.rank_le (by simpa using ⟨hlower, hupper⟩)

private theorem sliceItem_ranks : level.sliceItem.Ranks tokens Expr.node (bound + 14) := by
  intro before value after hreads
  rw [reads_sliceItem] at hreads
  split at hreads
  · exact sliceRest_ranks hlevel rankAtMost_nil hreads
  · obtain ⟨first, middle, hreadsFirst, hrest⟩ := hreads
    have hfirst := starNamedExpr_ranks hlevel hreadsFirst
    split at hrest
    · exact sliceRest_ranks hlevel (by simpa using hfirst) hrest
    · rw [hrest.1]
      exact Nat.le_succ_of_le hfirst

private theorem subscript_ranks : level.subscript.Ranks tokens Expr.node (bound + 15) := by
  intro before value after hreads
  obtain ⟨first, middle, hreadsFirst, hrest⟩ := reads_subscript hreads
  have hfirst := sliceItem_ranks hlevel hreadsFirst
  split at hrest
  · obtain ⟨others, hothers, rfl⟩ := hrest
    have hranks := (sliceItem_ranks hlevel).continues hothers
    exact Expr.rank_le (by simpa using ⟨hfirst, hranks⟩)
  · rw [hrest.1]
    exact Nat.le_succ_of_le hfirst

/-! ## Parameters -/

private theorem param_ranks {kind : ParamKind} {typeHints : Bool} :
    (level.param kind typeHints).Ranks tokens Param.node (bound + 13) := by
  intro before param after hreads
  obtain ⟨-, hint, middle, defaultValue, hreadsHint, hreadsDefault, rfl⟩ := reads_param hreads
  have hhinted : (level.typeHint kind).Ranks tokens Expr.node (bound + 12) := by
    unfold typeHint
    split
    · exact starExpr_ranks hlevel
    · exact expr_ranks hlevel
  have hhint : RankAtMost (bound + 12) (hint.toList.map Expr.node) := by
    split at hreadsHint
    · exact hhinted.ifAccepted hreadsHint
    · rw [hreadsHint.1]
      exact rankAtMost_nil
  have hdefault : RankAtMost (bound + 12) (defaultValue.toList.map Expr.node) := by
    split at hreadsDefault
    · rw [hreadsDefault.1]
      exact rankAtMost_nil
    · exact (expr_ranks hlevel).ifAccepted hreadsDefault
  exact Node.rank_le (by simpa using ⟨hhint, hdefault⟩)

/-- Parameters rank one more than the expressions in them at most. -/
theorem params_rank_le {close : TokenKind} {typeHints : Bool} {params : List Param}
    (hreads : (level.params close typeHints).Reads tokens before params after) :
    RankAtMost (bound + 13) (params.map Param.node) :=
  List.forall_mem_map.mpr (params_ensures id (fun _ => param_ranks hlevel) hreads)

private theorem lambdaExpr_ranks : level.lambdaExpr.Ranks tokens Expr.node (bound + 14) := by
  intro before value after hreads
  obtain ⟨-, params, _, hparams, body, hbody, rfl⟩ := reads_lambdaExpr.mp hreads
  have hranks := params_rank_le hlevel hparams
  have hbodied := Nat.le_succ_of_le (expr_ranks hlevel hbody)
  exact Expr.rank_le (by simpa using ⟨hranks, hbodied⟩)

/-! ## Nesting levels -/

/-- One more level adds a constant to the rank. -/
theorem around_ranks : level.around.Ranks tokens (bound + 15) where
  innerLambda := (lambdaExpr_ranks hlevel).mono (by omega)
  innerExpr := (expr_ranks hlevel).mono (by omega)
  innerNotTest := (notTest_ranks hlevel).mono (by omega)
  innerFactor := (factor_ranks hlevel).mono (by omega)
  innerArguments _ _ _ hreads := arguments_rank_le hlevel (reads_innerArguments.mp hreads)
  innerIndex _ _ _ hreads := by
    obtain ⟨_, hindex, -⟩ := reads_innerIndex.mp hreads
    exact subscript_ranks hlevel hindex
  innerParens := (parenDisplay_ranks hlevel).mono (by omega)
  innerBrackets := (listDisplay_ranks hlevel).mono (by omega)
  innerBraces := braceDisplay_ranks hlevel

end

private theorem innermost_ranks : innermost.Ranks tokens 0 where
  innerLambda := ranks_failNext
  innerExpr := ranks_failNext
  innerNotTest := ranks_failNext
  innerFactor := ranks_failNext
  innerArguments _ _ _ hreads := (reads_failNext.mp hreads).elim
  innerIndex := ranks_failNext
  innerParens := ranks_failNext
  innerBrackets := ranks_failNext
  innerBraces := ranks_failNext

private theorem withInner_ranks (count : Nat) : (withInner count).Ranks tokens (15 * count) := by
  induction count with
  | zero => exact innermost_ranks
  | succ count ih => exact around_ranks ih

/-- The greatest rank of what the outermost level opens. -/
def maxRank : Nat :=
  15 * (maxCount - 1)

/-- Expressions have no greater rank than all levels give them. -/
theorem outermost_ranks : outermost.Ranks tokens maxRank :=
  withInner_ranks (maxCount - 1)

end Level

end PythonOutline
