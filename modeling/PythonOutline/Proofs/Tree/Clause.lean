import PythonOutline.Proofs.Grammar.Module
import PythonOutline.Proofs.Tree.LaminarSimple

/-! # Clauses of compound statements

A compound statement is made of clauses: a header on one line, and the block behind it. Headers are
made of text only, so all line structure of a compound statement is that of its blocks.
-/

namespace PythonOutline.Parser

variable {tokens : Tokens} {before after : Place} {block : Parser (List Stmt)}

/-- A clause that starts at a token: a header with some nodes in it, and a block. -/
def ReadsClause (block : Parser (List Stmt)) (tokens : Tokens) (start : Nat) (header : List Node)
    (body : List Stmt) (after : Place) : Prop :=
  ∃ middle, start < middle.next ∧ tokens.Fits TokenKind.IsSolid start middle.next header ∧
    block.Reads tokens middle body after

/-- The header of a clause starts with text. -/
theorem ReadsClause.isSolid {start : Nat} {header : List Node} {body : List Stmt}
    (hclause : ReadsClause block tokens start header body after) :
    (tokens.get start).kind.IsSolid := by
  obtain ⟨middle, hlt, hheader, -⟩ := hclause
  exact hheader.kinds start (Nat.le_refl _) hlt

/-- A clause whose header is one token. -/
theorem readsClause_token {kind : TokenKind} {body : List Stmt} (hkind : tokens.kindAt before = kind)
    (hsolid : kind.IsSolid) (hbody : block.Reads tokens before.step body after) :
    ReadsClause block tokens before.next [] body after :=
  ⟨before.step, Nat.lt_succ_self _, .token hkind hsolid, hbody⟩

/-- A clause whose header is a token and what follows it. -/
theorem readsClause_behind (hordered : tokens.InOrder) {kind : TokenKind} {middle : Place}
    {header : List Node} {body : List Stmt} (hkind : tokens.kindAt before = kind)
    (hsolid : kind.IsSolid)
    (hheader : tokens.Fits TokenKind.IsSolid before.step.next middle.next header)
    (hbody : block.Reads tokens middle body after) :
    ReadsClause block tokens before.next header body after :=
  ⟨middle, hheader.le, hheader.behindToken hordered hkind hsolid, hbody⟩

/-- A clause of a statement that may be async. -/
theorem readsClause_async (hordered : tokens.InOrder) {isAsync : Bool} {start middle : Place}
    {kind : TokenKind} {header : List Node} {body : List Stmt}
    (hasync : (accept .keywordAsync).Reads tokens before isAsync start)
    (hkind : tokens.kindAt start = kind) (hsolid : kind.IsSolid)
    (hheader : tokens.Fits TokenKind.IsSolid start.step.next middle.next header)
    (hbody : block.Reads tokens middle body after) :
    ReadsClause block tokens before.next header body after := by
  have hfirst : tokens.Fits TokenKind.IsSolid before.next start.next [] :=
    lays_accept (by decide) hasync
  exact ⟨middle, Nat.lt_of_le_of_lt hfirst.le hheader.le,
    hfirst.append hordered (hheader.behindToken hordered hkind hsolid), hbody⟩

/-- An `else` is a clause with nothing in its header. -/
theorem reads_elseBlock_clause {stmts : List Stmt}
    (hreads : (elseBlock block).Reads tokens before stmts after) :
    stmts = [] ∧ after = before.look 0 ∨
      tokens.kindAt before = .keywordElse ∧ ReadsClause block tokens before.next [] stmts after := by
  rw [reads_elseBlock] at hreads
  split at hreads
  · rename_i helse
    exact .inr ⟨helse, readsClause_token helse (by decide) hreads⟩
  · exact .inl hreads

section

variable (hordered : tokens.InOrder)

include hordered

/-- An `if` or `elif` is a clause with its condition in the header. -/
theorem reads_ifClause_clause {clause : IfClause}
    (hreads : (ifClause block).Reads tokens before clause after) :
    (tokens.kindAt before = .keywordIf ∨ tokens.kindAt before = .keywordElif) ∧
      clause.start = before.next ∧
      ReadsClause block tokens before.next [clause.test.node] clause.body after := by
  obtain ⟨hkind, test, middle, htest, body, hbody, rfl⟩ := reads_ifClause.mp hreads
  have hsolid : (tokens.kindAt before).IsSolid := by
    rcases hkind with hkind | hkind <;> rw [hkind] <;> decide
  exact ⟨hkind, rfl,
    readsClause_behind hordered rfl hsolid (namedExpr_lays hordered htest) hbody⟩

/-- A `while` loop is a clause with its condition in the header, and an `else`. -/
theorem reads_whileStmt_clause {stmt : Stmt}
    (hreads : (whileStmt block).Reads tokens before stmt after) :
    ∃ test body last orElse, ReadsClause block tokens before.next [test.node] body last ∧
      (elseBlock block).Reads tokens last orElse after ∧
      stmt = ⟨tokens.spanBetween before.next after.next, .whileLoop test body orElse⟩ := by
  obtain ⟨hwhile, test, middle, htest, body, last, hbody, orElse, horElse, rfl⟩ :=
    reads_whileStmt.mp hreads
  exact ⟨test, body, last, orElse,
    readsClause_behind hordered hwhile (by decide) (namedExpr_lays hordered htest) hbody, horElse,
    rfl⟩

/-- A `for` loop is a clause with its targets and what they run over in the header, and an
`else`. -/
theorem reads_forStmt_clause {stmt : Stmt}
    (hreads : (forStmt block).Reads tokens before stmt after) :
    ∃ isAsync target iterable body last orElse,
      ReadsClause block tokens before.next [target.node, iterable.node] body last ∧
      (elseBlock block).Reads tokens last orElse after ∧
      stmt = ⟨tokens.spanBetween before.next after.next,
        .forLoop isAsync target iterable body orElse⟩ := by
  obtain ⟨isAsync, start, target, middle, iterable, header, body, last, orElse, hasync, hfor,
    hreadsTarget, hin, hiterable, hbody, horElse, rfl⟩ := reads_forStmt hreads
  have htarget : tokens.Fits TokenKind.IsSolid start.step.next middle.next [target.node] :=
    Level.targetList_lays hordered (Level.outermost_lays hordered) hreadsTarget
  have hheader := (htarget.thenToken hordered hin (by decide)).append hordered
    (starExprs_lays hordered hiterable)
  exact ⟨isAsync, target, iterable, body, last, orElse,
    readsClause_async hordered hasync hfor (by decide) hheader hbody, horElse, rfl⟩

/-- A handler is a clause with its exception in the header. -/
theorem reads_handler_clause {handled : Handler} {star : Bool}
    (hreads : (handler block).Reads tokens before (handled, star) after)
    (hkind : tokens.kindAt before = .keywordExcept) :
    handled.span = tokens.spanBetween before.next after.next ∧
      ReadsClause block tokens before.next (handled.exception.toList.map Expr.node) handled.body
        after := by
  obtain ⟨start, exception, middle, name, header, body, hstar, hreadsException, hreadsName, hbody,
    rfl⟩ := reads_handler hreads
  have hexception : tokens.Fits TokenKind.IsSolid start.next middle.next
      (exception.toList.map Expr.node) := by
    split at hreadsException
    · obtain ⟨rfl, rfl⟩ := hreadsException
      exact .nil _ _ _
    · obtain ⟨value, hvalue, rfl⟩ := hreadsException
      exact (expr_lays hordered).look hvalue
  have hname : tokens.Fits TokenKind.IsSolid middle.next header.next [] := by
    split at hreadsName
    · exact boundName_lays hordered hreadsName
    · obtain ⟨-, rfl⟩ := hreadsName
      exact .nil _ _ _
  have hstarred := lays_accept (show TokenKind.IsSolid .asterisk by decide) hstar
  have hheader := (hstarred.append hordered hexception).append hordered hname
  rw [List.nil_append, List.append_nil] at hheader
  exact ⟨rfl, readsClause_behind hordered hkind (by decide) hheader hbody⟩

/-- A context is one node. -/
theorem withItem_lays : withItem.Lays tokens TokenKind.IsSolid fun item => [item.node] := by
  intro before item after hreads
  obtain ⟨context, middle, hcontext, target, htarget, rfl⟩ := reads_withItem.mp hreads
  have hall := (expr_lays hordered hcontext).append hordered
    ((target_lays hordered).ifAccepted hordered (by decide) htarget)
  refine Tokens.Fits.solid hordered ?_ _ (hall.lt (List.mem_cons_self ..))
  simpa using hall

/-- Contexts are nodes behind each other, grouped or not. -/
theorem withItems_lays : withItems.Lays tokens TokenKind.IsSolid fun items =>
    items.map WithItem.node := by
  intro before items after hreads
  rcases reads_withItems hreads with ⟨hparen, hgrouped⟩ | ⟨start, hstart, hitems⟩
  · obtain ⟨last, hitems, -, -, rfl⟩ := reads_groupedWithItems? hgrouped
    exact (Lays.lists hordered (withItem_lays hordered) (by decide) (by decide)
      (.of_reads hitems)).behindToken hordered hparen (by decide)
  · rw [← hstart]
    exact commaSeparated_lays hordered (withItem_lays hordered) (by decide) hitems

/-- A `with` statement is a clause with its contexts in the header. -/
theorem reads_withStmt_clause {stmt : Stmt}
    (hreads : (withStmt block).Reads tokens before stmt after) :
    ∃ isAsync items body,
      ReadsClause block tokens before.next (items.map WithItem.node) body after ∧
      stmt = ⟨tokens.spanBetween before.next after.next, .withBlock isAsync items body⟩ := by
  obtain ⟨isAsync, start, items, middle, body, hasync, hwith, hitems, hbody, rfl⟩ :=
    reads_withStmt hreads
  exact ⟨isAsync, items, body, readsClause_async hordered hasync hwith (by decide)
    (withItems_lays hordered hitems) hbody, rfl⟩

/-- The header of a case is its pattern and its guard. -/
theorem reads_matchCase_clause {case : MatchCase}
    (hreads : (matchCase block).Reads tokens before case after)
    (hkind : tokens.kindAt before = .identifier) :
    case.span = tokens.spanBetween before.next after.next ∧
      ReadsClause block tokens before.next (case.guard.toList.map Expr.node) case.body after := by
  obtain ⟨pattern, middle, hreadsPattern, guard, header, hguard, body, hbody, rfl⟩ :=
    reads_matchCase.mp hreads
  obtain ⟨span, hspan, -⟩ := reads_casePattern.mp hreadsPattern
  obtain ⟨hle, hkinds⟩ := reads_patternSpan? hspan
  have hpattern : tokens.Fits TokenKind.IsSolid before.step.next middle.next [] :=
    ⟨hle, hkinds, by simp, .nil⟩
  have hheader := hpattern.append hordered
    ((namedExpr_lays hordered).ifAccepted hordered (by decide) hguard)
  exact ⟨rfl, readsClause_behind hordered hkind (by decide) hheader hbody⟩

/-! ## Definitions -/

/-- A class is a clause with its type parameters and arguments in the header. -/
theorem reads_classDef_clause {decorators : List Decorator} {form : StmtForm}
    (hreads : (classDef block decorators).Reads tokens before form after) :
    ∃ params arguments body,
      tokens.kindAt before = .keywordClass ∧ tokens.kindAt before.step = .identifier ∧
      ReadsClause block tokens before.next
        (.leaf "def_name" (tokens.spanBetween before.step.next (before.step.next + 1)) ::
          params.map TypeParam.node ++ arguments.map Argument.node) body after ∧
      form = .classDef decorators ⟨tokens.spanBetween before.step.next (before.step.next + 1),
        (tokens.get before.step.next).text⟩ params arguments body := by
  obtain ⟨name, start, params, middle, arguments, header, body, hclass, hname, hreadsParams,
    hreadsArguments, hbody, rfl⟩ := reads_classDef hreads
  obtain ⟨hidentifier, rfl, rfl⟩ := reads_definedName.mp hname
  have harguments : tokens.Fits TokenKind.IsSolid middle.next header.next
      (arguments.map Argument.node) := by
    split at hreadsArguments
    · rename_i hparen
      exact (Level.arguments_lays hordered (Level.outermost_lays hordered)
        hreadsArguments).behindToken hordered hparen (by decide)
    · obtain ⟨rfl, rfl⟩ := hreadsArguments
      exact .nil _ _ _
  have hnamed : tokens.Fits TokenKind.IsSolid before.step.next before.step.step.next
      [.leaf "def_name" (tokens.spanBetween before.step.next (before.step.next + 1))] :=
    Tokens.Fits.solid hordered (.token hidentifier (by decide)) _ (Nat.lt_succ_self _)
  have hparams : tokens.Fits TokenKind.IsSolid before.step.step.next middle.next
      (params.map TypeParam.node) :=
    typeParams_lays hordered hreadsParams
  have hheader := (hnamed.append hordered hparams).append hordered harguments
  exact ⟨params, arguments, body, hclass, hidentifier,
    readsClause_behind hordered hclass (by decide) hheader hbody, rfl⟩

/-- A function is a clause with its parameters and the type of its result in the header. -/
theorem reads_functionDef_clause {decorators : List Decorator} {form : StmtForm}
    (hreads : (functionDef block decorators).Reads tokens before form after) :
    ∃ isAsync start params parameters returns body,
      (accept .keywordAsync).Reads tokens before isAsync start ∧
      tokens.kindAt start = .keywordDef ∧ tokens.kindAt start.step = .identifier ∧
      ReadsClause block tokens before.next
        (.leaf "def_name" (tokens.spanBetween start.step.next (start.step.next + 1)) ::
          params.map TypeParam.node ++ parameters.map Param.node ++
          returns.toList.map Expr.node) body after ∧
      form = .functionDef decorators isAsync
        ⟨tokens.spanBetween start.step.next (start.step.next + 1),
          (tokens.get start.step.next).text⟩ params parameters returns body := by
  obtain ⟨isAsync, start, name, list, params, middle, parameters, result, returns, header, body,
    hasync, hdef, hname, hreadsParams, hparen, hreadsParameters, hreadsReturns, hbody, rfl⟩ :=
    reads_functionDef hreads
  obtain ⟨hidentifier, rfl, rfl⟩ := reads_definedName.mp hname
  have hnamed : tokens.Fits TokenKind.IsSolid start.step.next start.step.step.next
      [.leaf "def_name" (tokens.spanBetween start.step.next (start.step.next + 1))] :=
    Tokens.Fits.solid hordered (.token hidentifier (by decide)) _ (Nat.lt_succ_self _)
  have hparams : tokens.Fits TokenKind.IsSolid start.step.step.next middle.next
      (params.map TypeParam.node) :=
    typeParams_lays hordered hreadsParams
  have hparameters := (Level.params_lays hordered (Level.outermost_lays hordered) (by decide)
    hreadsParameters).behindToken hordered hparen (by decide)
  have hreturns := (expr_lays hordered).ifAccepted hordered (by decide) hreadsReturns
  have hheader := ((hnamed.append hordered hparams).append hordered hparameters).append hordered
    hreturns
  exact ⟨isAsync, start, params, parameters, returns, body, hasync, hdef, hidentifier,
    readsClause_async hordered hasync hdef (by decide) hheader hbody, rfl⟩

end

end PythonOutline.Parser
