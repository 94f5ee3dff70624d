import PythonOutline.Proofs.Parser.Takes
import PythonOutline.Proofs.Tree.LaminarStmt

/-! # The loops of the grammar

`GrammarLoop` has the loops of the grammar, each by the step that it repeats. Every step takes a
token if the loop goes on behind it, whatever it is that the step reads: what follows a separator,
what stands behind a keyword, or a whole line of statements.
-/

namespace PythonOutline

namespace Parser

variable {tokens : Tokens} {before after : Place}

/-- An expression takes a token at least, and none that ends the input. -/
theorem LaysExpr.takes {parser : Parser Expr} (hlays : parser.LaysExpr tokens) :
    parser.Takes tokens 1 :=
  Lays.takes_one hlays (by decide)

/-- A simple statement takes a token at least. -/
theorem LaysSimple.takes {parser : Parser Stmt} (hlays : parser.LaysSimple tokens) :
    parser.Takes tokens 1 :=
  Lays.takes_one hlays (by decide)

/-- Statements take no token that ends the input. -/
theorem LaysStmts.takes {parser : Parser (List Stmt)} (hlays : parser.LaysStmts tokens) :
    parser.Takes tokens 0 :=
  Lays.takes hlays (by decide)

/-! ## Operands and operators -/

/-- Each further part of a string literal is a token. -/
theorem literalStep_advances : Advances literalStep tokens := by
  constructor
  · intro parts before parts' after hreads
    obtain ⟨hkind, -, -, rfl⟩ : tokens.kindAt before = .literalString ∧ _ ∧ _ ∧
        after = before.step := by
      simpa using hreads
    exact .token hkind (by decide)
  · intro parts before result after hreads
    obtain ⟨-, -, rfl⟩ : _ ∧ _ ∧ after = before.look 0 := by simpa using hreads
    exact .nil

end Parser

namespace Level

open PythonOutline.Parser

/-- Applies a binary operator of one of some precedences, if such an operator follows. Its precedence
says how the operand behind it is read. A layer of the grammar applies those of one precedence. -/
abbrev operatorStep (applies : Nat → Prop) [DecidablePred applies] (operand : Nat → Parser Expr)
    (left : Expr) : Parser (Step Expr Expr) := do
  match Operator.binary? (← peekKind) with
  | none => return .done left
  | some operator =>
    if applies operator.precedence then
      let _ ← take
      let right ← operand operator.precedence
      return .next ⟨left.span.join right.span, .binary operator left right⟩
    else return .done left

variable {level : Level} {tokens : Tokens} {before after : Place}

section

variable (hordered : tokens.InOrder)

include hordered

private theorem innerArguments_run {levels : Nat} {arguments : List Argument}
    (hreads : (withInner levels).innerArguments.Reads tokens before arguments after)
    (hkind : tokens.kindAt before = .parenthesisOpen) :
    tokens.Run 1 before.next after.next := by
  cases levels with
  | zero => exact (reads_failNext.mp hreads).elim
  | succ levels =>
    have harguments := arguments_lays hordered (withInner_lays hordered levels)
      (reads_innerArguments.mp hreads)
    exact (harguments.run (by decide)).behindToken hkind (by decide)

private theorem innerIndex_run {levels : Nat} {index : Expr}
    (hreads : (withInner levels).innerIndex.Reads tokens before index after)
    (hkind : tokens.kindAt before = .bracketOpen) :
    tokens.Run 1 before.next after.next :=
  ((withInner_lays hordered levels).innerIndex hreads hkind).run_of_mem (by decide)
    (List.mem_singleton_self _)

/-- Each call, attribute and subscript takes a token. -/
theorem trailerStep_advances (levels start : Nat) :
    Advances ((withInner levels).trailerStep start) tokens := by
  constructor
  · intro value before value' after hreads
    simp only [reads_bind, reads_peekKind, existsAndEq, true_and, and_true] at hreads
    split at hreads
    · rename_i hdot
      obtain ⟨hname, rfl, -⟩ : tokens.kindAt before.step = .identifier ∧
          after = before.step.step ∧ _ := by
        simpa using hreads
      exact (Tokens.Run.token hname (by decide)).behindToken hdot (by decide)
    · rename_i hparen
      obtain ⟨arguments, harguments, -⟩ : ∃ arguments,
          (withInner levels).innerArguments.Reads tokens (before.look 0) arguments after ∧ _ := by
        simpa using hreads
      have hrun := innerArguments_run hordered harguments hparen
      exact hrun
    · rename_i hbracket
      obtain ⟨index, hindex, -⟩ : ∃ index,
          (withInner levels).innerIndex.Reads tokens (before.look 0) index after ∧ _ := by
        simpa using hreads
      have hrun := innerIndex_run hordered hindex hbracket
      exact hrun
    · simp at hreads
  · intro value before result after hreads
    simp only [reads_bind, reads_peekKind, existsAndEq, true_and, and_true] at hreads
    split at hreads
    · simp at hreads
    · simp at hreads
    · simp at hreads
    · obtain ⟨-, rfl⟩ := reads_pure.mp hreads
      exact .nil

omit hordered in
/-- An operator of some precedences that is applied takes its token, whatever the operand behind it
takes. -/
theorem operatorStep_advances {applies : Nat → Prop} [DecidablePred applies]
    {operand : Nat → Parser Expr}
    (hoperand : ∀ operator : Operator, applies operator.precedence →
      (operand operator.precedence).Takes tokens 1) :
    Advances (operatorStep applies operand) tokens := by
  constructor
  · intro left before left' after hreads
    simp only [reads_bind, reads_peekKind, existsAndEq, true_and, and_true] at hreads
    split at hreads
    · cases (reads_pure.mp hreads).1
    · rename_i operator hoperator
      obtain ⟨happlies, right, hright, -⟩ : applies operator.precedence ∧
          ∃ right, (operand operator.precedence).Reads tokens before.step right after ∧ _ := by
        simpa using hreads
      exact (hoperand _ happlies hright).behindToken rfl (Operator.isSolid_of_binary? hoperator).2.1
  · intro left before result after hreads
    simp only [reads_bind, reads_peekKind, existsAndEq, true_and, and_true] at hreads
    split at hreads
    · obtain ⟨-, rfl⟩ := reads_pure.mp hreads
      exact .nil
    · obtain ⟨-, -, rfl⟩ : _ ∧ _ ∧ after = before.look 0 := by simpa using hreads
      exact .nil

omit hordered in
private theorem applyStep_advances (precedence : Nat) {operand : Parser Expr}
    (hoperand : operand.Takes tokens 1) : Advances (applyStep precedence operand) tokens := by
  change Advances (operatorStep (· = precedence) fun _ => operand) tokens
  exact operatorStep_advances fun _ _ => hoperand

omit hordered in
/-- An operator of a comparison ends no input. -/
theorem comparisonOperator?_takes : comparisonOperator?.Takes tokens 0 := by
  intro before operator after hreads
  have htwo : ∀ {first second : TokenKind},
      tokens.kindAt before = first ∧ tokens.kindAt before.step = second →
      first ≠ .endOfInput → second ≠ .endOfInput →
      tokens.Run 0 before.next (before.step.step).next :=
    fun hkinds hfirst hsecond =>
      ((Tokens.Run.token hkinds.1 hfirst).thenToken hkinds.2 hsecond).mono (Nat.zero_le _)
  rw [reads_comparisonOperator?] at hreads
  split at hreads
  · rename_i hkinds
    obtain ⟨-, rfl⟩ := hreads
    exact htwo hkinds (by decide) (by decide)
  · split at hreads
    · rename_i hkinds
      obtain ⟨-, rfl⟩ := hreads
      exact htwo hkinds (by decide) (by decide)
    · split at hreads
      · obtain ⟨-, rfl⟩ := hreads
        exact .nil
      · rename_i hcomparison
        obtain ⟨-, rfl⟩ := hreads
        have hsolid := Operator.isSolid_of_comparison? hcomparison
        exact (Tokens.Run.token rfl (hsolid.ne (by decide))).mono (Nat.zero_le _)

/-- Each further operand of a comparison takes a token. -/
theorem compareStep_advances (levels : Nat) :
    Advances (withInner levels).compareStep tokens := by
  have hoperand := (bitwiseOr_lays hordered (withInner_lays hordered levels)).takes
  constructor
  · intro compared before compared' after hreads
    obtain ⟨operator?, middle, hoperator, hrest⟩ := reads_bind.mp hreads
    cases operator? with
    | none => simp at hrest
    | some operator =>
      obtain ⟨right, hright, -⟩ : ∃ right,
          (withInner levels).bitwiseOr.Reads tokens middle right after ∧ _ := by
        simpa using hrest
      exact (comparisonOperator?_takes hoperator).behind (hoperand hright)
  · intro compared before result after hreads
    obtain ⟨operator?, middle, hoperator, hrest⟩ := reads_bind.mp hreads
    cases operator? with
    | none =>
      obtain ⟨-, rfl⟩ : _ ∧ after = middle := by simpa using hrest
      exact comparisonOperator?_takes hoperator
    | some operator => simp at hrest

/-! ## Lists, comprehensions and parameters -/

omit hordered in
private theorem elementStep_advances {item : Parser Expr} (hitem : item.Takes tokens 1) :
    Advances (elementStep item) tokens :=
  advances_separated .comma TokenKind.startsExpression (by simp) (by decide) hitem

/-- Each further element of a subscript takes its comma. -/
theorem sliceStep_advances (levels : Nat) : Advances (withInner levels).sliceStep tokens :=
  advances_separated .comma (· != .bracketClose) (by simp) (by decide)
    (sliceItem_lays hordered (withInner_lays hordered levels)).takes

private theorem forClause_takes (levels : Nat) : (withInner levels).forClause.Takes tokens 1 :=
  (forClause_lays hordered (withInner_lays hordered levels)).takes_one (by decide)

/-- Each condition of a comprehension takes its `if`. -/
theorem conditionStep_advances (levels : Nat) :
    Advances (repeatStep (nextIs .keywordIf) (do let _ ← take; (withInner levels).orTest))
      tokens := by
  refine advances_repeatAt ?_
  intro before value after hreads hkind
  simp only [reads_bind, reads_take, existsAndEq, true_and] at hreads
  exact ((orTest_lays hordered (withInner_lays hordered levels)).takes hreads).behindToken hkind
    (by decide)

/-- Each clause of a comprehension takes its `for`. -/
theorem clauseStep_advances (levels : Nat) :
    Advances (repeatStep startsForClause (withInner levels).forClause) tokens := by
  refine advances_repeatStep ?_ ?_
  · intro before after hstop
    obtain ⟨-, rfl⟩ := reads_startsForClause.mp hstop
    exact .nil
  · intro before start clause after hstart hclause
    obtain ⟨-, rfl⟩ := reads_startsForClause.mp hstart
    exact (forClause_takes hordered levels).look hclause

private theorem param_takes (levels : Nat) (kind : ParamKind) (typeHints : Bool) :
    ((withInner levels).param kind typeHints).Takes tokens 1 :=
  (param_lays hordered (withInner_lays hordered levels)).takes_one (by decide)

private theorem paramsEntry_takes (levels : Nat) (typeHints : Bool) (state : ParamsState) :
    ((withInner levels).paramsEntry typeHints state).Takes tokens 1 := by
  intro before state' after hreads
  obtain ⟨-, hentry⟩ := reads_paramsEntry.mp hreads
  split at hentry
  case h_1 hslash =>
    obtain ⟨rfl, -⟩ := hentry
    exact .token hslash (by decide)
  case h_2 hasterisk _ =>
    split at hentry
    · obtain ⟨-, rfl⟩ := hentry
      exact .token hasterisk (by decide)
    · obtain ⟨param, hparam, -⟩ := hentry
      exact ((param_takes hordered levels _ _).look hparam).behindToken hasterisk (by decide)
  case h_3 hasterisks =>
    obtain ⟨param, hparam, -⟩ := hentry
    exact (param_takes hordered levels _ _ hparam).behindToken hasterisks (by decide)
  case h_4 =>
    obtain ⟨param, hparam, -⟩ := hentry
    exact (param_takes hordered levels _ _).look hparam
  case h_5 =>
    obtain ⟨param, hparam, -⟩ := hentry
    exact (param_takes hordered levels _ _).look hparam

/-- Each entry of a parameter list takes a token. -/
theorem paramsStep_advances (levels : Nat) {close : TokenKind} (hend : close ≠ .endOfInput)
    (typeHints : Bool) : Advances ((withInner levels).paramsStep close typeHints) tokens := by
  constructor
  · intro state before next after hreads
    obtain ⟨-, state', middle, hentry, hcomma, -, rfl⟩ : tokens.kindAt before ≠ close ∧
        ∃ state' middle,
          ((withInner levels).paramsEntry typeHints state).Reads tokens (before.look 0) state'
            middle ∧
          tokens.kindAt middle = .comma ∧ next = state' ∧ after = middle.step := by
      simpa using hreads
    exact ((paramsEntry_takes hordered levels typeHints state).look hentry).thenToken hcomma
      (by decide)
  · intro state before params after hreads
    have hlast : if tokens.kindAt before = close then
          params = state.params.reverse ∧ after = before.step
        else ∃ state' middle,
          ((withInner levels).paramsEntry typeHints state).Reads tokens (before.look 0) state'
            middle ∧
          tokens.kindAt middle ≠ .comma ∧ (tokens.kindAt middle = close ∧ after = middle.step) ∧
          params = state'.params.reverse := by
      simpa using hreads
    split at hlast
    · rename_i hclose
      obtain ⟨-, rfl⟩ := hlast
      exact (Tokens.Run.token hclose hend).mono (Nat.zero_le _)
    · obtain ⟨state', middle, hentry, -, ⟨hclose, rfl⟩, -⟩ := hlast
      exact (((paramsEntry_takes hordered levels typeHints state).look hentry).thenToken hclose
        hend).mono (Nat.zero_le _)

end

end Level

namespace Parser

variable {tokens : Tokens} {before after : Place}

/-! ## Simple statements -/

private theorem dotsStep_advances : Advances dotsStep tokens := by
  constructor
  · intro level before level' after hreads
    have hdots : if tokens.kindAt before = .dot then level' = level + 1 ∧ after = before.step
        else tokens.kindAt before = .dotDotDot ∧ level' = level + 3 ∧ after = before.step := by
      simpa using hreads
    split at hdots
    · rename_i hdot
      obtain ⟨-, rfl⟩ := hdots
      exact .token hdot (by decide)
    · obtain ⟨hdot, -, rfl⟩ := hdots
      exact .token hdot (by decide)
  · intro level before result after hreads
    obtain ⟨-, -, -, rfl⟩ := by simpa using hreads
    exact .nil

section

variable (hordered : tokens.InOrder)

include hordered

/-- A dotted name takes a token at least. -/
theorem dottedName_takes : dottedName.Takes tokens 1 := by
  intro before name after hreads
  obtain ⟨hfits, hlt⟩ := dottedName_fits hordered hreads
  exact { hfits.run (by decide) with add_le := hlt }

private theorem importedModule_takes : (importAlias dottedName).Takes tokens 1 :=
  (importAlias_lays hordered fun _ _ _ => dottedName_fits hordered).takes_one (by decide)

private theorem importedName_takes : (importAlias identifier).Takes tokens 1 :=
  (importedName_lays hordered).takes_one (by decide)

private theorem assignStep_advances : Advances assignStep tokens := by
  constructor
  · rintro ⟨targets, value⟩ before state' after hreads
    obtain ⟨hequals, next, hnext, -⟩ : tokens.kindAt before = .equals ∧
        ∃ next, yieldOrStarExprs.Reads tokens before.step next after ∧ _ := by
      simpa using hreads
    exact ((yieldOrStarExprs_lays hordered).takes hnext).behindToken hequals (by decide)
  · rintro ⟨targets, value⟩ before result after hreads
    obtain ⟨-, -, rfl⟩ : _ ∧ _ ∧ after = before.look 0 := by simpa using hreads
    exact .nil

private theorem simpleStep_advances : Advances simpleStep tokens :=
  advances_separated .semicolon (· != .newline) (by simp) (by decide)
    (simpleStmt_lays hordered).takes

/-! ## Compound statements -/

/-- A context takes a token at least. -/
theorem withItem_takes : withItem.Takes tokens 1 :=
  (withItem_lays hordered).takes_one (by decide)

omit hordered in
/-- A pattern is taken token by token. -/
theorem patternStep_advances : Advances patternStep tokens := by
  constructor
  · rintro ⟨depth, span⟩ before state' after hreads
    obtain ⟨-, ⟨hend, -⟩, rfl, -⟩ := by simpa using hreads
    exact .token rfl hend
  · rintro ⟨depth, span⟩ before result after hreads
    obtain ⟨-, -, rfl⟩ := by simpa using hreads
    exact .nil

private theorem decoratorStep_advances : Advances (repeatStep (nextIs .at) decorator) tokens := by
  refine advances_repeatAt ?_
  intro before decorator after hreads hat
  obtain ⟨-, expression, last, hexpression, hline, rfl, -⟩ := reads_decorator.mp hreads
  exact (((namedExpr_lays hordered).takes hexpression).thenToken hline (by decide)).behindToken hat
    (by decide)

variable {block : Parser (List Stmt)} (hblock : block.LaysStmts tokens)

include hblock

/-- A clause is a run of tokens. -/
theorem ReadsClause.run {start : Nat} {header : List Node} {body : List Stmt}
    (hclause : ReadsClause block tokens start header body after) :
    tokens.Run 1 start after.next := by
  obtain ⟨hfits, hlt⟩ := hclause.fits hordered hblock
  exact { hfits.run (by decide) with add_le := hlt }

private theorem elifStep_advances : Advances (elifStep block) tokens := by
  constructor
  · rintro ⟨outer, last⟩ before state' after hreads
    obtain ⟨-, clause, hclause, -⟩ : tokens.kindAt before = .keywordElif ∧
        ∃ clause, (ifClause block).Reads tokens (before.look 0) clause after ∧ _ := by
      simpa using hreads
    obtain ⟨-, -, hclause⟩ := reads_ifClause_clause hordered hclause
    exact hclause.run hordered hblock
  · rintro ⟨outer, last⟩ before result after hreads
    obtain ⟨-, -, rfl⟩ : _ ∧ _ ∧ after = before.look 0 := by simpa using hreads
    exact .nil

private theorem handlerStep_advances :
    Advances (repeatStep (nextIs .keywordExcept) (handler block)) tokens := by
  refine advances_repeatAt ?_
  rintro before ⟨handled, star⟩ after hreads hkind
  exact (reads_handler_clause hordered hreads hkind).2.run hordered hblock

private theorem caseStep_advances :
    Advances (repeatStep (nextIsWord "case") (matchCase block)) tokens := by
  refine advances_repeatStep ?_ ?_
  · intro before after hstop
    obtain ⟨-, rfl⟩ := reads_nextIsWord.mp hstop
    exact .nil
  · intro before start case after hstart hcase
    obtain ⟨hword, rfl⟩ := reads_nextIsWord.mp hstart
    exact (reads_matchCase_clause hordered hcase (kind_of_isWord hword.symm)).2.run hordered hblock

/-- A line is a compound statement, or ends with a line break. -/
theorem stmtLineOver_takes : (stmtLineOver block).Takes tokens 1 := by
  intro before stmts after hreads
  rcases reads_stmtLineOver hreads with ⟨stmt, rfl, hcompound⟩ | ⟨-, start, hstart, hsimple⟩
  · exact (compound_fits hordered hblock hcompound).run_of_mem (by decide)
      (List.mem_singleton_self _)
  · obtain ⟨last, hline, rfl, hfits⟩ := simpleStmts_fits hordered hsimple
    rw [← hstart]
    exact (hfits.run (by decide)).thenToken hline (by decide)

private theorem lineStep_advances (stop : TokenKind) :
    Advances (lineStep (stmtLineOver block) stop) tokens := by
  constructor
  · intro stmts before stmts' after hreads
    obtain ⟨-, -, line, hline, -⟩ : tokens.kindAt before ≠ stop ∧ tokens.kindAt before ≠ .indent ∧
        ∃ line, (stmtLineOver block).Reads tokens (before.look 0) line after ∧ _ := by
      simpa using hreads
    exact (stmtLineOver_takes hordered hblock).look hline
  · intro stmts before result after hreads
    obtain ⟨-, -, rfl⟩ : _ ∧ _ ∧ after = before.look 0 := by simpa using hreads
    exact .nil

end

end Parser

open PythonOutline.Parser in
/-- The loops of the grammar, each by the step that it repeats. Those of expressions are the same at
every level, and those of compound statements for blocks of any depth. -/
inductive GrammarLoop : {σ α : Type} → (σ → Parser (Step σ α)) → Prop where
  /-- Adjacent string literals. -/
  | strings : GrammarLoop literalStep
  /-- Attributes, calls and subscripts. -/
  | trailers (levels start : Nat) : GrammarLoop ((Level.withInner levels).trailerStep start)
  /-- Binary operators of one precedence. -/
  | operators (levels tiers : Nat) :
      GrammarLoop
        (Level.applyStep (Level.tightestBinary - tiers) ((Level.withInner levels).binary tiers))
  | comparisons (levels : Nat) : GrammarLoop (Level.withInner levels).compareStep
  | conjunctions (levels : Nat) :
      GrammarLoop (repeatStep (accept .keywordAnd) (Level.withInner levels).notTest)
  | disjunctions (levels : Nat) :
      GrammarLoop (repeatStep (accept .keywordOr) (Level.withInner levels).andTest)
  /-- Lists of expressions without brackets of their own. -/
  | starExprs (levels : Nat) : GrammarLoop (Level.elementStep (Level.withInner levels).starExpr)
  | starNamedExprs (levels : Nat) :
      GrammarLoop (Level.elementStep (Level.withInner levels).starNamedExpr)
  | targetList (levels : Nat) :
      GrammarLoop (Level.elementStep
        ((Level.withInner levels).starredOr (Level.withInner levels).bitwiseOr))
  /-- The conditions of a comprehension clause, and the clauses. -/
  | conditions (levels : Nat) :
      GrammarLoop (repeatStep (nextIs .keywordIf) (do let _ ← take; (Level.withInner levels).orTest))
  | forClauses (levels : Nat) :
      GrammarLoop (repeatStep startsForClause (Level.withInner levels).forClause)
  /-- Elements, entries, arguments and parameters up to a closing token. -/
  | displayElements (levels : Nat) {close : TokenKind} (hend : close ≠ .endOfInput) :
      GrammarLoop (listStep close (Level.withInner levels).starNamedExpr)
  | dictEntries (levels : Nat) :
      GrammarLoop (listStep .braceClose (Level.withInner levels).dictEntry)
  | arguments (levels : Nat) :
      GrammarLoop (listStep .parenthesisClose (Level.withInner levels).argument)
  | subscript (levels : Nat) : GrammarLoop (Level.withInner levels).sliceStep
  | params (levels : Nat) {close : TokenKind} (hend : close ≠ .endOfInput) (typeHints : Bool) :
      GrammarLoop ((Level.withInner levels).paramsStep close typeHints)
  | typeParams : GrammarLoop (listStep .bracketClose typeParam)
  /-- Names in import statements and in those that declare names. -/
  | dottedName : GrammarLoop (repeatStep (accept .dot) identifier)
  | dots : GrammarLoop dotsStep
  | importedModules : GrammarLoop (repeatStep (accept .comma) (importAlias dottedName))
  | importedNames : GrammarLoop (repeatStep (accept .comma) (importAlias identifier))
  | groupedNames : GrammarLoop (listStep .parenthesisClose (importAlias identifier))
  | names : GrammarLoop (repeatStep (accept .comma) identifier)
  | deleted : GrammarLoop (Level.elementStep Level.outermost.target)
  | assigned : GrammarLoop assignStep
  | simpleStmts : GrammarLoop simpleStep
  /-- Clauses of compound statements. -/
  | elifClauses (depth : Nat) : GrammarLoop (elifStep (blockWithin depth))
  | handlers (depth : Nat) :
      GrammarLoop (repeatStep (nextIs .keywordExcept) (handler (blockWithin depth)))
  | groupedWithItems : GrammarLoop (listStep .parenthesisClose withItem)
  | withItems : GrammarLoop (repeatStep (accept .comma) withItem)
  | pattern : GrammarLoop patternStep
  | matchCases (depth : Nat) :
      GrammarLoop (repeatStep (nextIsWord "case") (matchCase (blockWithin depth)))
  | decorators : GrammarLoop (repeatStep (nextIs .at) decorator)
  /-- Lines of statements. -/
  | lines (depth : Nat) (stop : TokenKind) :
      GrammarLoop (lineStep (stmtLineOver (blockWithin depth)) stop)

namespace GrammarLoop

open PythonOutline.Parser Level

variable {tokens : Tokens} {σ α : Type} {step : σ → Parser (Step σ α)}

/-- Every loop of the grammar advances. -/
theorem advances (hloop : GrammarLoop step) (hordered : tokens.InOrder) :
    Advances step tokens := by
  have hlevel := withInner_lays hordered
  have houtermost := outermost_lays hordered
  have hblock := blockWithin_lays hordered
  cases hloop with
  | strings => exact literalStep_advances
  | trailers levels start => exact trailerStep_advances hordered levels start
  | operators levels tiers =>
    exact applyStep_advances _ (binary_lays hordered (hlevel levels) tiers).takes
  | comparisons levels => exact compareStep_advances hordered levels
  | conjunctions levels =>
    exact advances_repeatBehind (by decide) (notTest_lays hordered (hlevel levels)).takes
  | disjunctions levels =>
    exact advances_repeatBehind (by decide) (andTest_lays hordered (hlevel levels)).takes
  | starExprs levels => exact elementStep_advances (starExpr_lays hordered (hlevel levels)).takes
  | starNamedExprs levels =>
    exact elementStep_advances (starNamedExpr_lays hordered (hlevel levels)).takes
  | targetList levels =>
    exact elementStep_advances (starredOr_lays hordered (hlevel levels)
      (bitwiseOr_lays hordered (hlevel levels))).takes
  | conditions levels => exact conditionStep_advances hordered levels
  | forClauses levels => exact clauseStep_advances hordered levels
  | displayElements levels hend =>
    exact advances_listStep hend (starNamedExpr_lays hordered (hlevel levels)).takes
  | dictEntries levels =>
    exact advances_listStep (by decide)
      ((dictEntry_lays hordered (hlevel levels)).takes_one (by decide))
  | arguments levels =>
    exact advances_listStep (by decide)
      ((argument_lays hordered (hlevel levels)).takes_one (by decide))
  | subscript levels => exact sliceStep_advances hordered levels
  | params levels hend typeHints => exact paramsStep_advances hordered levels hend typeHints
  | typeParams =>
    exact advances_listStep (by decide) ((typeParam_lays hordered).takes_one (by decide))
  | dottedName => exact advances_repeatBehind (by decide) takes_identifier
  | dots => exact dotsStep_advances
  | importedModules => exact advances_repeatBehind (by decide) (importedModule_takes hordered)
  | importedNames => exact advances_repeatBehind (by decide) (importedName_takes hordered)
  | groupedNames => exact advances_listStep (by decide) (importedName_takes hordered)
  | names => exact advances_repeatBehind (by decide) takes_identifier
  | deleted => exact elementStep_advances (target_lays hordered houtermost).takes
  | assigned => exact assignStep_advances hordered
  | simpleStmts => exact simpleStep_advances hordered
  | elifClauses depth => exact elifStep_advances hordered (hblock depth)
  | handlers depth => exact handlerStep_advances hordered (hblock depth)
  | groupedWithItems => exact advances_listStep (by decide) (withItem_takes hordered)
  | withItems => exact advances_repeatBehind (by decide) (withItem_takes hordered)
  | pattern => exact patternStep_advances
  | matchCases depth => exact caseStep_advances hordered (hblock depth)
  | decorators => exact decoratorStep_advances hordered
  | lines depth stop => exact lineStep_advances hordered (hblock depth) stop

end GrammarLoop

end PythonOutline
