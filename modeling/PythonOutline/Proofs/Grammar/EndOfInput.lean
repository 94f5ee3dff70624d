import PythonOutline.Proofs.Grammar.Loops
import PythonOutline.Proofs.Grammar.Method

/-! # The end of the input

Behind the end of a source its tokens are ends of input for ever. No method of the grammar that
succeeds takes one of them, unless it is told to: so what a run takes are tokens of the source,
each of them once.
-/

namespace PythonOutline

namespace Tokens

variable {tokens : Tokens} {bound least start middle stop : Nat}

/-- The ends of input are the tokens from some index on. -/
def EndsAt (tokens : Tokens) (bound : Nat) : Prop :=
  ∀ index, (tokens.get index).kind = .endOfInput ↔ bound ≤ index

/-- The last token of a source ends the input. -/
theorem endsAt_ofSource (source : String) :
    (ofSource source).EndsAt ((ofSource source).tokens.size - 1) := by
  intro index
  have hend := kind_ofSource_eq_endOfInput_iff source index
  rw [hend]
  omega

/-- A token with another one of the source behind it may be any token. -/
theorem Run.behindAny (hends : tokens.EndsAt bound) (hrun : tokens.Run least (start + 1) stop)
    (hle : start ≤ middle) (hmiddle : (tokens.get middle).kind ≠ .endOfInput) :
    tokens.Run 1 start stop := by
  refine hrun.behindToken rfl fun hstart => hmiddle ?_
  exact (hends middle).mpr (Nat.le_trans ((hends start).mp hstart) hle)

end Tokens

namespace Parser

variable {α : Type} {tokens : Tokens} {bound : Nat} {before after : Place}

/-- A string literal takes no token that ends the input. -/
theorem stringLiteral_takes : stringLiteral.Takes tokens 0 := by
  intro before value after hreads
  obtain ⟨hle, -, hall, -⟩ := reads_stringLiteral hreads
  refine ⟨hle, fun index hstart hstop => ?_⟩
  rw [hall index hstart hstop]
  decide

/-- A parser that goes nowhere takes nothing. -/
theorem takes_of_stays {parser : Parser α}
    (hstays : ∀ ⦃before value after⦄, parser.Reads tokens before value after →
      after.next = before.next) : parser.Takes tokens 0 := by
  intro before value after hreads
  rw [hstays hreads]
  exact .nil

section

variable (hordered : tokens.InOrder)

include hordered

/-- A block starts with a colon. -/
theorem blockWithin_takes (depth : Nat) : (blockWithin depth).Takes tokens 1 := by
  intro before stmts after hreads
  have hfits := blockWithin_lays hordered depth hreads
  cases depth with
  | zero => exact (reads_failNext.mp hreads).elim
  | succ depth =>
    obtain ⟨hcolon, hrest⟩ := reads_blockOver.mp hreads
    have hline := stmtLineOver_lays hordered (blockWithin_lays hordered depth)
    split at hrest
    · rename_i hbreak
      obtain ⟨hindent, last, hstmts, hdedent, rfl⟩ := hrest
      have hbody := (stmtsOver_lays hordered hline).takes hstmts
      exact ((((hbody.thenToken hdedent (by decide)).behindToken hindent
        (by decide)).behindToken hbreak (by decide)).behindToken hcolon (by decide))
    · exact ((simpleStmts_lays hordered).takes.look hrest).behindToken hcolon (by decide)

end

end Parser

/-- The methods that take an end of input if they succeed in front of one: the module, and those
that take any token, or a closing one that they are told and which is the end of the input. -/
inductive TakesEnd : {α : Type} → Parser α → Prop where
  | take : TakesEnd Parser.take
  | accept : TakesEnd (Parser.accept .endOfInput)
  | expect : TakesEnd (Parser.expect .endOfInput)
  | comprehension (levels start : Nat) (kind : ComprehensionKind) (element : Expr)
      (value : Option Expr) :
      TakesEnd ((Level.withInner levels).comprehension start .endOfInput kind element value)
  | displayElements (levels : Nat) : TakesEnd ((Level.withInner levels).displayElements .endOfInput)
  | params (levels : Nat) (typeHints : Bool) :
      TakesEnd ((Level.withInner levels).params .endOfInput typeHints)
  | module : TakesEnd Parser.module

section

open PythonOutline.Parser

variable {tokens : Tokens} {bound levels : Nat} (hordered : tokens.InOrder)
  (hends : tokens.EndsAt bound)

include hordered

private theorem Level.comprehension_takes {start : Nat} {close : TokenKind}
    {kind : ComprehensionKind} {element : Expr} {value : Option Expr}
    (hclose : close ≠ .endOfInput) :
    ((Level.withInner levels).comprehension start close kind element value).Takes tokens 0 := by
  intro before result after hreads
  obtain ⟨clauses, last, hclauses, hkind, rfl, -⟩ := Level.reads_comprehension.mp hreads
  have hrun := (Level.forClauses_lays hordered (Level.withInner_lays hordered levels)).takes
    (by decide) hclauses
  exact (hrun.thenToken hkind hclose).mono (Nat.zero_le _)

omit hordered in
private theorem Parser.casePattern_takes : casePattern.Takes tokens 0 := by
  intro before pattern after hreads
  obtain ⟨span, hspan, -⟩ := reads_casePattern.mp hreads
  exact patternStep_advances.takes _ hspan

include hends

private theorem Parser.typeAliasStmt_takes : typeAliasStmt.Takes tokens 0 := by
  intro before stmt after hreads
  obtain ⟨hname, params, middle, hparams, hequals, value, hvalue, -⟩ :=
    reads_typeAliasStmt.mp hreads
  have hvalued := ((expr_lays hordered).takes hvalue).behindToken hequals (by decide)
  have hnamed := (((typeParams_lays hordered).takes (by decide) hparams).append hvalued).behindToken
    hname (by decide)
  have hkind : (tokens.get (before.next + 1)).kind ≠ .endOfInput :=
    hnamed.ne_endOfInput _ (Nat.le_refl _) hnamed.add_le
  exact (hnamed.behindAny hends (Nat.le_succ _) hkind).mono (Nat.zero_le _)

omit hordered in
private theorem Parser.namesStmt_takes {form : List String → StmtForm} :
    (namesStmt form).Takes tokens 0 := by
  intro before stmt after hreads
  obtain ⟨names, hnames, -⟩ := reads_namesStmt.mp hreads
  have hall := takes_identifier.commaSeparated hnames
  have hkind := hall.ne_endOfInput _ (Nat.le_refl _) hall.add_le
  exact (hall.behindAny hends (Nat.le_succ _) hkind).mono (Nat.zero_le _)

private theorem Parser.matchCase_takes (depth : Nat) :
    (matchCase (blockWithin depth)).Takes tokens 0 := by
  intro before case after hreads
  obtain ⟨pattern, middle, hpattern, guard, header, hguard, body, hbody, -⟩ :=
    reads_matchCase.mp hreads
  have hblock := blockWithin_takes hordered depth hbody
  have hguarded : tokens.Run 0 middle.next header.next :=
    ((namedExpr_lays hordered).ifAccepted hordered (by decide) hguard).run (by decide)
  have hheader := (casePattern_takes hpattern).append hguarded
  have hkind := hblock.ne_endOfInput _ (Nat.le_refl _) hblock.add_le
  have hle := Nat.le_of_succ_le hheader.le
  exact ((hheader.append hblock).behindAny hends hle hkind).mono (Nat.zero_le _)

private theorem Parser.groupedWithItems?_takes : groupedWithItems?.Takes tokens 0 := by
  intro before items? after hreads
  cases items? with
  | none =>
    rw [reads_attempt_none hreads]
    exact .nil
  | some items =>
    obtain ⟨last, hitems, -, hcolon, rfl⟩ := reads_groupedWithItems? hreads
    have hlist : tokens.Run 0 before.step.next last.next :=
      (advances_listStep (by decide) (withItem_takes hordered)).takes [] hitems
    have hkind : (tokens.get last.next).kind ≠ .endOfInput := by
      rw [Tokens.get_kind, hcolon]
      decide
    exact (hlist.behindAny hends (Nat.le_of_succ_le hlist.le) hkind).mono (Nat.zero_le _)

private theorem Parser.matchSubject?_takes : matchSubject?.Takes tokens 0 := by
  intro before subject? after hreads
  cases subject? with
  | none =>
    rw [reads_attempt_none hreads]
    exact .nil
  | some subject =>
    obtain ⟨last, hsubject, hcolon, hline, hindent, -, rfl⟩ := reads_matchSubject?.mp hreads
    have hmatched := (Level.starNamedExprs_lays hordered (Level.outermost_lays hordered)).takes
      hsubject
    have hheader := ((hmatched.thenToken hcolon (by decide)).thenToken hline
      (by decide)).thenToken hindent (by decide)
    have hkind := hheader.ne_endOfInput _ (Nat.le_refl _) hheader.add_le
    exact (hheader.behindAny hends (Nat.le_succ _) hkind).mono (Nat.zero_le _)

private theorem Parser.matchStmt?_takes (depth : Nat) :
    (matchStmt? (blockWithin depth)).Takes tokens 0 := by
  intro before stmt? after hreads
  cases stmt? with
  | none =>
    rw [reads_matchStmt?_none hreads]
    exact .nil
  | some stmt =>
    obtain ⟨subject, middle, cases, last, hsubject, hcases, hdedent, rfl, -⟩ :=
      reads_matchStmt?_some hreads
    have hrun := (matchCases_fits hordered (blockWithin_lays hordered depth) hcases).run (by decide)
    exact ((matchSubject?_takes hordered hends hsubject).append
      (hrun.thenToken hdedent (by decide))).mono (Nat.zero_le _)

/-- A method that succeeds takes no end of input, unless it is one of those that are told to. -/
theorem Method.takes {levels : Nat} {α : Type} {parser : Parser α} (hmethod : Method levels parser) :
    TakesEnd parser ∨ parser.Takes tokens 0 := by
  have hlevel := Level.withInner_lays hordered levels
  have hblock := blockWithin_lays hordered maxIndentLevels
  have hsolid : ∀ {β : Type} {parser : Parser β} {nodes : β → List Node},
      parser.Lays tokens TokenKind.IsSolid nodes → TakesEnd parser ∨ parser.Takes tokens 0 :=
    fun hlays => .inr (hlays.takes (by decide))
  have hreadable : ∀ {β : Type} {parser : Parser β} {nodes : β → List Node},
      parser.Lays tokens TokenKind.IsReadable nodes → TakesEnd parser ∨ parser.Takes tokens 0 :=
    fun hlays => .inr (hlays.takes (by decide))
  cases hmethod with
  | peek => exact .inr (takes_of_stays fun _ _ _ hreads => by rw [(reads_peek.mp hreads).2]; rfl)
  | peekTwo =>
    exact .inr (takes_of_stays fun _ _ _ hreads => by rw [(reads_peekTwo.mp hreads).2]; rfl)
  | peekThree =>
    exact .inr (takes_of_stays fun _ _ _ hreads => by rw [(reads_peekThree.mp hreads).2]; rfl)
  | take => exact .inl .take
  | accept kind =>
    by_cases hkind : kind = .endOfInput
    · exact .inl (hkind ▸ .accept)
    · exact .inr (takes_accept hkind)
  | expect kind =>
    by_cases hkind : kind = .endOfInput
    · exact .inl (hkind ▸ .expect)
    · exact .inr ((takes_expect hkind).mono (Nat.zero_le _))
  | identifier => exact .inr (takes_identifier.mono (Nat.zero_le _))
  | numberLiteral => exact hsolid Level.numberLiteral_lays
  | stringLiteral => exact .inr stringLiteral_takes
  | atom => exact hsolid (Level.atom_lays hordered hlevel)
  | primary => exact hsolid (Level.primary_lays hordered hlevel)
  | awaited => exact hsolid (Level.awaited_lays hordered hlevel)
  | power => exact hsolid (Level.power_lays hordered hlevel)
  | factor => exact hsolid (Level.factor_lays hordered hlevel)
  | binary tiers => exact hsolid (Level.binary_lays hordered hlevel tiers)
  | bitwiseOr => exact hsolid (Level.bitwiseOr_lays hordered hlevel)
  | comparisonOperator => exact .inr Level.comparisonOperator?_takes
  | comparison => exact hsolid (Level.comparison_lays hordered hlevel)
  | notTest => exact hsolid (Level.notTest_lays hordered hlevel)
  | andTest => exact hsolid (Level.andTest_lays hordered hlevel)
  | orTest => exact hsolid (Level.orTest_lays hordered hlevel)
  | expr => exact hsolid (Level.expr_lays hordered hlevel)
  | lambdaExpr => exact hsolid (Level.lambdaExpr_lays hordered hlevel)
  | namedExpr => exact hsolid (Level.namedExpr_lays hordered hlevel)
  | starred => exact hsolid (Level.starred_lays hordered hlevel)
  | starExpr => exact hsolid (Level.starExpr_lays hordered hlevel)
  | starNamedExpr => exact hsolid (Level.starNamedExpr_lays hordered hlevel)
  | starExprs => exact hsolid (Level.starExprs_lays hordered hlevel)
  | starNamedExprs => exact hsolid (Level.starNamedExprs_lays hordered hlevel)
  | yieldExpr => exact hsolid (Level.yieldExpr_lays hordered hlevel)
  | yieldOrStarExprs => exact hsolid (Level.yieldOrStarExprs_lays hordered hlevel)
  | targetList => exact hsolid (Level.targetList_lays hordered hlevel)
  | target => exact hsolid (Level.target_lays hordered hlevel)
  | startsForClause =>
    exact .inr (takes_of_stays fun _ _ _ hreads => by rw [(reads_startsForClause.mp hreads).2]; rfl)
  | forClause => exact hsolid (Level.forClause_lays hordered hlevel)
  | forClauses => exact hsolid (Level.forClauses_lays hordered hlevel)
  | comprehension start close kind element value =>
    by_cases hclose : close = .endOfInput
    · exact .inl (hclose ▸ .comprehension levels start kind element value)
    · exact .inr (Level.comprehension_takes hordered hclose)
  | displayElements close =>
    by_cases hclose : close = .endOfInput
    · exact .inl (hclose ▸ .displayElements levels)
    · exact .inr ((advances_listStep hclose
        (Level.starNamedExpr_lays hordered hlevel).takes).takes [])
  | parenDisplay => exact hsolid (Level.parenDisplay_lays hordered hlevel)
  | listDisplay => exact hsolid (Level.listDisplay_lays hordered hlevel)
  | dictEntry => exact hsolid (Level.dictEntry_lays hordered hlevel)
  | braceDisplay => exact hsolid (Level.braceDisplay_lays hordered hlevel)
  | argument => exact hsolid (Level.argument_lays hordered hlevel)
  | arguments => exact hsolid (Level.arguments_lays hordered hlevel)
  | subscript => exact hsolid (Level.subscript_lays hordered hlevel)
  | sliceBound => exact hsolid (Level.sliceBound_lays hordered hlevel)
  | sliceItem => exact hsolid (Level.sliceItem_lays hordered hlevel)
  | param kind typeHints => exact hsolid (Level.param_lays hordered hlevel)
  | params close typeHints =>
    by_cases hclose : close = .endOfInput
    · exact .inl (hclose ▸ .params levels typeHints)
    · exact .inr ((Level.paramsStep_advances hordered levels hclose typeHints).takes _)
  | typeParam => exact hsolid (typeParam_lays hordered)
  | typeParams => exact hsolid (typeParams_lays hordered)
  | assertStmt => exact hsolid (assertStmt_lays hordered)
  | deleteStmt => exact hsolid (deleteStmt_lays hordered)
  | raiseStmt => exact hsolid (raiseStmt_lays hordered)
  | returnStmt => exact hsolid (returnStmt_lays hordered)
  | typeAliasStmt => exact .inr (typeAliasStmt_takes hordered hends)
  | namesStmt form => exact .inr (namesStmt_takes hends)
  | dottedName => exact .inr ((dottedName_takes hordered).mono (Nat.zero_le _))
  | importModules => exact hsolid (importModules_lays hordered)
  | importFrom => exact hsolid (importFrom_lays hordered)
  | expressionStmt => exact hsolid (expressionStmt_lays hordered)
  | simpleStmt => exact hsolid (simpleStmt_lays hordered)
  | simpleStmts => exact .inr (simpleStmts_lays hordered).takes
  | elseBlock => exact .inr (elseBlock_lays hordered hblock).takes
  | ifStmt => exact hreadable (ifStmt_lays hordered hblock)
  | whileStmt => exact hreadable (whileStmt_lays hordered hblock)
  | forStmt => exact hreadable (forStmt_lays hordered hblock)
  | tryStmt => exact hreadable (tryStmt_lays hordered hblock)
  | withItem => exact hsolid (withItem_lays hordered)
  | groupedWithItems => exact .inr (groupedWithItems?_takes hordered hends)
  | withItems => exact hsolid (withItems_lays hordered)
  | withStmt => exact hreadable (withStmt_lays hordered hblock)
  | casePattern => exact .inr casePattern_takes
  | matchCase => exact .inr (matchCase_takes hordered hends _)
  | matchSubject => exact .inr (matchSubject?_takes hordered hends)
  | matchStmt => exact .inr (matchStmt?_takes hordered hends _)
  | definedName =>
    refine .inr fun before name after hreads => ?_
    obtain ⟨hname, rfl, -⟩ := reads_definedName.mp hreads
    exact (Tokens.Run.token hname (by decide)).mono (Nat.zero_le _)
  | decorators => exact hreadable (decorators_lays hordered)
  | classDef decorators =>
    refine .inr fun before form after hreads => ?_
    obtain ⟨params, arguments, body, -, -, hclause, -⟩ := reads_classDef_clause hordered hreads
    exact (hclause.run hordered hblock).mono (Nat.zero_le _)
  | functionDef decorators =>
    refine .inr fun before form after hreads => ?_
    obtain ⟨isAsync, start, params, parameters, returns, body, -, -, -, hclause, -⟩ :=
      reads_functionDef_clause hordered hreads
    exact (hclause.run hordered hblock).mono (Nat.zero_le _)
  | definition => exact hreadable (definition_lays hordered hblock)
  | block => exact hreadable hblock
  | stmtLine => exact hreadable (stmtLineOver_lays hordered hblock)
  | stmts stop => exact hreadable (stmts_lays hordered stop)
  | module => exact .inl .module

end

end PythonOutline
