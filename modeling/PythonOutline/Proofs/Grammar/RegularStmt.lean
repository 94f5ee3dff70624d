import PythonOutline.Proofs.Grammar.Regular
import PythonOutline.Proofs.Tree.LaminarStmt

/-! # Statements are regular

Statements start at the outermost level, so they are scripts for a parser in which no level is open.
-/

namespace PythonOutline.Parser

variable {α : Type} {bound : Nat} {known : List Site}

/-- The levels that a statement may open. -/
abbrev stmtLevels : Nat := Level.maxCount - 1

instance : Regular bound stmtLevels known expr := by
  unfold expr
  infer_instance

instance : Regular bound stmtLevels known namedExpr := by
  unfold namedExpr
  infer_instance

instance : Regular bound stmtLevels known starExprs := by
  unfold starExprs
  infer_instance

instance : Regular bound stmtLevels known yieldOrStarExprs := by
  unfold yieldOrStarExprs
  infer_instance

/-! ## Simple statements -/

instance : Regular bound stmtLevels known typeParamKind := by
  unfold typeParamKind
  infer_instance

instance : Regular bound stmtLevels known typeParam := by
  unfold typeParam
  apply Regular.withSpan
  dsimp only
  infer_instance

instance : Regular bound stmtLevels known typeParams := by
  unfold typeParams
  infer_instance

instance : Regular bound stmtLevels known assertStmt := by
  unfold assertStmt
  infer_instance

instance : Regular bound stmtLevels known deleteStmt := by
  unfold deleteStmt
  apply Regular.withSpan
  refine .seq fun _ => .seq fun first => ?_
  infer_instance

instance : Regular bound stmtLevels known raiseStmt := by
  unfold raiseStmt
  infer_instance

instance : Regular bound stmtLevels known returnStmt := by
  unfold returnStmt
  infer_instance

instance : Regular bound stmtLevels known typeAliasStmt := by
  unfold typeAliasStmt
  infer_instance

instance {form : StmtForm} : Regular bound stmtLevels known (keywordStmt form) := by
  unfold keywordStmt
  infer_instance

instance {form : List String → StmtForm} : Regular bound stmtLevels known (namesStmt form) := by
  unfold namesStmt
  infer_instance

instance : Regular bound stmtLevels known dottedName := by
  unfold dottedName
  infer_instance

instance {name : Parser String} [Regular bound stmtLevels known name] :
    Regular bound stmtLevels known (importAlias name) := by
  unfold importAlias
  infer_instance

instance : Regular bound stmtLevels known importModules := by
  unfold importModules
  infer_instance

instance : Regular bound stmtLevels known leadingDots := by
  unfold leadingDots
  infer_instance

instance : Regular bound stmtLevels known importedNames := by
  unfold importedNames
  infer_instance

instance : Regular bound stmtLevels known importFrom := by
  unfold importFrom
  apply Regular.withSpan
  refine .seq fun _ => .seq fun level => .seq fun starts => ?_
  dsimp only
  split <;> infer_instance

instance {first : Expr} : Regular bound stmtLevels known (assignedValues first) := by
  unfold assignedValues
  infer_instance

instance {target : Expr} [Known (.node target.span) known] :
    Regular bound stmtLevels known (checkSingleTarget target) := by
  unfold checkSingleTarget
  infer_instance

/-- The targets behind the first one have been read, so all of them are known. -/
theorem regular_behindTargets {first : Expr} [hfirst : Known (.node first.span) known]
    {others : List Expr × Expr → Parser α}
    (hothers : ∀ targets value, Regular bound stmtLevels
      ((targets.map fun target : Expr => .node target.span) ++ known) (others (targets, value))) :
    Regular bound stmtLevels known (assignedValues first >>= others) := by
  refine .meeting (fun values => values.1.map fun target => .node target.span) inferInstance ?_
    fun values => hothers values.1 values.2
  rintro tokens before middle ⟨targets, value⟩ _ hplace hknown hreads
  cases reads_assignedValues hreads with
  | last => simp [AllMet]
  | assign hequals hnext hrest =>
    rename_i behind targets next
    intro site hsite
    rcases List.mem_cons.mp hsite with rfl | hsite
    · exact hknown _ hfirst.mem
    · refine Tokens.Fits.allMet (fun hordered =>
        hrest.fits hordered (yieldOrStarExprs_lays hordered hnext)) hplace site ?_
      simp only [List.map_append, List.map_map, Function.comp_def, Expr.node_span]
      exact List.mem_append_left _ hsite

instance : Regular bound stmtLevels known expressionStmt := by
  unfold expressionStmt
  apply Regular.withSpan
  apply Level.regular_behind inferInstance fun _ hordered => yieldOrStarExprs_lays hordered
  intro first
  apply Regular.seq
  intro kind
  split
  · infer_instance
  split
  · infer_instance
  split
  · apply regular_behindTargets
    intro targets value
    dsimp only
    split
    · rename_i invalid hinvalid
      have hknown : Known (.node invalid.span)
          ((targets.map fun target : Expr => .node target.span) ++ .node first.span :: known) :=
        ⟨List.mem_append_left _ (List.mem_map_of_mem (List.mem_of_find?_eq_some hinvalid))⟩
      infer_instance
    · infer_instance
  · infer_instance

instance : Regular bound stmtLevels known simpleStmt := by
  unfold simpleStmt
  apply Regular.seqPeekThree
  intro first second third
  dsimp only
  split <;> infer_instance

instance : Regular bound stmtLevels known simpleStmts := by
  unfold simpleStmts
  infer_instance

/-! ## Compound statements -/

section

variable {block : Parser (List Stmt)} [∀ known, Regular bound stmtLevels known block]

instance : Regular bound stmtLevels known (elseBlock block) := by
  unfold elseBlock
  infer_instance

instance : Regular bound stmtLevels known (ifClause block) := by
  unfold ifClause
  infer_instance

instance : Regular bound stmtLevels known (ifStmt block) := by
  unfold ifStmt
  apply Regular.seq
  intro first
  apply Regular.seq
  intro (outer, last)
  apply Regular.seq
  intro alternate
  let close (spanOf : Nat → Span) (clause : IfClause) (alternate : List Stmt) : Stmt :=
    ⟨spanOf clause.start, .conditional clause.test clause.body alternate⟩
  exact regular_spans fun spanOf =>
    outer.foldl (fun inner clause => close spanOf clause [inner]) (close spanOf last alternate)

instance : Regular bound stmtLevels known (whileStmt block) := by
  unfold whileStmt
  infer_instance

instance : Regular bound stmtLevels known (forStmt block) := by
  unfold forStmt
  infer_instance

instance : Regular bound stmtLevels known (handler block) := by
  unfold handler
  dsimp only
  infer_instance

instance : Regular bound stmtLevels known (tryStmt block) := by
  have hfinally : ∀ {known}, Regular bound stmtLevels known
      (expectOr .keywordFinally .tryWithoutHandlers) :=
    regular_expectOr (by decide)
  unfold tryStmt
  dsimp only
  infer_instance

instance : Regular bound stmtLevels known withItem := by
  unfold withItem
  infer_instance

instance : Regular bound stmtLevels known groupedWithItems? := by
  unfold groupedWithItems?
  infer_instance

instance : Regular bound stmtLevels known withItems := by
  unfold withItems
  apply Regular.seq
  intro grouped
  dsimp only
  split
  · apply Regular.seq
    intro items
    split <;> infer_instance
  · infer_instance

instance : Regular bound stmtLevels known (withStmt block) := by
  unfold withStmt
  infer_instance

instance : Regular bound stmtLevels known patternSpan? := by
  unfold patternSpan?
  infer_instance

instance : Regular bound stmtLevels known casePattern := by
  unfold casePattern
  apply Regular.seq
  intro span
  split
  · rename_i span
    exact @Regular.source _ _ _ _
      (fun text _ => pure (String.ofList (Text.slice text span.start span.stop)))
      fun _ _ => inferInstance
  · infer_instance

instance : Regular bound stmtLevels known (matchCase block) := by
  unfold matchCase
  infer_instance

instance : Regular bound stmtLevels known matchSubject? := by
  unfold matchSubject?
  infer_instance

instance : Regular bound stmtLevels known (matchStmt? block) := by
  unfold matchStmt?
  apply Regular.seq
  intro start
  apply Regular.seq
  intro subject
  split <;> infer_instance

/-! ## Definitions and modules -/

instance : Regular bound stmtLevels known definedName := by
  unfold definedName
  infer_instance

instance : Regular bound stmtLevels known decorator := by
  unfold decorator
  infer_instance

instance : Regular bound stmtLevels known decorators := by
  unfold decorators
  infer_instance

instance {decorators : List Decorator} :
    Regular bound stmtLevels known (classDef block decorators) := by
  unfold classDef
  infer_instance

instance {decorators : List Decorator} :
    Regular bound stmtLevels known (functionDef block decorators) := by
  unfold functionDef
  infer_instance

instance : Regular bound stmtLevels known (definition block) := by
  unfold definition
  apply Regular.withSpan
  apply Regular.seq
  intro decorators
  apply Regular.seqPeek
  intro token
  split <;> infer_instance

instance : Regular bound stmtLevels known (stmtLineOver block) := by
  unfold stmtLineOver
  apply Regular.seqPeekTwo
  intro first second
  dsimp only
  split
  case h_10 =>
    split
    · apply Regular.seq
      intro stmt
      split <;> infer_instance
    · infer_instance
  case h_4 => split <;> infer_instance
  all_goals infer_instance

end

instance {line : Parser (List Stmt)} {stop : TokenKind} [∀ known, Regular bound stmtLevels known line] :
    Regular bound stmtLevels known (stmtsOver line stop) := by
  unfold stmtsOver
  infer_instance

instance {line : Parser (List Stmt)} [∀ known, Regular bound stmtLevels known line] :
    Regular bound stmtLevels known (blockOver line) := by
  have hindent : ∀ {known}, Regular bound stmtLevels known
      (expectOr .indent .expectedIndentedBlock) :=
    regular_expectOr (by decide)
  unfold blockOver
  infer_instance

instance {depth : Nat} : Regular bound stmtLevels known (blockWithin depth) := by
  induction depth generalizing known with
  | zero =>
    unfold blockWithin
    infer_instance
  | succ depth ih =>
    unfold blockWithin
    infer_instance

instance : Regular bound stmtLevels known block := by
  unfold block
  infer_instance

instance : Regular bound stmtLevels known stmtLine := by
  unfold stmtLine
  infer_instance

instance {stop : TokenKind} : Regular bound stmtLevels known (stmts stop) := by
  unfold stmts
  infer_instance

instance : Regular bound stmtLevels known module := by
  unfold module
  apply Regular.seq
  intro body
  apply Regular.seq
  intro _
  exact @Regular.source Module _ _ _ (fun _ size => pure ⟨⟨0, size⟩, body⟩) fun _ _ => inferInstance

end PythonOutline.Parser
