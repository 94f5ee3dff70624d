import PythonOutline.Proofs.Grammar.DepthBlock
import PythonOutline.Proofs.Grammar.Traces

/-! # Statements trace their errors about nesting

Statements start at the outermost level of expressions, and blocks open no level of them. Blocks
that nest too deep are another matter, so the innermost blocks here fail in another way. -/

namespace PythonOutline.Parser

variable {low : Nat}

instance : Level.outermost.IsForward :=
  inferInstanceAs (Level.withInner (Level.maxCount - 1)).IsForward

instance : Traces Level.outermost low expr := by
  unfold expr
  infer_instance

instance : Traces Level.outermost low namedExpr := by
  unfold namedExpr
  infer_instance

instance : Traces Level.outermost low starExprs := by
  unfold starExprs
  infer_instance

instance : Traces Level.outermost low yieldOrStarExprs := by
  unfold yieldOrStarExprs
  infer_instance

/-! ## Simple statements -/

instance : Traces Level.outermost low typeParamKind := by
  unfold typeParamKind
  infer_instance

instance : Traces Level.outermost low typeParam := by
  unfold typeParam
  apply Traces.withSpan
  dsimp only
  infer_instance

instance : Traces Level.outermost low typeParams := by
  unfold typeParams
  infer_instance

instance : Traces Level.outermost low assertStmt := by
  unfold assertStmt
  infer_instance

instance : Traces Level.outermost low deleteStmt := by
  unfold deleteStmt
  apply Traces.withSpan
  refine .seq fun _ => .seq fun first => ?_
  infer_instance

instance : Traces Level.outermost low raiseStmt := by
  unfold raiseStmt
  infer_instance

instance : Traces Level.outermost low returnStmt := by
  unfold returnStmt
  infer_instance

instance : Traces Level.outermost low typeAliasStmt := by
  unfold typeAliasStmt
  infer_instance

instance {form : StmtForm} : Traces Level.outermost low (keywordStmt form) := by
  unfold keywordStmt
  infer_instance

instance {form : List String → StmtForm} : Traces Level.outermost low (namesStmt form) := by
  unfold namesStmt
  infer_instance

instance : Traces Level.outermost low dottedName := by
  unfold dottedName
  infer_instance

instance {name : Parser String} [Traces Level.outermost low name] :
    Traces Level.outermost low (importAlias name) := by
  unfold importAlias
  infer_instance

instance : Traces Level.outermost low importModules := by
  unfold importModules
  infer_instance

instance : Traces Level.outermost low leadingDots := by
  unfold leadingDots
  infer_instance

instance : Traces Level.outermost low importedNames := by
  unfold importedNames
  infer_instance

instance : Traces Level.outermost low importFrom := by
  unfold importFrom
  apply Traces.withSpan
  refine .seq fun _ => .seq fun level => .seq fun starts => ?_
  dsimp only
  split <;> infer_instance

instance {target : Expr} : Traces Level.outermost low (checkSingleTarget target) := by
  unfold checkSingleTarget
  infer_instance

instance {first : Expr} : Traces Level.outermost low (assignedValues first) := by
  unfold assignedValues
  infer_instance

instance : Traces Level.outermost low expressionStmt := by
  unfold expressionStmt
  refine .withSpan (.seq fun first => .seq fun kind => ?_)
  split
  · infer_instance
  split
  · infer_instance
  split
  · refine .seq fun assigned => ?_
    obtain ⟨targets, value⟩ := assigned
    dsimp only
    split <;> infer_instance
  · infer_instance

instance : Traces Level.outermost low simpleStmt := by
  unfold simpleStmt
  refine .seq fun kinds => ?_
  obtain ⟨first, second, third⟩ := kinds
  dsimp only
  split <;> infer_instance

instance : Traces Level.outermost low simpleStmts := by
  unfold simpleStmts
  infer_instance

/-! ## Compound statements -/

section

variable {block : Parser (List Stmt)} [Traces Level.outermost low block]

instance : Traces Level.outermost low (elseBlock block) := by
  unfold elseBlock
  infer_instance

instance : Traces Level.outermost low (ifClause block) := by
  unfold ifClause
  infer_instance

instance : Traces Level.outermost low (ifStmt block) := by
  unfold ifStmt
  infer_instance

instance : Traces Level.outermost low (whileStmt block) := by
  unfold whileStmt
  infer_instance

instance : Traces Level.outermost low (forStmt block) := by
  unfold forStmt
  infer_instance

instance : Traces Level.outermost low (handler block) := by
  unfold handler
  refine .seq fun start => .seq fun _ => .seq fun star => ?_
  infer_instance

instance : Traces Level.outermost low (tryStmt block) := by
  unfold tryStmt
  dsimp only
  infer_instance

instance : Traces Level.outermost low withItem := by
  unfold withItem
  infer_instance

instance : Traces Level.outermost low groupedWithItems? := by
  unfold groupedWithItems?
  infer_instance

instance : Traces Level.outermost low withItems := by
  unfold withItems
  refine .seq fun grouped => ?_
  split
  · refine .seq fun items => ?_
    split <;> infer_instance
  · infer_instance

instance : Traces Level.outermost low (withStmt block) := by
  unfold withStmt
  infer_instance

instance : Traces Level.outermost low patternSpan? := by
  unfold patternSpan?
  infer_instance

instance : Traces Level.outermost low casePattern := by
  unfold casePattern
  refine .seq fun span => ?_
  split <;> infer_instance

instance : Traces Level.outermost low (matchCase block) := by
  unfold matchCase
  infer_instance

instance : Traces Level.outermost low matchSubject? := by
  unfold matchSubject?
  refine @Traces.attempt _ _ _ _ (.seq fun _ => .seq fun subject => .seq fun opens => ?_)
  split <;> infer_instance

instance : Traces Level.outermost low (matchStmt? block) := by
  unfold matchStmt?
  refine .seq fun start => .seq fun subject => ?_
  split <;> infer_instance

/-! ## Definitions and modules -/

instance : Traces Level.outermost low definedName := by
  unfold definedName
  infer_instance

instance : Traces Level.outermost low decorator := by
  unfold decorator
  infer_instance

instance : Traces Level.outermost low decorators := by
  unfold decorators
  infer_instance

instance {decorators : List Decorator} :
    Traces Level.outermost low (classDef block decorators) := by
  unfold classDef
  infer_instance

instance {decorators : List Decorator} :
    Traces Level.outermost low (functionDef block decorators) := by
  unfold functionDef
  infer_instance

instance : Traces Level.outermost low (definition block) := by
  unfold definition
  refine .withSpan (.seq fun decorators => .seq fun token => ?_)
  split <;> infer_instance

instance : Traces Level.outermost low (stmtLineOver block) := by
  unfold stmtLineOver
  refine .seq fun kinds => ?_
  obtain ⟨first, second⟩ := kinds
  dsimp only
  split
  case h_10 =>
    split
    · refine .seq fun stmt => ?_
      split <;> infer_instance
    · infer_instance
  case h_4 => split <;> infer_instance
  all_goals infer_instance

end

instance {line : Parser (List Stmt)} {stop : TokenKind} [Traces Level.outermost low line] :
    Traces Level.outermost low (stmtsOver line stop) := by
  unfold stmtsOver
  infer_instance

instance {line : Parser (List Stmt)} [Traces Level.outermost low line] :
    Traces Level.outermost low (blockOver line) := by
  unfold blockOver
  infer_instance

instance {depth : Nat} :
    Traces Level.outermost low (blockNesting (failNext .unexpectedEnd) depth) := by
  induction depth with
  | zero =>
    unfold blockNesting
    infer_instance
  | succ depth ih =>
    unfold blockNesting
    infer_instance

instance {depth : Nat} :
    Traces Level.outermost low (moduleNesting (failNext .unexpectedEnd) depth) := by
  unfold moduleNesting
  infer_instance

end PythonOutline.Parser
