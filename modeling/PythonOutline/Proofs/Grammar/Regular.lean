import PythonOutline.Parser.Module
import PythonOutline.Proofs.Grammar.ArgumentOrder
import PythonOutline.Proofs.Parser.Regular
import PythonOutline.Proofs.Tree.LaminarDisplay

/-! # The expression grammar is regular -/

namespace PythonOutline

/-- The nodes within a run of tokens are met once its end is reached. -/
theorem Tokens.Fits.allMet {tokens : Tokens} {allowed : TokenKind → Prop} {start stop seen : Nat}
    {nodes : List Node} (hfits : tokens.InOrder → tokens.Fits allowed start stop nodes)
    (hseen : stop ≤ seen) :
    Parser.AllMet (nodes.map fun node => .node node.span) tokens seen := by
  intro site hsite
  obtain ⟨node, hnode, rfl⟩ := List.mem_map.mp hsite
  intro hordered
  obtain ⟨-, first, last, -, hle, hlast, hspan⟩ := (hfits hordered).sits node hnode
  exact ⟨first, last, hle, Nat.lt_of_lt_of_le hlast hseen, hspan⟩

open PythonOutline.Parser

variable {α : Type} {bound levels : Nat} {known : List Site}

/-- The parsers of the constructs inside a level are regular, and the level lays out what
they read. -/
class Level.IsRegular (bound levels : Nat) (level : Level) : Prop where
  innerLambda : ∀ known, Regular bound levels known level.innerLambda
  innerExpr : ∀ known, Regular bound levels known level.innerExpr
  innerNotTest : ∀ known, Regular bound levels known level.innerNotTest
  innerFactor : ∀ known, Regular bound levels known level.innerFactor
  innerArguments : ∀ known, Regular bound levels known level.innerArguments
  innerIndex : ∀ known, Regular bound levels known level.innerIndex
  innerParens : ∀ known, Regular bound levels known level.innerParens
  innerBrackets : ∀ known, Regular bound levels known level.innerBrackets
  innerBraces : ∀ known, Regular bound levels known level.innerBraces
  lays : ∀ tokens : Tokens, tokens.InOrder → level.Lays tokens

attribute [instance] Level.IsRegular.innerLambda Level.IsRegular.innerExpr
  Level.IsRegular.innerNotTest Level.IsRegular.innerFactor Level.IsRegular.innerArguments
  Level.IsRegular.innerIndex Level.IsRegular.innerParens Level.IsRegular.innerBrackets
  Level.IsRegular.innerBraces

namespace Parser

instance : Regular bound levels known numberLiteral := by
  unfold numberLiteral
  infer_instance

instance : Regular bound levels known stringLiteral := by
  unfold stringLiteral
  infer_instance

instance : Regular bound levels known startsForClause := by
  unfold startsForClause
  infer_instance

end Parser

namespace Level

section

variable {level : Level} [hlevel : level.IsRegular bound levels]

/-! ## Operands -/

instance : Regular bound levels known level.atom := by
  unfold atom
  apply Regular.seqPeek
  intro token
  split <;> infer_instance

instance : Regular bound levels known level.primary := by
  unfold primary
  apply Regular.seq
  intro start
  apply Regular.seq
  intro first
  apply Regular.loop
  intro value
  apply Regular.seq
  intro kind
  split <;> infer_instance

instance : Regular bound levels known level.awaited := by
  unfold awaited
  infer_instance

instance : Regular bound levels known level.power := by
  unfold power
  infer_instance

instance : Regular bound levels known level.factor := by
  unfold factor
  apply Regular.seq
  intro kind
  split <;> infer_instance

/-! ## Expressions -/

instance {precedence : Nat} {operand : Parser Expr} [Regular bound levels known operand] :
    Regular bound levels known (leftChain precedence operand) := by
  unfold leftChain
  apply Regular.seq
  intro first
  apply Regular.loop
  intro left
  apply Regular.seq
  intro kind
  split <;> infer_instance

instance {tiers : Nat} : Regular bound levels known (level.binary tiers) := by
  induction tiers with
  | zero =>
    unfold binary
    infer_instance
  | succ tiers ih =>
    unfold binary
    infer_instance

instance : Regular bound levels known level.bitwiseOr := by
  unfold bitwiseOr
  infer_instance

instance : Regular bound levels known comparisonOperator? := by
  unfold comparisonOperator?
  apply Regular.seqPeekTwo
  intro first second
  dsimp only
  split
  · infer_instance
  · infer_instance
  · split <;> infer_instance

instance : Regular bound levels known level.comparison := by
  unfold comparison
  apply Regular.seq
  intro start
  apply Regular.seq
  intro left
  have hcompare : ∀ compared : List (Operator × Expr), Regular bound levels known (do
      match ← comparisonOperator? with
      | none => return .done compared.reverse
      | some operator => return .next ((operator, ← level.bitwiseOr) :: compared) :
        Parser (Step (List (Operator × Expr)) (List (Operator × Expr)))) := by
    intro compared
    apply Regular.seq
    intro operator
    split <;> infer_instance
  infer_instance

instance : Regular bound levels known level.notTest := by
  unfold notTest
  infer_instance

instance {operator : Operator} {keyword : TokenKind} {operand : Parser Expr}
    [Regular bound levels known operand] :
    Regular bound levels known (booleanChain operator keyword operand) := by
  unfold booleanChain
  infer_instance

instance : Regular bound levels known level.andTest := by
  unfold andTest
  infer_instance

instance : Regular bound levels known level.orTest := by
  unfold orTest
  infer_instance

instance : Regular bound levels known level.expr := by
  unfold expr
  apply Regular.seq
  intro isLambda
  infer_instance

instance : Regular bound levels known level.namedExpr := by
  unfold namedExpr
  infer_instance

instance : Regular bound levels known level.starred := by
  unfold starred
  infer_instance

instance {other : Parser Expr} [Regular bound levels known other] :
    Regular bound levels known (level.starredOr other) := by
  unfold starredOr
  infer_instance

instance : Regular bound levels known level.starExpr := by
  unfold starExpr
  infer_instance

instance : Regular bound levels known level.starNamedExpr := by
  unfold starNamedExpr
  infer_instance

instance {item : Parser Expr} [Regular bound levels known item] :
    Regular bound levels known (tupleOf item) := by
  unfold tupleOf
  apply Regular.seq
  intro start
  apply Regular.seq
  intro first
  infer_instance

instance : Regular bound levels known level.starExprs := by
  unfold starExprs
  infer_instance

instance : Regular bound levels known level.starNamedExprs := by
  unfold starNamedExprs
  infer_instance

instance : Regular bound levels known level.yieldExpr := by
  unfold yieldExpr
  infer_instance

instance : Regular bound levels known level.yieldOrStarExprs := by
  unfold yieldOrStarExprs
  infer_instance

/-! ## Targets -/

omit hlevel in
/-- An expression is known to whoever goes on behind it. -/
theorem regular_behind {parser : Parser Expr} {others : Expr → Parser α}
    (hparser : Regular bound levels known parser)
    (hlays : ∀ tokens : Tokens, tokens.InOrder → parser.LaysExpr tokens)
    (hothers : ∀ value : Expr, Regular bound levels (.node value.span :: known) (others value)) :
    Regular bound levels known (parser >>= others) := by
  refine .meeting (fun value => [.node value.span]) hparser ?_ hothers
  intro tokens before middle value _ hplace _ hreads
  have hmet := Tokens.Fits.allMet (fun hordered => hlays tokens hordered hreads) hplace
  simpa using hmet

omit hlevel in
instance {target : Expr} [Known (.node target.span) known] :
    Regular bound levels known (checkTarget target) := by
  unfold checkTarget
  infer_instance

instance : Regular bound levels known level.target :=
  regular_behind inferInstance
    (fun tokens hordered => bitwiseOr_lays hordered (hlevel.lays tokens hordered)) inferInstance

instance : Regular bound levels known level.targetList :=
  regular_behind inferInstance
    (fun tokens hordered =>
      tupleOf_lays hordered (starredOr_lays hordered (hlevel.lays tokens hordered)
        (bitwiseOr_lays hordered (hlevel.lays tokens hordered)))) inferInstance

/-! ## Displays -/

instance : Regular bound levels known level.forClause := by
  unfold forClause
  infer_instance

instance : Regular bound levels known level.forClauses := by
  unfold forClauses
  infer_instance

instance {start : Nat} {close : TokenKind} {kind : ComprehensionKind} {element : Expr}
    {value : Option Expr} :
    Regular bound levels known (level.comprehension start close kind element value) := by
  unfold comprehension
  infer_instance

instance {close : TokenKind} : Regular bound levels known (level.displayElements close) := by
  unfold displayElements
  infer_instance

instance : Regular bound levels known level.parenDisplay := by
  unfold parenDisplay
  refine .seq fun start => .seq fun _ => .seq fun closed => ?_
  split
  · infer_instance
  · refine .seq fun yields => ?_
    split <;> infer_instance

instance : Regular bound levels known level.listDisplay := by
  unfold listDisplay
  refine .seq fun start => .seq fun _ => .seq fun closed => ?_
  split <;> infer_instance

instance : Regular bound levels known level.dictEntry := by
  unfold dictEntry
  infer_instance

instance {start : Nat} {first : Expr} :
    Regular bound levels known (level.setDisplay start first) := by
  unfold setDisplay
  infer_instance

instance {start entryStart : Nat} {key : Expr} :
    Regular bound levels known (level.dictDisplay start entryStart key) := by
  unfold dictDisplay
  infer_instance

instance : Regular bound levels known level.braceDisplay := by
  unfold braceDisplay
  refine .seq fun start => .seq fun _ => .seq fun kind => ?_
  split <;> infer_instance

/-! ## Arguments and subscripts -/

instance : Regular bound levels known level.positionalArgument := by
  unfold positionalArgument
  infer_instance

instance : Regular bound levels known level.argument := by
  unfold argument
  apply Regular.withSpan
  apply Regular.seqPeekTwo
  intro first second
  dsimp only
  split <;> infer_instance

instance : Regular bound levels known level.arguments := by
  unfold arguments
  refine .meeting (fun arguments => arguments.map fun argument => .node argument.span)
    inferInstance ?_ fun arguments => ?_
  · intro tokens before middle arguments _ hplace _ hreads
    have hmet := Tokens.Fits.allMet (fun hordered => Lays.lists hordered
      (argument_lays hordered (hlevel.lays tokens hordered)) (by decide) (by decide)
      (.of_reads hreads)) hplace
    rwa [List.map_map] at hmet
  · split
    · rename_i misplaced hmisplaced
      obtain ⟨front, argument, others, cause, rfl, -, -, rfl⟩ :=
        Argument.refused_of_misplaced? hmisplaced
      have hknown : Known (.node argument.span)
          (((front ++ argument :: others).map fun argument => .node argument.span) ++ known) :=
        ⟨List.mem_append_left _ (List.mem_map_of_mem (by simp))⟩
      infer_instance
    · infer_instance

instance : Regular bound levels known level.sliceBound := by
  unfold sliceBound
  apply Regular.seq
  intro kind
  split <;> infer_instance

instance {start : Nat} {lower : Option Expr} :
    Regular bound levels known (level.sliceRest start lower) := by
  unfold sliceRest
  infer_instance

instance : Regular bound levels known level.sliceItem := by
  unfold sliceItem
  infer_instance

instance : Regular bound levels known level.subscript := by
  unfold subscript
  refine .seq fun start => .seq fun first => ?_
  infer_instance

/-! ## Parameters -/

instance {kind : ParamKind} {typeHints : Bool} :
    Regular bound levels known (level.param kind typeHints) := by
  unfold param
  apply Regular.withSpan
  refine .seq fun name => ?_
  dsimp only
  split <;> infer_instance

instance {typeHints : Bool} {state : ParamsState} :
    Regular bound levels known (level.paramsEntry typeHints state) := by
  unfold paramsEntry
  apply Regular.seqPeek
  intro token
  simp only [throw_bind]
  split
  · infer_instance
  split
  · apply Regular.seqTake
    intro _
    split <;> infer_instance
  · infer_instance
  · infer_instance
  · infer_instance
  · refine .meeting (fun param => [.node param.span]) inferInstance ?_ fun param => ?_
    · intro tokens before middle param _ hplace _ hreads
      exact Tokens.Fits.allMet
        (fun hordered => param_lays hordered (hlevel.lays tokens hordered) hreads) hplace
    · rw [List.singleton_append]
      infer_instance

instance {close : TokenKind} {typeHints : Bool} :
    Regular bound levels known (level.params close typeHints) := by
  unfold params
  infer_instance

instance : Regular bound levels known level.lambdaExpr := by
  unfold lambdaExpr
  infer_instance

end

/-! ## Levels -/

private theorem innermost_isRegular : innermost.IsRegular bound 0 where
  innerLambda _ := .tooDeep
  innerExpr _ := .tooDeep
  innerNotTest _ := .tooDeep
  innerFactor _ := .tooDeep
  innerArguments _ := .tooDeep
  innerIndex _ := .tooDeep
  innerParens _ := .tooDeep
  innerBrackets _ := .tooDeep
  innerBraces _ := .tooDeep
  lays _ hordered := withInner_lays hordered 0

/-- Each level is regular since the ones inside it are: induction on their number. -/
private theorem withInner_isRegular (count : Nat) : (withInner count).IsRegular bound count := by
  induction count with
  | zero => exact innermost_isRegular
  | succ count ih =>
    exact {
      innerLambda := fun _ => .nested (inferInstanceAs (Regular _ _ _ (withInner count).lambdaExpr))
      innerExpr := fun _ => .nested (inferInstanceAs (Regular _ _ _ (withInner count).expr))
      innerNotTest := fun _ => .nested (inferInstanceAs (Regular _ _ _ (withInner count).notTest))
      innerFactor := fun _ => .nested (inferInstanceAs (Regular _ _ _ (withInner count).factor))
      innerArguments := fun _ => .nested (inferInstanceAs (Regular _ _ _
        (take >>= fun _ => (withInner count).arguments)))
      innerIndex := fun _ => .nested (inferInstanceAs (Regular _ _ _ (do
        let _ ← take
        let index ← (withInner count).subscript
        let _ ← expect .bracketClose
        return index)))
      innerParens := fun _ => .nested (inferInstanceAs (Regular _ _ _
        (withInner count).parenDisplay))
      innerBrackets := fun _ => .nested (inferInstanceAs (Regular _ _ _
        (withInner count).listDisplay))
      innerBraces := fun _ => .nested (inferInstanceAs (Regular _ _ _
        (withInner count).braceDisplay))
      lays := fun _ hordered => withInner_lays hordered (count + 1) }

instance {count : Nat} : (withInner count).IsRegular bound count :=
  withInner_isRegular count

instance : outermost.IsRegular bound (maxCount - 1) :=
  withInner_isRegular _

end Level

end PythonOutline
