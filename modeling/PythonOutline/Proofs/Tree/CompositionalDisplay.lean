import PythonOutline.Proofs.Grammar.ParamEntry
import PythonOutline.Proofs.Tree.CompositionalExpr
import PythonOutline.Proofs.Tree.StmtExprs

/-! # Compositional properties of displays, arguments and parameters

The elements of displays, arguments, subscripts and lambdas are read at the level that their opening
token opens, and each of them is nested in what it is a part of. So by induction from the innermost
level on, a level reads expressions that have a compositional property at the number of levels that
can be opened from it. -/

namespace PythonOutline

open PythonOutline.Expr PythonOutline.Parser

attribute [local simp] ExprForm.besideParts ExprForm.nestedParts ExprForm.comprehensionParts

namespace Level

variable {tokens : Tokens} {property : Nat → Role → Expr → Prop} {bound : Nat} {level : Level}
  {before after : Place}

section

variable (hlevel : level.Composes tokens property bound)

include hlevel

/-! ## Displays -/

private theorem forClause_composes : level.forClause.Ensures tokens fun clause =>
    clause.target.IsAssignable ∧ AllHave (property (bound + 1) .plain) clause.parts := by
  intro before clause after hreads
  obtain ⟨_, _, target, _, iterable, _, conditions, -, -, hreadsTarget, -, hreadsIterable,
    hreadsConditions, rfl⟩ := reads_forClause hreads
  have htarget := targetList_composes hlevel hreadsTarget
  have hiterable := orTest_composes hlevel hreadsIterable
  have hitem : (do let _ ← take; level.orTest).Ensures tokens (property (bound + 1) .plain) := by
    intro before value after hreads
    obtain ⟨_, _, -, hvalue⟩ := reads_bind.mp hreads
    exact orTest_composes hlevel hvalue
  have hconditions : AllHave (property (bound + 1) .plain) conditions :=
    hitem.repeats hreadsConditions
  exact ⟨targetList_assignable hreadsTarget,
    by simpa [ForClause.parts] using ⟨htarget, hiterable, hconditions⟩⟩

/-- A comprehension that is begun in front of a clause has one. Its parts are nested in it unless it
is a generator. -/
theorem composes_of_clauses {kind : ComprehensionKind} {element : Expr} {second : Option Expr}
    {clauses : List ForClause} {span : Span} (hstarts : tokens.startsFor before)
    (hclauses : level.forClauses.Reads tokens (before.look 1) clauses after)
    (helement : property (bound + 1) .plain element)
    (hsecond : ∀ value ∈ second, property (bound + 1) .plain value)
    (hkind : second.isSome ↔ kind = .dict) :
    property (if kind = .generator then bound + 1 else bound + 2) .plain
      ⟨span, .comprehension kind element second clauses⟩ := by
  have hrepeats := reads_forClauses hclauses
  have hall := (forClause_composes hlevel).repeats hrepeats
  have hne : clauses ≠ [] := by
    rintro rfl
    cases hrepeats with
    | stop hstop => exact Bool.false_ne_true ((reads_startsForClause.mp hstop).1.trans hstarts)
  have hform : (ExprForm.comprehension kind element second clauses).WellFormed :=
    ⟨hne, hkind, fun clause hclause => (hall clause hclause).1⟩
  have hclause : ∀ clause ∈ clauses, AllHave (property (bound + 1) .plain) clause.parts :=
    fun clause hclause => (hall clause hclause).2
  have hparts : AllHave (property (bound + 1) .plain)
      (ExprForm.comprehensionParts element second clauses) := by
    simpa using ⟨helement, hsecond, hclause⟩
  cases kind with
  | generator => exact hlevel.compositional.beside hform rfl hparts rfl
  | dict | list | set => exact hlevel.compositional.nested hform rfl rfl hparts

private theorem comprehension_composes {start : Nat} {close : TokenKind} {kind : ComprehensionKind}
    {element value : Expr} {second : Option Expr} (hstarts : tokens.startsFor before)
    (hreads : (level.comprehension start close kind element second).Reads tokens (before.look 1) value
      after)
    (helement : property (bound + 1) .plain element)
    (hsecond : ∀ value ∈ second, property (bound + 1) .plain value)
    (hkind : second.isSome ↔ kind = .dict) :
    property (if kind = .generator then bound + 1 else bound + 2) .plain value := by
  obtain ⟨clauses, last, hclauses, -, -, rfl⟩ := reads_comprehension.mp hreads
  exact composes_of_clauses hlevel hstarts hclauses helement hsecond hkind

private theorem displayElements_compose {close : TokenKind} {elements : List Expr}
    (hreads : (level.displayElements close).Reads tokens before elements after) :
    AllHave (property (bound + 1) .plain) elements :=
  (starNamedExpr_composes hlevel).lists (reads_displayElements hreads)

/-- What stands in parentheses is nested no deeper than they are. -/
theorem parenDisplay_composes :
    level.parenDisplay.Ensures tokens (property (bound + 1) .plain) := by
  intro before value after hreads
  obtain ⟨-, hrest⟩ := reads_parenDisplay.mp hreads
  split at hrest
  · rw [hrest.2]
    exact hlevel.compositional.leaf trivial rfl rfl rfl
  split at hrest
  · obtain ⟨_, hyield, -, -⟩ := hrest
    exact yieldExpr_composes hlevel hyield
  obtain ⟨first, middle, hreadsFirst, hrest⟩ := hrest
  have hfirst := starNamedExpr_composes hlevel hreadsFirst
  split at hrest
  · exact comprehension_composes hlevel ‹_› hrest hfirst (by simp) (by simp)
  split at hrest
  · obtain ⟨others, hreadsOthers, rfl⟩ := hrest
    have hothers := displayElements_compose hlevel hreadsOthers
    exact hlevel.compositional.beside trivial rfl (by simpa using ⟨hfirst, hothers⟩) rfl
  · rw [hrest.2.2]
    exact hfirst

private theorem listDisplay_composes :
    level.listDisplay.Ensures tokens (property (bound + 2) .plain) := by
  intro before value after hreads
  obtain ⟨-, hrest⟩ := reads_listDisplay.mp hreads
  split at hrest
  · obtain ⟨elements, hreadsElements, rfl⟩ := hrest
    have helements := displayElements_compose hlevel hreadsElements
    exact hlevel.compositional.nested trivial rfl rfl (by simpa using helements)
  obtain ⟨first, middle, hreadsFirst, hrest⟩ := hrest
  have hfirst := starNamedExpr_composes hlevel hreadsFirst
  split at hrest
  · exact comprehension_composes hlevel ‹_› hrest hfirst (by simp) (by simp)
  split at hrest
  · obtain ⟨others, hreadsOthers, rfl⟩ := hrest
    have hothers := displayElements_compose hlevel hreadsOthers
    exact hlevel.compositional.nested trivial rfl rfl (by simpa using ⟨hfirst, hothers⟩)
  · rw [hrest.2.2]
    exact hlevel.compositional.nested trivial rfl rfl (by simpa using hfirst)

private theorem dictEntry_composes : level.dictEntry.Ensures tokens fun entry =>
    AllHave (property (bound + 1) .plain) entry.parts := by
  intro before entry after hreads
  rw [reads_dictEntry] at hreads
  split at hreads
  · obtain ⟨mapping, hreadsMapping, rfl⟩ := hreads
    have hmapping := bitwiseOr_composes hlevel hreadsMapping
    simpa [DictEntry.parts] using hmapping
  · obtain ⟨key, _, hreadsKey, -, value, hreadsValue, rfl⟩ := hreads
    have hkey := expr_composes hlevel hreadsKey
    have hvalue := expr_composes hlevel hreadsValue
    simpa [DictEntry.parts] using ⟨hkey, hvalue⟩

private theorem setDisplay_composes {start : Nat} {first : Expr}
    (hfirst : property (bound + 1) .plain first) :
    (level.setDisplay start first).Ensures tokens (property (bound + 2) .plain) := by
  intro before value after hreads
  rw [reads_setDisplay] at hreads
  split at hreads
  · exact comprehension_composes hlevel ‹_› hreads hfirst (by simp) (by simp)
  split at hreads
  · obtain ⟨others, hreadsOthers, rfl⟩ := hreads
    have hothers := displayElements_compose hlevel hreadsOthers
    exact hlevel.compositional.nested trivial rfl rfl (by simpa using ⟨hfirst, hothers⟩)
  · rw [hreads.2.2]
    exact hlevel.compositional.nested trivial rfl rfl (by simpa using hfirst)

private theorem dictDisplay_composes {start entryStart : Nat} {key : Expr}
    (hkey : property (bound + 1) .plain key) :
    (level.dictDisplay start entryStart key).Ensures tokens (property (bound + 2) .plain) := by
  intro before value after hreads
  obtain ⟨first, middle, hreadsFirst, hrest⟩ := reads_dictDisplay.mp hreads
  have hfirst := expr_composes hlevel hreadsFirst
  have hentry : ∀ span,
      AllHave (property (bound + 1) .plain) (DictEntry.parts ⟨span, some key, first⟩) :=
    fun _ => by simpa [DictEntry.parts] using ⟨hkey, hfirst⟩
  split at hrest
  · exact comprehension_composes hlevel ‹_› hrest hkey (by simpa using hfirst) (by simp)
  split at hrest
  · obtain ⟨others, hreadsOthers, rfl⟩ := hrest
    have hothers := (dictEntry_composes hlevel).lists (.of_reads hreadsOthers)
    exact hlevel.compositional.nested trivial rfl rfl (by simpa using ⟨hentry _, hothers⟩)
  · rw [hrest.2.2]
    exact hlevel.compositional.nested trivial rfl rfl (by simpa using hentry _)

private theorem braceDisplay_composes :
    level.braceDisplay.Ensures tokens (property (bound + 2) .plain) := by
  intro before value after hreads
  obtain ⟨-, hrest⟩ := reads_braceDisplay.mp hreads
  split at hrest
  · obtain ⟨entries, hreadsEntries, rfl⟩ := hrest
    have hentries := (dictEntry_composes hlevel).lists (.of_reads hreadsEntries)
    exact hlevel.compositional.nested trivial rfl rfl (by simpa using hentries)
  · obtain ⟨first, middle, hreadsFirst, hrest⟩ := hrest
    have hfirst := starNamedExpr_composes hlevel hreadsFirst
    split at hrest
    · exact dictDisplay_composes hlevel hfirst hrest
    · exact setDisplay_composes hlevel hfirst hrest

/-! ## Arguments and subscripts -/

private theorem positionalArgument_composes :
    level.positionalArgument.Ensures tokens (property (bound + 1) .plain) := by
  intro before value after hreads
  obtain ⟨first, middle, hreadsFirst, hrest⟩ := reads_positionalArgument.mp hreads
  have hfirst := namedExpr_composes hlevel hreadsFirst
  split at hrest
  · rename_i hstarts
    obtain ⟨clauses, hclauses, rfl⟩ := hrest
    change property
      (if ComprehensionKind.generator = .generator then bound + 1 else bound + 2) .plain _
    exact composes_of_clauses hlevel hstarts hclauses hfirst (by simp) (by simp)
  · rw [hrest.1]
    exact hfirst

private theorem argument_composes : level.argument.Ensures tokens fun argument =>
    property (bound + 1) .plain argument.value := by
  intro before argument after hreads
  rw [reads_argument] at hreads
  split at hreads
  · obtain ⟨value, hvalue, rfl⟩ := hreads
    exact expr_composes hlevel hvalue
  split at hreads
  · obtain ⟨value, hvalue, rfl⟩ := hreads
    exact expr_composes hlevel hvalue
  split at hreads
  · obtain ⟨value, hvalue, rfl⟩ := hreads
    exact expr_composes hlevel hvalue
  · obtain ⟨value, hvalue, rfl⟩ := hreads
    exact positionalArgument_composes hlevel hvalue

private theorem arguments_compose : level.arguments.Ensures tokens fun arguments =>
    ∀ argument ∈ arguments, property (bound + 1) .plain argument.value := by
  intro before arguments after hreads
  exact (argument_composes hlevel).lists (reads_arguments hreads).1

private theorem sliceBound_composes : level.sliceBound.Ensures tokens fun limit =>
    ∀ value ∈ limit, property (bound + 1) .plain value := by
  intro before limit after hreads
  rw [reads_sliceBound] at hreads
  split at hreads
  · rw [hreads.1]
    simp
  · obtain ⟨value, hvalue, rfl⟩ := hreads
    simpa using expr_composes hlevel hvalue

/-- A slice has any role but that of a plain expression. -/
theorem sliceRest_composes {role : Role} {start : Nat} {lower : Option Expr} (hrole : role ≠ .plain)
    (hlower : ∀ value ∈ lower, property (bound + 1) .plain value) :
    (level.sliceRest start lower).Ensures tokens (property (bound + 1) role) := by
  intro before value after hreads
  obtain ⟨-, upper, middle, hreadsUpper, hrest⟩ := reads_sliceRest.mp hreads
  have hupper := sliceBound_composes hlevel hreadsUpper
  split at hrest
  · obtain ⟨step, hreadsStep, rfl⟩ := hrest
    have hstep := sliceBound_composes hlevel hreadsStep
    exact hlevel.compositional.slice hrole (by simpa using ⟨hlower, hupper, hstep⟩)
  · rw [hrest.2]
    exact hlevel.compositional.slice hrole (by simpa using ⟨hlower, hupper⟩)

private theorem sliceItem_composes {role : Role} (hrole : role ≠ .plain) :
    level.sliceItem.Ensures tokens (property (bound + 1) role) := by
  intro before value after hreads
  rw [reads_sliceItem] at hreads
  split at hreads
  · exact sliceRest_composes hlevel hrole (by simp) hreads
  · obtain ⟨first, middle, hreadsFirst, hrest⟩ := hreads
    have hfirst := starNamedExpr_composes hlevel hreadsFirst
    split at hrest
    · exact sliceRest_composes hlevel hrole (by simpa using hfirst) hrest
    · rw [hrest.1]
      exact hlevel.compositional.withRole hfirst

private theorem subscript_composes :
    level.subscript.Ensures tokens (property (bound + 1) .index) := by
  intro before value after hreads
  obtain ⟨first, middle, hreadsFirst, hrest⟩ := reads_subscript hreads
  split at hrest
  · obtain ⟨others, hreadsOthers, rfl⟩ := hrest
    have hitem : level.sliceItem.Ensures tokens (property (bound + 1) .element) :=
      sliceItem_composes hlevel (by decide)
    exact hlevel.compositional.index
      (allHave_cons.mpr ⟨hitem hreadsFirst, hitem.continues hreadsOthers⟩)
  · rw [hrest.1]
    exact sliceItem_composes hlevel (by decide) hreadsFirst

/-! ## Parameters -/

private theorem param_composes {kind : ParamKind} {typeHints : Bool} :
    (level.param kind typeHints).Ensures tokens fun param =>
      AllHave (property (bound + 1) .plain) param.parts := by
  intro before param after hreads
  obtain ⟨-, hint, middle, defaultValue, hreadsHint, hreadsDefault, rfl⟩ := reads_param hreads
  have hhinted : (level.typeHint kind).Ensures tokens (property (bound + 1) .plain) := by
    unfold typeHint
    split
    · exact starExpr_composes hlevel
    · exact expr_composes hlevel
  have hhint : ∀ value ∈ hint, property (bound + 1) .plain value := by
    split at hreadsHint
    · exact hhinted.ifAccepted hreadsHint
    · rw [hreadsHint.1]
      simp
  have hdefault : ∀ value ∈ defaultValue, property (bound + 1) .plain value := by
    split at hreadsDefault
    · rw [hreadsDefault.1]
      simp
    · exact (expr_composes hlevel).ifAccepted hreadsDefault
  simpa [Param.parts] using ⟨hhint, hdefault⟩

private theorem params_compose {close : TokenKind} {typeHints : Bool} :
    (level.params close typeHints).Ensures tokens fun params =>
      ∀ param ∈ params, AllHave (property (bound + 1) .plain) param.parts :=
  params_ensures id fun _ => param_composes hlevel

private theorem lambdaExpr_composes :
    level.lambdaExpr.Ensures tokens (property (bound + 2) .plain) := by
  intro before value after hreads
  obtain ⟨-, params, _, hreadsParams, body, hreadsBody, rfl⟩ := reads_lambdaExpr.mp hreads
  have hparams := params_compose hlevel hreadsParams
  have hbody := expr_composes hlevel hreadsBody
  exact hlevel.compositional.nested trivial rfl rfl (by simpa using ⟨hparams, hbody⟩)

/-! ## Nesting levels -/

/-- One more level adds one to the number of levels. -/
theorem around_composes : level.around.Composes tokens property (bound + 1) where
  compositional := hlevel.compositional
  innerLambda := lambdaExpr_composes hlevel
  innerExpr := expr_composes hlevel
  innerNotTest := notTest_composes hlevel
  innerFactor := factor_composes hlevel
  innerArguments _ _ _ hreads :=
    have harguments := reads_innerArguments.mp hreads
    ⟨arguments_placed harguments, arguments_compose hlevel harguments⟩
  innerIndex _ _ _ hreads := by
    obtain ⟨_, hindex, -⟩ := reads_innerIndex.mp hreads
    exact subscript_composes hlevel hindex
  innerParens := parenDisplay_composes hlevel
  innerBrackets := listDisplay_composes hlevel
  innerBraces := braceDisplay_composes hlevel

end

/-- No level can be opened from the innermost one. -/
theorem innermost_composes (hproperty : Compositional property) :
    innermost.Composes tokens property 0 where
  compositional := hproperty
  innerLambda := ensures_failNext
  innerExpr := ensures_failNext
  innerNotTest := ensures_failNext
  innerFactor := ensures_failNext
  innerArguments := ensures_failNext
  innerIndex := ensures_failNext
  innerParens := ensures_failNext
  innerBrackets := ensures_failNext
  innerBraces := ensures_failNext

private theorem withInner_composes (hproperty : Compositional property) (count : Nat) :
    (withInner count).Composes tokens property count := by
  induction count with
  | zero => exact innermost_composes hproperty
  | succ count ih => exact around_composes ih

private theorem outermost_composes (hproperty : Compositional property) :
    outermost.Composes tokens property (maxCount - 1) :=
  withInner_composes hproperty (maxCount - 1)

end Level

/-- The outermost level, at which statements read their expressions, reads expressions that have a
compositional property at the number of all levels. -/
theorem Parser.ensuresExprs_of_compositional {tokens : Tokens} {property : Nat → Role → Expr → Prop}
    (hproperty : Compositional property) :
    EnsuresExprs tokens (property Level.maxCount .plain) where
  expr := Level.expr_composes (Level.outermost_composes hproperty)
  namedExpr := Level.namedExpr_composes (Level.outermost_composes hproperty)
  starExpr := Level.starExpr_composes (Level.outermost_composes hproperty)
  starExprs := Level.starExprs_composes (Level.outermost_composes hproperty)
  starNamedExprs := Level.starNamedExprs_composes (Level.outermost_composes hproperty)
  yieldOrStarExprs := Level.yieldOrStarExprs_composes (Level.outermost_composes hproperty)
  target := Level.target_composes (Level.outermost_composes hproperty)
  targetList := Level.targetList_composes (Level.outermost_composes hproperty)
  arguments := Level.arguments_compose (Level.outermost_composes hproperty)
  params _ _ := Level.params_compose (Level.outermost_composes hproperty)

end PythonOutline
