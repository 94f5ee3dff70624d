import PythonOutline.Outline.Exports
import PythonOutline.Parser.Module

/-! # Export lists by reference

The export list of a module is that of a plain evaluation of its statements: those outside function
and class bodies, one after the other, each of which leaves the list as it is, binds it anew or adds
to it. So a statement that binds or deletes the name of the list in a way the evaluation does not
know, such as the target of a loop, leaves the list as the statements before it made it. -/

namespace PythonOutline

/-! ## The statements outside definitions -/

mutual

/-- A statement and those in its blocks, in source order. The bodies of definitions are left out. -/
def Stmt.moduleLevel : Stmt → List Stmt
  | ⟨span, form⟩ => ⟨span, form⟩ :: form.moduleLevel

/-- The statements in the blocks of a form of statement that are outside definitions. -/
def StmtForm.moduleLevel : StmtForm → List Stmt
  | .forLoop _ _ _ body orElse => moduleLevelOf body ++ moduleLevelOf orElse
  | .conditional _ consequent alternate => moduleLevelOf consequent ++ moduleLevelOf alternate
  | .matchCases _ cases => casesModuleLevel cases
  | .tryBlock body handlers orElse finalBody _ =>
    moduleLevelOf body ++ handlersModuleLevel handlers ++ moduleLevelOf orElse ++
      moduleLevelOf finalBody
  | .whileLoop _ body orElse => moduleLevelOf body ++ moduleLevelOf orElse
  | .withBlock _ _ body => moduleLevelOf body
  | _ => []

/-- Statements and those in their blocks. -/
def moduleLevelOf : List Stmt → List Stmt
  | [] => []
  | stmt :: stmts => stmt.moduleLevel ++ moduleLevelOf stmts

/-- The statements in the blocks of exception handlers. -/
def handlersModuleLevel : List Handler → List Stmt
  | [] => []
  | ⟨_, _, _, body⟩ :: handlers => moduleLevelOf body ++ handlersModuleLevel handlers

/-- The statements in the blocks of cases. -/
def casesModuleLevel : List MatchCase → List Stmt
  | [] => []
  | ⟨_, _, _, body⟩ :: cases => moduleLevelOf body ++ casesModuleLevel cases

end

/-- The statements of a module outside function and class bodies, in source order. -/
def Module.moduleLevel (module : Module) : List Stmt :=
  moduleLevelOf module.body

/-! ## The effect of a statement -/

/-- The texts of plain string literals, if expressions are nothing else. -/
def stringTexts : List Expr → ExportList
  | [] => some []
  | ⟨_, .string text false false⟩ :: exprs => (stringTexts exprs).map (text :: ·)
  | _ => none

/-- The names in a list or tuple display of plain string literals. -/
def Expr.displayed : Expr → ExportList
  | ⟨_, .list elements⟩ | ⟨_, .tuple elements⟩ => stringTexts elements
  | _ => none

mutual

/-- The names that a target binds, those it takes a value apart for included. -/
def Expr.boundNames : Expr → List String
  | ⟨_, .name text⟩ => [text]
  | ⟨_, .starred value⟩ => value.boundNames
  | ⟨_, .list elements⟩ | ⟨_, .tuple elements⟩ => boundNamesOf elements
  | _ => []

/-- The names that targets bind. -/
def boundNamesOf : List Expr → List String
  | [] => []
  | expr :: exprs => expr.boundNames ++ boundNamesOf exprs

end

/-- The names of the targets of an assignment that are nothing but a name. -/
def bareNames : List Expr → List String
  | [] => []
  | ⟨_, .name text⟩ :: exprs => text :: bareNames exprs
  | _ :: exprs => bareNames exprs

/-- The name that a call of `append` adds, if its only argument is a plain string literal. -/
def appendedNames : List Argument → ExportList
  | [⟨_, none, .none, ⟨_, .string text false false⟩⟩] => some [text]
  | _ => none

/-- The names that a call of `extend` adds, if its only argument is a display of them. -/
def extendedNames : List Argument → ExportList
  | [⟨_, none, .none, value⟩] => value.displayed
  | _ => none

/-- What a statement does to the export list. -/
inductive ExportEffect where
  | keep
  /-- Makes it another list, which may be unknown. -/
  | become (names : ExportList)
  /-- Puts names behind it, which may be unknown. -/
  | add (names : ExportList)
  deriving DecidableEq, Repr

namespace ExportEffect

/-- The list behind a statement with an effect. -/
def apply : ExportEffect → ExportList → ExportList
  | keep, names => names
  | become names, _ => names
  | add (some extra), some names => some (names ++ extra)
  | add _, _ => none

/-- The effect of an assignment. -/
def ofAssign (targets : List Expr) (value : Expr) : ExportEffect :=
  if exportsName ∈ bareNames targets then become value.displayed
  else if exportsName ∈ boundNamesOf targets then become none
  else keep

/-- The effect of an annotated assignment. -/
def ofAnnotate (target : Expr) : Option Expr → ExportEffect
  | some value => if exportsName ∈ bareNames [target] then become value.displayed else keep
  | none => keep

/-- The effect of an augmented assignment. -/
def ofAugment (operator : Operator) (target value : Expr) : ExportEffect :=
  if exportsName ∈ bareNames [target] then
    if operator = .addition then add value.displayed else become none
  else keep

/-- The effect of calling a method of the list. -/
def ofMethod (method : String) (arguments : List Argument) : ExportEffect :=
  if method = "append" then add (appendedNames arguments)
  else if method = "extend" then add (extendedNames arguments)
  else keep

/-- The effect of an expression statement. -/
def ofExpression : Expr → ExportEffect
  | ⟨_, .call ⟨_, .attribute ⟨_, .name receiver⟩ method⟩ arguments⟩ =>
    if receiver = exportsName then ofMethod method arguments else keep
  | _ => keep

end ExportEffect

/-- What a statement does to the export list, apart from what those in its blocks do. -/
def Stmt.exportEffect (stmt : Stmt) : ExportEffect :=
  match stmt.form with
  | .annotate target _ value => .ofAnnotate target value
  | .assign targets value => .ofAssign targets value
  | .augment operator target value => .ofAugment operator target value
  | .expression value => .ofExpression value
  | _ => .keep

/-- The export list behind statements that stand one after the other. -/
def ExportList.evaluate (names : ExportList) (stmts : List Stmt) : ExportList :=
  stmts.foldl (fun names stmt => stmt.exportEffect.apply names) names

/-! ## What single statements make of the list -/

/-- Extending a list is one of the effects of a statement. -/
theorem ExportList.append_eq (names extra : ExportList) :
    names.append extra = (ExportEffect.add extra).apply names := by
  cases names <;> cases extra <;> rfl

private theorem ExportList.withoutRepeats_eq (names : List String) :
    withoutRepeats names = names.eraseDups := by
  have hloop (kept : List String) :
      (names.foldl (fun kept name => if kept.contains name then kept else name :: kept) kept).reverse =
        List.eraseDupsBy.loop (· == ·) names kept := by
    induction names generalizing kept with
    | nil => rfl
    | cons name names ih =>
      rw [List.foldl_cons, List.eraseDupsBy.loop, ih, List.contains_eq_any_beq]
      cases kept.any (name == ·) <;> rfl
  exact hloop []

private theorem Expr.mapM_plainString? (exprs : List Expr) :
    exprs.mapM Expr.plainString? = stringTexts exprs := by
  induction exprs with
  | nil => rfl
  | cons expr exprs ih =>
    rw [List.mapM_cons, ih]
    obtain ⟨span, form⟩ := expr
    cases form with
    | string text bytes formatted =>
      cases bytes
      case true => rfl
      cases formatted
      case true => rfl
      exact (Option.map_eq_bind ..).symm
    | _ => rfl

private theorem Expr.plainStrings?_eq (expr : Expr) : expr.plainStrings? = expr.displayed := by
  obtain ⟨span, form⟩ := expr
  unfold plainStrings? displayed
  cases form <;> simp [mapM_plainString?]

private theorem appendedNames_eq (arguments : List Argument) :
    ((Argument.onlyPositional? arguments).bind Expr.plainString?).map (fun name => [name]) =
      appendedNames arguments := by
  unfold Argument.onlyPositional?
  split
  case h_1 value =>
    obtain ⟨_, form⟩ := value
    cases form with
    | string text bytes formatted => cases bytes <;> cases formatted <;> rfl
    | _ => rfl
  case h_2 hother =>
    unfold appendedNames
    split
    · exact absurd rfl (hother _ _)
    · rfl

private theorem extendedNames_eq (arguments : List Argument) :
    (Argument.onlyPositional? arguments).bind Expr.plainStrings? = extendedNames arguments := by
  unfold Argument.onlyPositional?
  split
  case h_1 => exact Expr.plainStrings?_eq _
  case h_2 hother =>
    unfold extendedNames
    split
    · exact absurd rfl (hother _ _)
    · rfl

private theorem Expr.isExportsName_iff {expr : Expr} :
    expr.isExportsName = true ↔ exportsName ∈ bareNames [expr] := by
  obtain ⟨span, form⟩ := expr
  cases form with
  | name text => simp [isExportsName, bareNames, eq_comm (a := text)]
  | _ => simp [isExportsName, bareNames]

private theorem Expr.any_isExportsName {targets : List Expr} :
    targets.any Expr.isExportsName = true ↔ exportsName ∈ bareNames targets := by
  induction targets with
  | nil => simp [bareNames]
  | cons target targets ih =>
    rw [List.any_cons, Bool.or_eq_true, ih, isExportsName_iff]
    obtain ⟨span, form⟩ := target
    cases form <;> simp [bareNames]

mutual

private theorem Expr.bindsExports_iff : (target : Expr) →
    (target.bindsExports = true ↔ exportsName ∈ target.boundNames)
  | ⟨span, form⟩ => by
    cases form with
    | name text => simp [bindsExports, boundNames, eq_comm (a := text)]
    | starred value => simpa [bindsExports, boundNames] using value.bindsExports_iff
    | list elements => simpa [bindsExports, boundNames] using Expr.anyBindsExports_iff elements
    | tuple elements => simpa [bindsExports, boundNames] using Expr.anyBindsExports_iff elements
    | _ => simp [bindsExports, boundNames]

private theorem Expr.anyBindsExports_iff : (targets : List Expr) →
    (anyBindsExports targets = true ↔ exportsName ∈ boundNamesOf targets)
  | [] => by simp [anyBindsExports, boundNamesOf]
  | target :: targets => by
    simp [anyBindsExports, boundNamesOf, target.bindsExports_iff, anyBindsExports_iff targets]

end

private theorem Expr.any_bindsExports {targets : List Expr} :
    targets.any Expr.bindsExports = true ↔ exportsName ∈ boundNamesOf targets := by
  induction targets with
  | nil => simp [boundNamesOf]
  | cons target targets ih =>
    rw [List.any_cons, Bool.or_eq_true, ih, target.bindsExports_iff, boundNamesOf, List.mem_append]

namespace ExportList

variable (names : ExportList)

private theorem afterAssign_eq (targets : List Expr) (value : Expr) :
    names.afterAssign targets value = (ExportEffect.ofAssign targets value).apply names := by
  unfold afterAssign ExportEffect.ofAssign
  simp only [Expr.any_isExportsName, Expr.any_bindsExports, Expr.plainStrings?_eq]
  split
  · rfl
  · split <;> rfl

private theorem afterAnnotate_eq (target : Expr) (value : Option Expr) :
    names.afterAnnotate target value = (ExportEffect.ofAnnotate target value).apply names := by
  cases value with
  | none => rfl
  | some value =>
    simp only [afterAnnotate, ExportEffect.ofAnnotate, Expr.isExportsName_iff, Expr.plainStrings?_eq]
    split <;> rfl

private theorem afterAugment_eq (operator : Operator) (target value : Expr) :
    names.afterAugment operator target value =
      (ExportEffect.ofAugment operator target value).apply names := by
  simp only [afterAugment, ExportEffect.ofAugment, Bool.not_eq_true', ← Bool.not_eq_true,
    Expr.isExportsName_iff, Expr.plainStrings?_eq, append_eq, ite_not]
  split
  · split <;> rfl
  · rfl

private theorem afterExpression_eq (expr : Expr) :
    names.afterExpression expr = (ExportEffect.ofExpression expr).apply names := by
  unfold afterExpression
  split
  case h_2 hcall =>
    unfold ExportEffect.ofExpression
    split
    · exact absurd rfl (hcall _ _ _ _)
    · rfl
  case h_1 receiver method arguments hform =>
    obtain ⟨span, _⟩ := expr
    cases hform
    obtain ⟨_, form⟩ := receiver
    cases form
    case name text =>
      simp only [ExportEffect.ofExpression, ExportEffect.ofMethod, ← appendedNames_eq,
        ← extendedNames_eq, append_eq, Expr.isExportsName, Bool.not_eq_true', beq_eq_false_iff_ne,
        ite_not]
      split
      · split
        · rfl
        · split <;> rfl
      · rfl
    all_goals rfl

@[simp]
theorem evaluate_nil : names.evaluate [] = names :=
  rfl

@[simp]
theorem evaluate_cons (stmt : Stmt) (stmts : List Stmt) :
    names.evaluate (stmt :: stmts) = (stmt.exportEffect.apply names).evaluate stmts :=
  rfl

private theorem evaluate_append (stmts others : List Stmt) :
    names.evaluate (stmts ++ others) = (names.evaluate stmts).evaluate others :=
  List.foldl_append

end ExportList

/-! ## The walk -/

namespace ExportsWalk

variable (walk : ExportsWalk)

/-- The walk behind statements. -/
def behind (stmts : List Stmt) : ExportsWalk :=
  walk.after (·.evaluate stmts)

private theorem behind_nil : walk.behind [] = walk := by
  unfold behind after
  split <;> rfl

private theorem behind_append (stmts others : List Stmt) :
    walk.behind (stmts ++ others) = (walk.behind stmts).behind others := by
  unfold behind after
  split
  · rfl
  · simp [ExportList.evaluate_append, *]

private theorem behind_cons_of_keep {stmt : Stmt} (hkeep : stmt.exportEffect = .keep)
    (stmts : List Stmt) :
    walk.behind (stmt :: stmts) = walk.behind stmts := by
  simp only [behind, ExportList.evaluate_cons, hkeep, ExportEffect.apply]

/-- A statement without blocks that leaves the list as a hook does. -/
theorem after_eq_behind {stmt : Stmt} {change : ExportList → ExportList}
    (hchange : ∀ names, change names = stmt.exportEffect.apply names) :
    walk.after change = walk.behind [stmt] := by
  rw [funext hchange]
  rfl

/-- Nothing counts in the body of a definition. -/
theorem leave_behind_enter (stmts : List Stmt) : (walk.enter.behind stmts).leave = walk :=
  rfl

end ExportsWalk

mutual

/-- The visitor comes behind a statement to what the effects of its statements at module level lead
to. -/
private theorem Stmt.walkExports_eq (walk : ExportsWalk) : (stmt : Stmt) →
    stmt.walkExports walk = walk.behind stmt.moduleLevel
  | ⟨span, form⟩ => by
    rw [Stmt.moduleLevel]
    cases form with
    | annotate target hint value =>
      rw [Stmt.walkExports]
      exact walk.after_eq_behind fun names => names.afterAnnotate_eq target value
    | assign targets value =>
      rw [Stmt.walkExports]
      exact walk.after_eq_behind fun names => names.afterAssign_eq targets value
    | augment operator target value =>
      rw [Stmt.walkExports]
      exact walk.after_eq_behind fun names => names.afterAugment_eq operator target value
    | expression value =>
      rw [Stmt.walkExports]
      exact walk.after_eq_behind fun names => names.afterExpression_eq value
    | classDef _ _ _ _ body | functionDef _ _ _ _ _ _ body =>
      have hbody : (walkStmtsExports walk.enter body).leave = walk := by
        rw [walkStmtsExports_eq _ body, walk.leave_behind_enter]
      rw [walk.behind_cons_of_keep rfl]
      exact hbody.trans walk.behind_nil.symm
    | forLoop _ _ _ first second | conditional _ first second | whileLoop _ first second =>
      rw [walk.behind_cons_of_keep rfl, StmtForm.moduleLevel, walk.behind_append, Stmt.walkExports,
        walkStmtsExports_eq _ first, walkStmtsExports_eq _ second]
    | matchCases _ cases =>
      rw [walk.behind_cons_of_keep rfl]
      exact walkCasesExports_eq walk cases
    | tryBlock body handlers orElse finalBody _ =>
      rw [walk.behind_cons_of_keep rfl, StmtForm.moduleLevel, walk.behind_append, walk.behind_append,
        walk.behind_append, Stmt.walkExports, walkStmtsExports_eq _ body,
        walkHandlersExports_eq _ handlers, walkStmtsExports_eq _ orElse,
        walkStmtsExports_eq _ finalBody]
    | withBlock _ _ body =>
      rw [walk.behind_cons_of_keep rfl]
      exact walkStmtsExports_eq walk body
    | _ => exact ((walk.behind_cons_of_keep rfl []).trans walk.behind_nil).symm

private theorem walkStmtsExports_eq (walk : ExportsWalk) : (stmts : List Stmt) →
    walkStmtsExports walk stmts = walk.behind (moduleLevelOf stmts)
  | [] => walk.behind_nil.symm
  | stmt :: stmts => by
    rw [walkStmtsExports, moduleLevelOf, walk.behind_append, stmt.walkExports_eq,
      walkStmtsExports_eq _ stmts]

private theorem walkHandlersExports_eq (walk : ExportsWalk) : (handlers : List Handler) →
    walkHandlersExports walk handlers = walk.behind (handlersModuleLevel handlers)
  | [] => walk.behind_nil.symm
  | ⟨_, _, _, body⟩ :: handlers => by
    rw [walkHandlersExports, handlersModuleLevel, walk.behind_append, walkStmtsExports_eq _ body,
      walkHandlersExports_eq _ handlers]

private theorem walkCasesExports_eq (walk : ExportsWalk) : (cases : List MatchCase) →
    walkCasesExports walk cases = walk.behind (casesModuleLevel cases)
  | [] => walk.behind_nil.symm
  | ⟨_, _, _, body⟩ :: cases => by
    rw [walkCasesExports, casesModuleLevel, walk.behind_append, walkStmtsExports_eq _ body,
      walkCasesExports_eq _ cases]

end

private theorem walkStmtsExports_start (stmts : List Stmt) :
    (walkStmtsExports .start stmts).names = ExportList.evaluate none (moduleLevelOf stmts) := by
  rw [walkStmtsExports_eq]
  rfl

/-- The export list of a module is what its statements outside definitions make of it one after the
other, with each name at its first occurrence only. -/
theorem Module.exports_eq_evaluate (module : Module) :
    module.exports = (ExportList.evaluate none module.moduleLevel).map List.eraseDups := by
  rw [exports, walkStmtsExports_start, funext ExportList.withoutRepeats_eq, moduleLevel]

/-! ## Bindings that are not followed -/

/-- The name that an imported module or one of its names is bound to. -/
def ImportAlias.boundName (imported : ImportAlias) : String :=
  imported.boundAs.getD (String.ofList (imported.name.toList.takeWhile (· ≠ '.')))

/-- The names that a statement binds or deletes in ways that the export list is not followed
through, those in its blocks left out. Of the assignment expressions only those that are
statements count. -/
def StmtForm.unfollowedNames : StmtForm → List String
  | .classDef _ name _ _ _ => [name.text]
  | .delete targets => boundNamesOf targets
  | .expression ⟨_, .named target _⟩ => [target.text]
  | .forLoop _ target _ _ _ => target.boundNames
  | .functionDef _ _ name _ _ _ _ => [name.text]
  | .importModules names => names.map ImportAlias.boundName
  | .importFrom _ _ (.specific names) => names.map ImportAlias.boundName
  | .tryBlock _ handlers _ _ _ => handlers.filterMap Handler.name
  | .withBlock _ items _ => items.flatMap fun item => item.target.elim [] Expr.boundNames
  | _ => []

/-- The statements outside definitions that bind, delete or change the export list, in
source order. -/
def Module.exportStmts (module : Module) : List Stmt :=
  module.moduleLevel.filter fun stmt =>
    stmt.exportEffect ≠ .keep ∨ exportsName ∈ stmt.form.unfollowedNames

private theorem Stmt.exportEffect_of_unfollowed {stmt : Stmt} {name : String}
    (hname : name ∈ stmt.form.unfollowedNames) : stmt.exportEffect = .keep := by
  obtain ⟨span, form⟩ := stmt
  cases form with
  | expression value =>
    obtain ⟨_, form⟩ := value
    cases form <;> first | rfl | cases hname
  | _ => first | rfl | cases hname

private theorem Module.evaluate_exportStmts (module : Module) (names : ExportList) :
    names.evaluate module.exportStmts = names.evaluate module.moduleLevel := by
  unfold exportStmts
  induction module.moduleLevel generalizing names with
  | nil => rfl
  | cons stmt stmts ih =>
    rw [List.filter_cons, ExportList.evaluate_cons]
    split
    · exact ih _
    case isFalse hnone =>
      have hkeep : stmt.exportEffect = .keep :=
        Decidable.byContradiction fun hchanges => hnone (decide_eq_true (.inl hchanges))
      rw [hkeep]
      exact ih _

/-- If the last statement to bind or delete the export list is not followed, the list is the one
that the statements before it made, which need not be unknown. -/
theorem Module.exports_of_unfollowed {module : Module} {last : Stmt}
    (hlast : module.exportStmts.getLast? = some last)
    (hname : exportsName ∈ last.form.unfollowedNames) :
    module.exports =
      (ExportList.evaluate none module.exportStmts.dropLast).map List.eraseDups := by
  have hbehind (names : ExportList) : names.evaluate [last] = names := by
    rw [ExportList.evaluate_cons, Stmt.exportEffect_of_unfollowed hname]
    rfl
  obtain ⟨before, hsplit⟩ := List.getLast?_eq_some_iff.mp hlast
  rw [exports, walkStmtsExports_start, funext ExportList.withoutRepeats_eq, ← moduleLevel,
    ← evaluate_exportStmts, hsplit, List.dropLast_concat, ExportList.evaluate_append, hbehind]

/-- Whether the last statement to bind or delete the export list is not followed. -/
def Module.endsUnfollowed (module : Module) : Bool :=
  module.exportStmts.getLast?.any fun last => exportsName ∈ last.form.unfollowedNames

private theorem Module.endsUnfollowed_iff {module : Module} :
    module.endsUnfollowed = true ↔ ∃ last, module.exportStmts.getLast? = some last ∧
      exportsName ∈ last.form.unfollowedNames := by
  simp [endsUnfollowed, Option.any_eq_true]

/-- What holds of the module that is parsed holds of some module. -/
theorem exists_module_of_any {source : String} {holds : Module → Bool}
    (hany : (parseModule source).toOption.any holds = true) :
    ∃ module, parseModule source = .ok module ∧ holds module = true := by
  cases hparse : parseModule source with
  | error failure =>
    rw [hparse] at hany
    cases hany
  | ok module =>
    rw [hparse] at hany
    exact ⟨module, rfl, hany⟩

/-- A deletion leaves the list that an assignment has bound. -/
theorem Module.exports_of_unfollowed_delete :
    ∃ module last, parseModule "__all__ = ['a']\ndel __all__\n" = .ok module ∧
      module.exportStmts.getLast? = some last ∧ exportsName ∈ last.form.unfollowedNames ∧
      module.exports =
        (ExportList.evaluate none module.exportStmts.dropLast).map List.eraseDups := by
  have hends : (parseModule "__all__ = ['a']\ndel __all__\n").toOption.any
      Module.endsUnfollowed = true := by
    decide +kernel
  obtain ⟨module, hparse, hends⟩ := exists_module_of_any hends
  obtain ⟨last, hlast, hname⟩ := Module.endsUnfollowed_iff.mp hends
  exact ⟨module, last, hparse, hlast, hname, Module.exports_of_unfollowed hlast hname⟩

/-- A statement binds or deletes the export list that an assignment in front of it has made, and the
list is still reported. -/
def ReportedBehind (binding : String) : Prop :=
  ∃ module last, parseModule ("__all__ = ['a']\n" ++ binding ++ "\n") = .ok module ∧
    module.exportStmts.getLast? = some last ∧ exportsName ∈ last.form.unfollowedNames ∧
    module.exports = some ["a"]

private theorem reportedBehind_of_any {binding : String}
    (hany : (parseModule ("__all__ = ['a']\n" ++ binding ++ "\n")).toOption.any fun module =>
      module.endsUnfollowed && module.exports == some ["a"]) : ReportedBehind binding := by
  obtain ⟨module, hparse, hstale⟩ := exists_module_of_any hany
  obtain ⟨hends, hexports⟩ := (Bool.and_eq_true ..).mp hstale
  obtain ⟨last, hlast, hname⟩ := Module.endsUnfollowed_iff.mp hends
  exact ⟨module, last, hparse, hlast, hname, beq_iff_eq.mp hexports⟩

/-- A known list stays known when its name is taken up by a loop, a context, an assignment
expression, an import, a definition or an exception handler, and when it is deleted. -/
theorem Module.exports_stale :
    ReportedBehind "for __all__ in x: pass" ∧ ReportedBehind "with x as __all__: pass" ∧
      ReportedBehind "(__all__ := x)" ∧ ReportedBehind "import __all__" ∧
      ReportedBehind "import x as __all__" ∧ ReportedBehind "from x import __all__" ∧
      ReportedBehind "def __all__(): pass" ∧ ReportedBehind "class __all__: pass" ∧
      ReportedBehind "try: pass\nexcept x as __all__: pass" ∧ ReportedBehind "del __all__" := by
  refine ⟨?_, ?_, ?_, ?_, ?_, ?_, ?_, ?_, ?_, ?_⟩ <;>
    exact reportedBehind_of_any (by decide +kernel)

end PythonOutline
