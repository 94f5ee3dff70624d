import PythonOutline.Tree.Stmt

/-! # Export lists

The export list of a module is what its statements outside function and class bodies make of the
name `__all__`, followed in source order without running anything. Every branch of a conditional or
a loop is followed, one after the other. The list is known only as long as it is bound to and
extended by displays of plain string literals. Definitions are walked through too, but nothing in
their bodies counts.
-/

namespace PythonOutline

/-- The name that a module's export list is bound to. -/
def exportsName : String := "__all__"

/-- The names exported so far, if they are known. -/
abbrev ExportList := Option (List String)

namespace ExportList

/-- The list with more names behind it; unknown if either part is. -/
def append (names extra : ExportList) : ExportList :=
  match names, extra with
  | some names, some extra => some (names ++ extra)
  | _, _ => none

/-- The names of a list, each at its first occurrence only. -/
def withoutRepeats (names : List String) : List String :=
  (names.foldl (fun kept name => if kept.contains name then kept else name :: kept) []).reverse

end ExportList

namespace Expr

/-- Whether an expression is the name of the export list. -/
def isExportsName (expr : Expr) : Bool :=
  match expr.form with
  | .name text => text == exportsName
  | _ => false

mutual

/-- Whether a target binds the export list, possibly by taking a value apart. -/
def bindsExports : Expr → Bool
  | ⟨_, .name text⟩ => text == exportsName
  | ⟨_, .starred value⟩ => value.bindsExports
  | ⟨_, .list elements⟩ | ⟨_, .tuple elements⟩ => anyBindsExports elements
  | _ => false

/-- Whether one of several targets binds the export list. -/
def anyBindsExports : List Expr → Bool
  | [] => false
  | element :: elements => element.bindsExports || anyBindsExports elements

end

/-- The text of a plain string literal. -/
def plainString? (expr : Expr) : Option String :=
  match expr.form with
  | .string text false false => some text
  | _ => none

/-- The texts of a list or tuple display of plain string literals. -/
def plainStrings? (expr : Expr) : ExportList :=
  match expr.form with
  | .list elements | .tuple elements => elements.mapM plainString?
  | _ => none

end Expr

/-- The value of the only argument of a call, if it is a plain positional one. -/
def Argument.onlyPositional? : List Argument → Option Expr
  | [⟨_, none, .none, value⟩] => some value
  | _ => none

/-- What an expression statement makes of the export list: calls of its methods `append` and
`extend` add to it. -/
def ExportList.afterExpression (names : ExportList) (expr : Expr) : ExportList :=
  match expr.form with
  | .call ⟨_, .attribute receiver method⟩ arguments =>
    let argument := Argument.onlyPositional? arguments
    if !receiver.isExportsName then names
    else if method = "append" then
      names.append ((argument.bind Expr.plainString?).map fun name => [name])
    else if method = "extend" then names.append (argument.bind Expr.plainStrings?)
    else names
  | _ => names

/-- What an assignment makes of the export list. -/
def ExportList.afterAssign (names : ExportList) (targets : List Expr) (value : Expr) : ExportList :=
  if targets.any Expr.isExportsName then value.plainStrings?
  else if targets.any Expr.bindsExports then none
  else names

/-- What an annotated assignment makes of the export list. Without a value it binds nothing. -/
def ExportList.afterAnnotate (names : ExportList) (target : Expr) (value : Option Expr) :
    ExportList :=
  match value with
  | some value => if target.isExportsName then value.plainStrings? else names
  | none => names

/-- What an augmented assignment makes of the export list. -/
def ExportList.afterAugment (names : ExportList) (operator : Operator) (target value : Expr) :
    ExportList :=
  if !target.isExportsName then names
  else if operator = .addition then names.append value.plainStrings?
  else none

/-- What the walk over a module keeps: how many definitions are around the statement it is at, and
the export list so far. -/
structure ExportsWalk where
  depth : Nat
  names : ExportList

namespace ExportsWalk

/-- The walk at the start of a module. -/
def start : ExportsWalk := ⟨0, none⟩

/-- The walk inside one more definition. -/
def enter (walk : ExportsWalk) : ExportsWalk := ⟨walk.depth + 1, walk.names⟩

/-- The walk behind the body of a definition. -/
def leave (walk : ExportsWalk) : ExportsWalk := ⟨walk.depth - 1, walk.names⟩

/-- The walk behind a statement, which counts outside definitions only. -/
def after (walk : ExportsWalk) (change : ExportList → ExportList) : ExportsWalk :=
  if walk.depth > 0 then walk else ⟨walk.depth, change walk.names⟩

end ExportsWalk

mutual

/-- The walk over a statement and everything in it. -/
def Stmt.walkExports (walk : ExportsWalk) : Stmt → ExportsWalk
  | ⟨_, .annotate target _ value⟩ => walk.after (·.afterAnnotate target value)
  | ⟨_, .assign targets value⟩ => walk.after (·.afterAssign targets value)
  | ⟨_, .augment operator target value⟩ => walk.after (·.afterAugment operator target value)
  | ⟨_, .classDef _ _ _ _ body⟩ => (walkStmtsExports walk.enter body).leave
  | ⟨_, .expression value⟩ => walk.after (·.afterExpression value)
  | ⟨_, .forLoop _ _ _ body orElse⟩ => walkStmtsExports (walkStmtsExports walk body) orElse
  | ⟨_, .functionDef _ _ _ _ _ _ body⟩ => (walkStmtsExports walk.enter body).leave
  | ⟨_, .conditional _ consequent alternate⟩ =>
    walkStmtsExports (walkStmtsExports walk consequent) alternate
  | ⟨_, .matchCases _ cases⟩ => walkCasesExports walk cases
  | ⟨_, .tryBlock body handlers orElse finalBody _⟩ =>
    walkStmtsExports
      (walkStmtsExports (walkHandlersExports (walkStmtsExports walk body) handlers) orElse)
      finalBody
  | ⟨_, .whileLoop _ body orElse⟩ => walkStmtsExports (walkStmtsExports walk body) orElse
  | ⟨_, .withBlock _ _ body⟩ => walkStmtsExports walk body
  | _ => walk

/-- The walk over statements. -/
def walkStmtsExports (walk : ExportsWalk) : List Stmt → ExportsWalk
  | [] => walk
  | stmt :: stmts => walkStmtsExports (stmt.walkExports walk) stmts

/-- The walk over exception handlers. -/
def walkHandlersExports (walk : ExportsWalk) : List Handler → ExportsWalk
  | [] => walk
  | ⟨_, _, _, body⟩ :: handlers => walkHandlersExports (walkStmtsExports walk body) handlers

/-- The walk over the cases of a match statement. -/
def walkCasesExports (walk : ExportsWalk) : List MatchCase → ExportsWalk
  | [] => walk
  | ⟨_, _, _, body⟩ :: cases => walkCasesExports (walkStmtsExports walk body) cases

end

/-- The export list of a module. There is none if the module does not bind one, or if its value
cannot be told without running the module. -/
def Module.exports (module : Module) : ExportList :=
  (walkStmtsExports .start module.body).names.map ExportList.withoutRepeats

end PythonOutline
