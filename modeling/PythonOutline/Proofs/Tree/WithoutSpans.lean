import PythonOutline.Tree.Expr

/-! # Expressions without their spans

Two expressions are the same up to spans if they are equal once all spans are forgotten. The span of
every part is replaced by the empty one at the start.
-/

namespace PythonOutline

/-- A name without its span. -/
def Name.withoutSpan (name : Name) : Name :=
  { name with span := .point 0 }

mutual

/-- An expression without spans. -/
def Expr.withoutSpans : Expr → Expr
  | ⟨_, form⟩ => ⟨.point 0, form.withoutSpans⟩

/-- The form of an expression without spans. -/
def ExprForm.withoutSpans : ExprForm → ExprForm
  | .attribute value name => .attribute value.withoutSpans name
  | .await value => .await value.withoutSpans
  | .binary operator left right => .binary operator left.withoutSpans right.withoutSpans
  | .boolean operator values => .boolean operator (exprsWithoutSpans values)
  | .call callee arguments => .call callee.withoutSpans (argumentsWithoutSpans arguments)
  | .compare left operators comparators =>
    .compare left.withoutSpans operators (exprsWithoutSpans comparators)
  | .comprehension kind element value clauses =>
    .comprehension kind element.withoutSpans (exprWithoutSpans? value)
      (forClausesWithoutSpans clauses)
  | .conditional test consequent alternate =>
    .conditional test.withoutSpans consequent.withoutSpans alternate.withoutSpans
  | .dict entries => .dict (dictEntriesWithoutSpans entries)
  | .name text => .name text
  | .lambda params body => .lambda (paramsWithoutSpans params) body.withoutSpans
  | .list elements => .list (exprsWithoutSpans elements)
  | .named target value => .named target.withoutSpan value.withoutSpans
  | .set elements => .set (exprsWithoutSpans elements)
  | .slice lower upper step =>
    .slice (exprWithoutSpans? lower) (exprWithoutSpans? upper) (exprWithoutSpans? step)
  | .starred value => .starred value.withoutSpans
  | .subscript value index => .subscript value.withoutSpans index.withoutSpans
  | .tuple elements => .tuple (exprsWithoutSpans elements)
  | .unary operator argument => .unary operator argument.withoutSpans
  | .yield value delegate => .yield (exprWithoutSpans? value) delegate
  | .boolLiteral value => .boolLiteral value
  | .ellipsis => .ellipsis
  | .noneLiteral => .noneLiteral
  | .number text => .number text
  | .string text bytes formatted => .string text bytes formatted

/-- Expressions without spans. -/
def exprsWithoutSpans : List Expr → List Expr
  | [] => []
  | expr :: exprs => expr.withoutSpans :: exprsWithoutSpans exprs

/-- An expression that may be absent without spans. -/
def exprWithoutSpans? : Option Expr → Option Expr
  | none => none
  | some expr => some expr.withoutSpans

/-- Arguments without spans. -/
def argumentsWithoutSpans : List Argument → List Argument
  | [] => []
  | ⟨_, keyword, unpack, value⟩ :: arguments =>
    ⟨.point 0, keyword, unpack, value.withoutSpans⟩ :: argumentsWithoutSpans arguments

/-- Clauses of a comprehension without spans. -/
def forClausesWithoutSpans : List ForClause → List ForClause
  | [] => []
  | ⟨_, isAsync, target, iterable, conditions⟩ :: clauses =>
    ⟨.point 0, isAsync, target.withoutSpans, iterable.withoutSpans,
      exprsWithoutSpans conditions⟩ :: forClausesWithoutSpans clauses

/-- Entries of a dict display without spans. -/
def dictEntriesWithoutSpans : List DictEntry → List DictEntry
  | [] => []
  | ⟨_, key, value⟩ :: entries =>
    ⟨.point 0, exprWithoutSpans? key, value.withoutSpans⟩ :: dictEntriesWithoutSpans entries

/-- Parameters without spans. -/
def paramsWithoutSpans : List Param → List Param
  | [] => []
  | ⟨_, name, kind, typeHint, defaultValue⟩ :: params =>
    ⟨.point 0, name, kind, exprWithoutSpans? typeHint, exprWithoutSpans? defaultValue⟩ ::
      paramsWithoutSpans params

end

@[simp]
theorem exprsWithoutSpans_eq (exprs : List Expr) :
    exprsWithoutSpans exprs = exprs.map Expr.withoutSpans := by
  induction exprs with
  | nil => rfl
  | cons expr exprs ih => rw [exprsWithoutSpans, ih, List.map_cons]

end PythonOutline
