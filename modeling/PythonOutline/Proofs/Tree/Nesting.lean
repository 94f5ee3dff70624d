import PythonOutline.Tree.Expr
import Mathlib.Data.List.Basic

/-! # Nested parts of expressions

An expression is nested one level deeper than the one it is a part of if it stands between its
brackets, behind a unary operator, on the right of a power, behind the `else` of a conditional, or
in a lambda. All other parts stand beside what they are a part of, as do those of tuples,
generators and groups in parentheses. A way down an expression is measured by the number of its
edges to nested parts. -/

namespace PythonOutline

/-- The expressions in a clause of a comprehension. -/
def ForClause.parts (clause : ForClause) : List Expr :=
  clause.target :: clause.iterable :: clause.conditions

/-- The expressions in an entry of a dict display. -/
def DictEntry.parts (entry : DictEntry) : List Expr :=
  entry.key.toList ++ [entry.value]

/-- The expressions in a parameter. -/
def Param.parts (param : Param) : List Expr :=
  param.typeHint.toList ++ param.defaultValue.toList

namespace ExprForm

/-- The expressions in a comprehension. -/
def comprehensionParts (element : Expr) (value : Option Expr) (clauses : List ForClause) :
    List Expr :=
  element :: (value.toList ++ clauses.flatMap ForClause.parts)

/-- The parts of an expression that are nested no deeper than itself. -/
def besideParts : ExprForm → List Expr
  | .attribute value _ => [value]
  | .await value => [value]
  | .binary .exponentiation left _ => [left]
  | .binary _ left right => [left, right]
  | .boolean _ values => values
  | .call callee _ => [callee]
  | .compare left _ comparators => left :: comparators
  | .comprehension .generator element value clauses => comprehensionParts element value clauses
  | .conditional test consequent _ => [test, consequent]
  | .named _ value => [value]
  | .slice lower upper step => lower.toList ++ upper.toList ++ step.toList
  | .starred value => [value]
  | .subscript value _ => [value]
  | .tuple elements => elements
  | .yield value _ => value.toList
  | _ => []

/-- The parts of an expression that are nested one level deeper than itself. -/
def nestedParts : ExprForm → List Expr
  | .binary .exponentiation _ right => [right]
  | .call _ arguments => arguments.map Argument.value
  | .comprehension .generator .. => []
  | .comprehension _ element value clauses => comprehensionParts element value clauses
  | .conditional _ _ alternate => [alternate]
  | .dict entries => entries.flatMap DictEntry.parts
  | .lambda params body => params.flatMap Param.parts ++ [body]
  | .list elements => elements
  | .set elements => elements
  | .subscript _ index => [index]
  | .unary _ argument => [argument]
  | _ => []

end ExprForm

namespace Expr

/-- A way down from an expression to one inside it, by a number of edges to nested parts. -/
inductive Descends : Expr → Nat → Expr → Prop where
  | here (expr : Expr) : Descends expr 0 expr
  | beside {expr part below : Expr} {count : Nat} (hpart : part ∈ expr.form.besideParts)
      (hrest : Descends part count below) : Descends expr count below
  | nested {expr part below : Expr} {count : Nat} (hpart : part ∈ expr.form.nestedParts)
      (hrest : Descends part count below) : Descends expr (count + 1) below

/-- All of some expressions have a property. -/
def AllHave (property : Expr → Prop) (exprs : List Expr) : Prop :=
  ∀ expr ∈ exprs, property expr

/-- Every way down an expression has fewer edges to nested parts than a bound. -/
def NestsBelow (bound : Nat) (expr : Expr) : Prop :=
  ∀ ⦃count below⦄, expr.Descends count below → count < bound

variable {α : Type} {property : Expr → Prop} {bound : Nat} {expr : Expr}
  {exprs first others : List Expr} {values : List α} {parts : α → List Expr} {part : α → Expr}
  {span : Span} {form : ExprForm}

@[simp]
theorem allHave_nil : AllHave property [] :=
  List.forall_mem_nil _

@[simp]
theorem allHave_cons : AllHave property (expr :: exprs) ↔ property expr ∧ AllHave property exprs :=
  List.forall_mem_cons

@[simp]
theorem allHave_append :
    AllHave property (first ++ others) ↔ AllHave property first ∧ AllHave property others :=
  List.forall_mem_append

@[simp]
theorem allHave_toList {expr? : Option Expr} :
    AllHave property expr?.toList ↔ ∀ expr ∈ expr?, property expr := by
  simp [AllHave]

@[simp]
theorem allHave_map :
    AllHave property (values.map part) ↔ ∀ value ∈ values, property (part value) :=
  List.forall_mem_map

@[simp]
theorem allHave_flatMap :
    AllHave property (values.flatMap parts) ↔ ∀ value ∈ values, AllHave property (parts value) := by
  simp only [AllHave, List.mem_flatMap]
  constructor
  · exact fun hall value hvalue expr hexpr => hall expr ⟨value, hvalue, hexpr⟩
  · rintro hall expr ⟨value, hvalue, hexpr⟩
    exact hall value hvalue expr hexpr

/-- A bound on levels may be greater. -/
theorem NestsBelow.succ (hexpr : expr.NestsBelow bound) : expr.NestsBelow (bound + 1) :=
  fun _ _ hdescends => Nat.lt_succ_of_lt (hexpr hdescends)

end Expr

end PythonOutline
