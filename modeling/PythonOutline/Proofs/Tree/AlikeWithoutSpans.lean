import PythonOutline.Proofs.Tree.Alike
import PythonOutline.Proofs.Tree.WithoutSpans

/-! # Alike trees without their spans

Trees that may differ in their spans only are the same once all spans are forgotten.
-/

namespace PythonOutline

/-- Trees that differ in their spans only. -/
def Likeness.moved : Likeness where
  span _ _ := True
  text := Eq
  pattern := Eq
  join _ _ := trivial
  text_empty := rfl
  text_append := by
    rintro _ _ _ _ rfl rfl
    rfl

private theorem Name.Alike.withoutSpan_eq {name name' : Name} (halike : name.Alike .moved name') :
    name'.withoutSpan = name.withoutSpan := by
  rw [Name.withoutSpan, Name.withoutSpan, halike.text_eq]

mutual

private theorem Expr.Alike.withoutSpans_eq : ∀ {expr expr' : Expr}, expr.Alike .moved expr' →
    expr'.withoutSpans = expr.withoutSpans
  | ⟨_, _⟩, _, ⟨_, hform⟩ => by
    rw [Expr.withoutSpans, Expr.withoutSpans, hform.withoutSpans_eq]
termination_by structural expr => expr

private theorem ExprForm.Alike.withoutSpans_eq :
    ∀ {form form' : ExprForm}, form.Alike .moved form' → form'.withoutSpans = form.withoutSpans
  | .attribute _ _, _, .attribute hvalue => by
    simp only [ExprForm.withoutSpans, hvalue.withoutSpans_eq]
  | .await _, _, .await hvalue => by
    simp only [ExprForm.withoutSpans, hvalue.withoutSpans_eq]
  | .binary _ _ _, _, .binary hleft hright => by
    simp only [ExprForm.withoutSpans, hleft.withoutSpans_eq, hright.withoutSpans_eq]
  | .boolean _ _, _, .boolean hvalues => by
    simp only [ExprForm.withoutSpans, exprsWithoutSpans_congr hvalues]
  | .call _ _, _, .call hcallee harguments => by
    simp only [ExprForm.withoutSpans, hcallee.withoutSpans_eq,
      argumentsWithoutSpans_congr harguments]
  | .compare _ _ _, _, .compare hleft hcomparators => by
    simp only [ExprForm.withoutSpans, hleft.withoutSpans_eq, exprsWithoutSpans_congr hcomparators]
  | .comprehension _ _ _ _, _, .comprehension helement hvalue hclauses => by
    simp only [ExprForm.withoutSpans, helement.withoutSpans_eq, exprWithoutSpans?_congr hvalue,
      forClausesWithoutSpans_congr hclauses]
  | .conditional _ _ _, _, .conditional htest hconsequent halternate => by
    simp only [ExprForm.withoutSpans, htest.withoutSpans_eq, hconsequent.withoutSpans_eq,
      halternate.withoutSpans_eq]
  | .dict _, _, .dict hentries => by
    simp only [ExprForm.withoutSpans, dictEntriesWithoutSpans_congr hentries]
  | .name _, _, .name => rfl
  | .lambda _ _, _, .lambda hparams hbody => by
    simp only [ExprForm.withoutSpans, paramsWithoutSpans_congr hparams, hbody.withoutSpans_eq]
  | .list _, _, .list helements => by
    simp only [ExprForm.withoutSpans, exprsWithoutSpans_congr helements]
  | .named _ _, _, .named htarget hvalue => by
    simp only [ExprForm.withoutSpans, htarget.withoutSpan_eq, hvalue.withoutSpans_eq]
  | .set _, _, .set helements => by
    simp only [ExprForm.withoutSpans, exprsWithoutSpans_congr helements]
  | .slice _ _ _, _, .slice hlower hupper hstep => by
    simp only [ExprForm.withoutSpans, exprWithoutSpans?_congr hlower,
      exprWithoutSpans?_congr hupper, exprWithoutSpans?_congr hstep]
  | .starred _, _, .starred hvalue => by
    simp only [ExprForm.withoutSpans, hvalue.withoutSpans_eq]
  | .subscript _ _, _, .subscript hvalue hindex => by
    simp only [ExprForm.withoutSpans, hvalue.withoutSpans_eq, hindex.withoutSpans_eq]
  | .tuple _, _, .tuple helements => by
    simp only [ExprForm.withoutSpans, exprsWithoutSpans_congr helements]
  | .unary _ _, _, .unary hargument => by
    simp only [ExprForm.withoutSpans, hargument.withoutSpans_eq]
  | .yield _ _, _, .yield hvalue => by
    simp only [ExprForm.withoutSpans, exprWithoutSpans?_congr hvalue]
  | .boolLiteral _, _, .boolLiteral => rfl
  | .ellipsis, _, .ellipsis => rfl
  | .noneLiteral, _, .noneLiteral => rfl
  | .number _, _, .number => rfl
  | .string _ _ _, _, .string htext => by
    cases htext
    rfl
termination_by structural form => form

private theorem exprsWithoutSpans_congr : ∀ {exprs exprs' : List Expr},
    List.Forall₂ (Expr.Alike .moved) exprs exprs' →
    exprsWithoutSpans exprs' = exprsWithoutSpans exprs
  | [], _, .nil => rfl
  | _ :: _, _, .cons hexpr hexprs => by
    rw [exprsWithoutSpans, exprsWithoutSpans, hexpr.withoutSpans_eq, exprsWithoutSpans_congr hexprs]
termination_by structural exprs => exprs

private theorem exprWithoutSpans?_congr : ∀ {expr expr' : Option Expr},
    Option.Rel (Expr.Alike .moved) expr expr' → exprWithoutSpans? expr' = exprWithoutSpans? expr
  | none, _, .none => rfl
  | some _, _, .some hexpr => by
    rw [exprWithoutSpans?, exprWithoutSpans?, hexpr.withoutSpans_eq]
termination_by structural expr => expr

private theorem argumentsWithoutSpans_congr : ∀ {arguments arguments' : List Argument},
    List.Forall₂ (Argument.Alike .moved) arguments arguments' →
    argumentsWithoutSpans arguments' = argumentsWithoutSpans arguments
  | [], _, .nil => rfl
  | ⟨_, _, _, _⟩ :: _, _, .cons ⟨_, hvalue⟩ harguments => by
    rw [argumentsWithoutSpans, argumentsWithoutSpans, hvalue.withoutSpans_eq,
      argumentsWithoutSpans_congr harguments]
termination_by structural arguments => arguments

private theorem forClausesWithoutSpans_congr : ∀ {clauses clauses' : List ForClause},
    List.Forall₂ (ForClause.Alike .moved) clauses clauses' →
    forClausesWithoutSpans clauses' = forClausesWithoutSpans clauses
  | [], _, .nil => rfl
  | ⟨_, _, _, _, _⟩ :: _, _, .cons ⟨_, htarget, hiterable, hconditions⟩ hclauses => by
    rw [forClausesWithoutSpans, forClausesWithoutSpans, htarget.withoutSpans_eq,
      hiterable.withoutSpans_eq, exprsWithoutSpans_congr hconditions,
      forClausesWithoutSpans_congr hclauses]
termination_by structural clauses => clauses

/-- Entries that are alike up to a move are the same without their spans. -/
theorem dictEntriesWithoutSpans_congr : ∀ {entries entries' : List DictEntry},
    List.Forall₂ (DictEntry.Alike .moved) entries entries' →
    dictEntriesWithoutSpans entries' = dictEntriesWithoutSpans entries
  | [], _, .nil => rfl
  | ⟨_, _, _⟩ :: _, _, .cons ⟨_, hkey, hvalue⟩ hentries => by
    rw [dictEntriesWithoutSpans, dictEntriesWithoutSpans, exprWithoutSpans?_congr hkey,
      hvalue.withoutSpans_eq, dictEntriesWithoutSpans_congr hentries]
termination_by structural entries => entries

private theorem paramsWithoutSpans_congr : ∀ {params params' : List Param},
    List.Forall₂ (Param.Alike .moved) params params' →
    paramsWithoutSpans params' = paramsWithoutSpans params
  | [], _, .nil => rfl
  | ⟨_, _, _, _, _⟩ :: _, _, .cons ⟨_, htypeHint, hdefault⟩ hparams => by
    rw [paramsWithoutSpans, paramsWithoutSpans, exprWithoutSpans?_congr htypeHint,
      exprWithoutSpans?_congr hdefault, paramsWithoutSpans_congr hparams]
termination_by structural params => params

end

end PythonOutline
