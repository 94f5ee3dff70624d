import PythonOutline.Proofs.Tree.Alike
import PythonOutline.Proofs.Tree.Laminar

/-! # Alike trees in front of a place

Trees that may differ behind a place only, and in what has no text, are the same if all spans of one
of them end in front of the place and all its patterns hold text. -/

namespace PythonOutline

/-- Trees may differ in the spans that end behind a place, and in patterns without text. -/
def Likeness.upTo (size : Nat) : Likeness where
  span span span' := span.stop ≤ size → span' = span
  text text text' := text' = text
  pattern pattern pattern' := pattern ≠ "" → pattern' = pattern
  join hleft hright hstop := by
    rw [hleft (Nat.le_trans (Nat.le_max_left _ _) hstop),
      hright (Nat.le_trans (Nat.le_max_right _ _) hstop)]
  text_empty := rfl
  text_append hfirst hothers := by rw [hfirst, hothers]

/-- The spans of a node and of all nodes below it end in front of a place. -/
inductive Node.EndsBy (size : Nat) : Node → Prop where
  | mk {kind : String} {span : Span} {children : List Node} (hspan : span.stop ≤ size)
      (hbelow : ∀ child ∈ children, child.EndsBy size) : EndsBy size (.mk kind span children)

/-- All nodes of a laminar tree end in front of a place that its root does. -/
theorem Node.Laminar.endsBy {source : List Char} {node : Node} (hlaminar : node.Laminar source)
    {size : Nat} (hstop : node.span.stop ≤ size) : node.EndsBy size := by
  induction hlaminar with
  | mk _ hwithin _ _ ih =>
    exact .mk hstop fun child hchild =>
      ih child hchild (Nat.le_trans (hwithin child hchild).2 hstop)

variable {size : Nat} {name name' : Name}

/-- A node ends in front of a place if its span does, and the nodes below it do. -/
theorem Node.endsBy_mk {kind : String} {span : Span} {children : List Node} :
    (Node.mk kind span children).EndsBy size ↔
      span.stop ≤ size ∧ ∀ child ∈ children, child.EndsBy size :=
  ⟨fun ⟨hspan, hbelow⟩ => ⟨hspan, hbelow⟩, fun ⟨hspan, hbelow⟩ => .mk hspan hbelow⟩

/-- Names that are alike in front of a place are the same. -/
theorem Name.Alike.eq (halike : name.Alike (.upTo size) name') (hstop : name.span.stop ≤ size) :
    name' = name := by
  obtain ⟨hspan, htext⟩ := halike
  obtain ⟨span, text⟩ := name
  obtain ⟨span', text'⟩ := name'
  obtain rfl : text' = text := htext
  obtain rfl : span' = span := hspan hstop
  rfl

/-! ## Expressions -/

mutual

/-- Expressions that are alike in front of a place are the same. -/
theorem Expr.Alike.eq : ∀ {expr expr' : Expr}, expr.Alike (.upTo size) expr' →
    expr.node.EndsBy size → expr' = expr
  | ⟨_, _⟩, _, ⟨hspan, hform⟩, hends => by
    rw [Expr.node, Node.endsBy_mk] at hends
    rw [hspan hends.1, hform.eq hends.2]
termination_by structural expr => expr

/-- Forms of expressions that are alike in front of a place are the same. -/
theorem ExprForm.Alike.eq : ∀ {form form' : ExprForm}, form.Alike (.upTo size) form' →
    (∀ child ∈ form.children, child.EndsBy size) → form' = form
  | .attribute _ _, _, .attribute hvalue, hbelow => by
    rw [ExprForm.children, List.forall_mem_singleton] at hbelow
    rw [hvalue.eq hbelow]
  | .await _, _, .await hvalue, hbelow => by
    rw [ExprForm.children, List.forall_mem_singleton] at hbelow
    rw [hvalue.eq hbelow]
  | .binary _ _ _, _, .binary hleft hright, hbelow => by
    rw [ExprForm.children, List.forall_mem_cons, List.forall_mem_singleton] at hbelow
    rw [hleft.eq hbelow.1, hright.eq hbelow.2]
  | .boolean _ _, _, .boolean hvalues, hbelow => by
    rw [exprs_eq hvalues hbelow]
  | .call _ _, _, .call hcallee harguments, hbelow => by
    rw [ExprForm.children, List.forall_mem_cons] at hbelow
    rw [hcallee.eq hbelow.1, arguments_eq harguments hbelow.2]
  | .compare _ _ _, _, .compare hleft hcomparators, hbelow => by
    rw [ExprForm.children, List.forall_mem_cons] at hbelow
    rw [hleft.eq hbelow.1, exprs_eq hcomparators hbelow.2]
  | .comprehension _ _ _ _, _, .comprehension helement hvalue hclauses, hbelow => by
    rw [ExprForm.children, List.forall_mem_cons, List.forall_mem_append] at hbelow
    rw [helement.eq hbelow.1, expr?_eq hvalue hbelow.2.1, forClauses_eq hclauses hbelow.2.2]
  | .conditional _ _ _, _, .conditional htest hconsequent halternate, hbelow => by
    rw [ExprForm.children, List.forall_mem_cons, List.forall_mem_cons,
      List.forall_mem_singleton] at hbelow
    rw [htest.eq hbelow.1, hconsequent.eq hbelow.2.1, halternate.eq hbelow.2.2]
  | .dict _, _, .dict hentries, hbelow => by
    rw [dictEntries_eq hentries hbelow]
  | .name _, _, .name, _ => rfl
  | .lambda _ _, _, .lambda hparams hbody, hbelow => by
    rw [ExprForm.children, List.forall_mem_append, List.forall_mem_singleton] at hbelow
    rw [params_eq hparams hbelow.1, hbody.eq hbelow.2]
  | .list _, _, .list helements, hbelow => by
    rw [exprs_eq helements hbelow]
  | .named _ _, _, .named htarget hvalue, hbelow => by
    rw [ExprForm.children, List.forall_mem_cons, List.forall_mem_singleton, Node.leaf,
      Node.endsBy_mk] at hbelow
    rw [htarget.eq hbelow.1.1, hvalue.eq hbelow.2]
  | .set _, _, .set helements, hbelow => by
    rw [exprs_eq helements hbelow]
  | .slice _ _ _, _, .slice hlower hupper hstep, hbelow => by
    rw [ExprForm.children, List.forall_mem_append, List.forall_mem_append] at hbelow
    rw [expr?_eq hlower hbelow.1.1, expr?_eq hupper hbelow.1.2, expr?_eq hstep hbelow.2]
  | .starred _, _, .starred hvalue, hbelow => by
    rw [ExprForm.children, List.forall_mem_singleton] at hbelow
    rw [hvalue.eq hbelow]
  | .subscript _ _, _, .subscript hvalue hindex, hbelow => by
    rw [ExprForm.children, List.forall_mem_cons, List.forall_mem_singleton] at hbelow
    rw [hvalue.eq hbelow.1, hindex.eq hbelow.2]
  | .tuple _, _, .tuple helements, hbelow => by
    rw [exprs_eq helements hbelow]
  | .unary _ _, _, .unary hargument, hbelow => by
    rw [ExprForm.children, List.forall_mem_singleton] at hbelow
    rw [hargument.eq hbelow]
  | .yield _ _, _, .yield hvalue, hbelow => by
    rw [expr?_eq hvalue hbelow]
  | .boolLiteral _, _, .boolLiteral, _ => rfl
  | .ellipsis, _, .ellipsis, _ => rfl
  | .noneLiteral, _, .noneLiteral, _ => rfl
  | .number _, _, .number, _ => rfl
  | .string _ _ _, _, .string htext, _ => by
    rw [htext]
termination_by structural form => form

theorem exprs_eq : ∀ {exprs exprs' : List Expr},
    List.Forall₂ (Expr.Alike (.upTo size)) exprs exprs' →
    (∀ child ∈ exprNodes exprs, child.EndsBy size) → exprs' = exprs
  | [], _, .nil, _ => rfl
  | _ :: _, _, .cons hexpr hexprs, hbelow => by
    rw [exprNodes, List.forall_mem_cons] at hbelow
    rw [hexpr.eq hbelow.1, exprs_eq hexprs hbelow.2]
termination_by structural exprs => exprs

theorem expr?_eq : ∀ {expr expr' : Option Expr},
    Option.Rel (Expr.Alike (.upTo size)) expr expr' →
    (∀ child ∈ exprNode? expr, child.EndsBy size) → expr' = expr
  | none, _, .none, _ => rfl
  | some _, _, .some hexpr, hbelow => by
    rw [exprNode?, List.forall_mem_singleton] at hbelow
    rw [hexpr.eq hbelow]
termination_by structural expr => expr

theorem arguments_eq : ∀ {arguments arguments' : List Argument},
    List.Forall₂ (Argument.Alike (.upTo size)) arguments arguments' →
    (∀ child ∈ argumentNodes arguments, child.EndsBy size) → arguments' = arguments
  | [], _, .nil, _ => rfl
  | ⟨_, _, _, _⟩ :: _, _, .cons ⟨hspan, hvalue⟩ harguments, hbelow => by
    rw [argumentNodes, List.forall_mem_cons, Node.endsBy_mk, List.forall_mem_singleton] at hbelow
    rw [hspan hbelow.1.1, hvalue.eq hbelow.1.2, arguments_eq harguments hbelow.2]
termination_by structural arguments => arguments

private theorem forClauses_eq : ∀ {clauses clauses' : List ForClause},
    List.Forall₂ (ForClause.Alike (.upTo size)) clauses clauses' →
    (∀ child ∈ forClauseNodes clauses, child.EndsBy size) → clauses' = clauses
  | [], _, .nil, _ => rfl
  | ⟨_, _, _, _, _⟩ :: _, _, .cons ⟨hspan, htarget, hiterable, hconditions⟩ hclauses, hbelow => by
    rw [forClauseNodes, List.forall_mem_cons, Node.endsBy_mk, List.forall_mem_cons,
      List.forall_mem_cons] at hbelow
    obtain ⟨⟨hstop, htargetEnds, hiterableEnds, hconditionsEnd⟩, hclausesEnd⟩ := hbelow
    rw [hspan hstop, htarget.eq htargetEnds, hiterable.eq hiterableEnds,
      exprs_eq hconditions hconditionsEnd, forClauses_eq hclauses hclausesEnd]
termination_by structural clauses => clauses

private theorem dictEntries_eq : ∀ {entries entries' : List DictEntry},
    List.Forall₂ (DictEntry.Alike (.upTo size)) entries entries' →
    (∀ child ∈ dictEntryNodes entries, child.EndsBy size) → entries' = entries
  | [], _, .nil, _ => rfl
  | ⟨_, _, _⟩ :: _, _, .cons ⟨hspan, hkey, hvalue⟩ hentries, hbelow => by
    rw [dictEntryNodes, List.forall_mem_cons, Node.endsBy_mk, List.forall_mem_append,
      List.forall_mem_singleton] at hbelow
    obtain ⟨⟨hstop, hkeyEnds, hvalueEnds⟩, hentriesEnd⟩ := hbelow
    rw [hspan hstop, expr?_eq hkey hkeyEnds, hvalue.eq hvalueEnds,
      dictEntries_eq hentries hentriesEnd]
termination_by structural entries => entries

theorem params_eq : ∀ {params params' : List Param},
    List.Forall₂ (Param.Alike (.upTo size)) params params' →
    (∀ child ∈ paramNodes params, child.EndsBy size) → params' = params
  | [], _, .nil, _ => rfl
  | ⟨_, _, _, _, _⟩ :: _, _, .cons ⟨hspan, htypeHint, hdefault⟩ hparams, hbelow => by
    rw [paramNodes, List.forall_mem_cons, Node.endsBy_mk, List.forall_mem_append] at hbelow
    obtain ⟨⟨hstop, htypeHintEnds, hdefaultEnds⟩, hparamsEnd⟩ := hbelow
    rw [hspan hstop, expr?_eq htypeHint htypeHintEnds, expr?_eq hdefault hdefaultEnds,
      params_eq hparams hparamsEnd]
termination_by structural params => params

end

/-! ## Parts of statements -/

theorem TypeParam.Alike.eq {param param' : TypeParam} (halike : param.Alike (.upTo size) param')
    (hends : param.node.EndsBy size) : param' = param := by
  obtain ⟨hspan, hbound, hdefault⟩ := halike
  rw [TypeParam.node, Node.endsBy_mk, List.forall_mem_append] at hends
  rw [hspan hends.1, expr?_eq hbound hends.2.1, expr?_eq hdefault hends.2.2]

theorem Decorator.Alike.eq {decorator decorator' : Decorator}
    (halike : decorator.Alike (.upTo size) decorator') (hends : decorator.node.EndsBy size) :
    decorator' = decorator := by
  obtain ⟨hspan, hexpression⟩ := halike
  rw [Decorator.node, Node.endsBy_mk, List.forall_mem_singleton] at hends
  rw [hspan hends.1, hexpression.eq hends.2]

theorem ImportAlias.Alike.eq {name name' : ImportAlias} (halike : name.Alike (.upTo size) name')
    (hends : name.node.EndsBy size) : name' = name := by
  obtain ⟨hspan⟩ := halike
  rw [ImportAlias.node, Node.leaf, Node.endsBy_mk] at hends
  rw [hspan hends.1]

theorem WithItem.Alike.eq {item item' : WithItem} (halike : item.Alike (.upTo size) item')
    (hends : item.node.EndsBy size) : item' = item := by
  obtain ⟨hspan, hcontext, htarget⟩ := halike
  rw [WithItem.node, Node.endsBy_mk, List.forall_mem_cons] at hends
  rw [hspan hends.1, hcontext.eq hends.2.1, expr?_eq htarget hends.2.2]

/-- Lists are the same if their members are. -/
theorem items_eq {α : Type} {related : α → α → Prop} {node : α → Node}
    (hitem : ∀ {item item' : α}, related item item' → (node item).EndsBy size → item' = item)
    {items items' : List α} (hitems : List.Forall₂ related items items')
    (hends : ∀ child ∈ items.map node, child.EndsBy size) : items' = items := by
  induction hitems with
  | nil => rfl
  | cons hfirst _ ih =>
    rw [List.map_cons, List.forall_mem_cons] at hends
    rw [hitem hfirst hends.1, ih hends.2]

end PythonOutline
