import PythonOutline.Outline.Declaration
import PythonOutline.Proofs.Grammar.LexicalError
import PythonOutline.Proofs.Tree.StmtExprs
import PythonOutline.Proofs.Tree.WrittenDisplay

/-! # The brackets in the span of an expression

The span of an expression covers a run of tokens less some opening parentheses in front and some
closing ones behind. None are left out but by binary operators other than powers, whose span goes
from that of one operand to that of the other. These are the expressions with unbalanced brackets in
their span, as the parentheses left out belong to one operand each. -/

namespace PythonOutline

namespace Tokens

/-- The span of an expression goes from one token to another, and they are in a balanced run with
some opening parentheses in front of the one and some closing ones behind the other. -/
structure Framed (tokens : Tokens) (start opened last closed : Nat) (expr : Expr) : Prop where
  le : start + opened ≤ last
  span_eq : expr.span = ⟨(tokens.get (start + opened)).span.start, (tokens.get last).span.stop⟩
  opened_kind : ∀ index < opened, (tokens.get (start + index)).kind = .parenthesisOpen
  closed_kind : ∀ index < closed, (tokens.get (last + 1 + index)).kind = .parenthesisClose
  balanced : tokens.Balanced start (last + 1 + closed)

/-- Which parentheses the span of an expression leaves out. -/
structure Trims (tokens : Tokens) (start opened last closed : Nat) (expr : Expr) : Prop extends
    Framed tokens start opened last closed expr where
  /-- The span holds the tokens from one to the other and no others. -/
  within_iff : ∀ index, (tokens.get index).kind.IsSolid →
    ((tokens.get index).span.Within expr.span ↔ start + opened ≤ index ∧ index ≤ last)
  /-- The brackets in it are balanced if it leaves no parentheses out, and only then. -/
  balanced_iff : tokens.Balanced (start + opened) (last + 1) ↔ opened = 0 ∧ closed = 0
  /-- Those in front are of the left operand and those behind of the right operand of
  an operator. -/
  operands : opened = 0 ∧ closed = 0 ∨
    ∃ operator left right leftLast leftClosed rightOpened, operator ≠ .exponentiation ∧
      expr.form = .binary operator left right ∧
      tokens.Framed start opened leftLast leftClosed left ∧
      (tokens.get (leftLast + 1 + leftClosed)).kind.IsPlain ∧
      tokens.Framed (leftLast + 1 + leftClosed + 1) rightOpened last closed right

variable {tokens : Tokens} {start opened last closed : Nat} {expr : Expr}

/-- All tokens of a balanced run count for its span. -/
theorem Balanced.spanBetween_eq (hbalanced : tokens.Balanced start (last + 1)) (hle : start ≤ last) :
    tokens.spanBetween start (last + 1) =
      ⟨(tokens.get start).span.start, (tokens.get last).span.stop⟩ := by
  have hlt : start < last + 1 := Nat.lt_succ_of_le hle
  have hstart := hbalanced.isSolid (Nat.le_refl _) hlt
  have hreadable : ∀ index, start ≤ index → index < last + 1 →
      (tokens.get index).kind.IsReadable := fun index hge hlt =>
    have hsolid := hbalanced.isSolid hge hlt
    ⟨hsolid.2.2, hsolid.2.1⟩
  obtain ⟨first, final, hfirst, -, hfinal, -, -, hextreme, hspan⟩ :=
    Tokens.spanBetween_eq hreadable (Nat.le_refl _) hlt hstart
  obtain ⟨hfirstLe, -⟩ := hextreme start (Nat.le_refl _) hlt hstart
  obtain ⟨-, hfinalGe⟩ := hextreme last hle (Nat.lt_succ_self _)
    (hbalanced.isSolid hle (Nat.lt_succ_self _))
  obtain rfl : first = start := Nat.le_antisymm hfirstLe hfirst
  obtain rfl : final = last := Nat.le_antisymm (Nat.le_of_lt_succ hfinal) hfinalGe
  exact hspan

namespace Framed

/-- Balanced tokens frame an expression that has the span of all of them. -/
theorem whole {form : ExprForm} (hle : start ≤ last) (hbalanced : tokens.Balanced start (last + 1)) :
    tokens.Framed start 0 last 0 ⟨tokens.spanBetween start (last + 1), form⟩ :=
  ⟨hle, hbalanced.spanBetween_eq hle, by simp, by simp, hbalanced⟩

/-- What is framed is text. -/
theorem isSolid (hframed : tokens.Framed start opened last closed expr) {index : Nat}
    (hstart : start ≤ index) (hlast : index ≤ last) : (tokens.get index).kind.IsSolid :=
  hframed.balanced.isSolid hstart (by omega)

/-- Parentheses around an expression add one on each side to those that its span leaves out. -/
theorem grouped (hopen : (tokens.get start).kind = .parenthesisOpen)
    (hframed : tokens.Framed (start + 1) opened last closed expr)
    (hclose : (tokens.get (last + 1 + closed)).kind = .parenthesisClose) :
    tokens.Framed start (opened + 1) last (closed + 1) expr := by
  have hstart : start + 1 + opened = start + (opened + 1) := by omega
  have hmatch : (tokens.get start).kind.closingBracket? =
      some (tokens.get (last + 1 + closed)).kind := by
    rw [hopen, hclose]
    rfl
  refine ⟨hstart ▸ hframed.le, hstart ▸ hframed.span_eq, fun index hindex => ?_,
    fun index hindex => ?_, .enclosed hmatch hframed.balanced⟩
  · cases index with
    | zero => exact hopen
    | succ index =>
      rw [← Nat.add_assoc, Nat.add_right_comm]
      exact hframed.opened_kind index (Nat.lt_of_succ_lt_succ hindex)
  · rcases Nat.lt_succ_iff_lt_or_eq.mp hindex with hlt | rfl
    · exact hframed.closed_kind index hlt
    · exact hclose

/-- The span from one operand to the other leaves out what they leave out on the outside. -/
theorem join (hordered : tokens.InOrder) {leftOpened leftLast leftClosed rightOpened rightClosed : Nat}
    {operator : Operator} {left right : Expr}
    (hleft : tokens.Framed start leftOpened leftLast leftClosed left)
    (hplain : (tokens.get (leftLast + 1 + leftClosed)).kind.IsPlain)
    (hright : tokens.Framed (leftLast + 1 + leftClosed + 1) rightOpened last rightClosed right) :
    tokens.Framed start leftOpened last rightClosed
      ⟨left.span.join right.span, .binary operator left right⟩ := by
  have hleftLe := hleft.le
  have hrightLe := hright.le
  have hstarts := hordered.start_le_start
    (show start + leftOpened ≤ leftLast + 1 + leftClosed + 1 + rightOpened by omega)
    (hleft.isSolid (by omega) (by omega)) (hright.isSolid (by omega) (by omega))
  have hstops := hordered.stop_le_stop (show leftLast ≤ last by omega)
    (hleft.isSolid (by omega) (by omega)) (hright.isSolid (by omega) (by omega))
  refine ⟨by omega, ?_, hleft.opened_kind, hright.closed_kind, ?_⟩
  · rw [Span.join, hleft.span_eq, hright.span_eq, Nat.min_eq_left hstarts, Nat.max_eq_right hstops]
  · exact hleft.balanced.append (.plain hplain hright.balanced)

/-- Which tokens are in the span can be told from where they are. -/
theorem within_iff (hordered : tokens.InOrder) (hframed : tokens.Framed start opened last closed expr)
    {index : Nat} (hsolid : (tokens.get index).kind.IsSolid) :
    (tokens.get index).span.Within expr.span ↔ start + opened ≤ index ∧ index ≤ last := by
  have hle := hframed.le
  have hfirst := hframed.isSolid (Nat.le_add_right start opened) hle
  have hlast := hframed.isSolid (Nat.le_trans (Nat.le_add_right start opened) hle) (Nat.le_refl last)
  have hlt := hordered.start_lt index hsolid
  rw [hframed.span_eq]
  constructor
  · rintro ⟨hstart, hstop⟩
    dsimp only at hstart hstop
    refine ⟨Nat.le_of_not_lt fun hbefore => ?_, Nat.le_of_not_lt fun hbehind => ?_⟩
    · have hapart := hordered.stop_le _ _ hbefore hsolid hfirst
      omega
    · have hapart := hordered.stop_le _ _ hbehind hlast hsolid
      omega
  · rintro ⟨hge, hle⟩
    exact ⟨hordered.start_le_start hge hfirst hsolid, hordered.stop_le_stop hle hsolid hlast⟩

/-- If the parentheses left out in front are closed within the span, its brackets are balanced only
if there are no such parentheses on either side. -/
theorem eq_zero_of_balanced (hframed : tokens.Framed start opened last closed expr) {middle : Nat}
    (hfront : tokens.Balanced start middle) (hopened : start + opened ≤ middle)
    (hlast : middle ≤ last + 1) (hinner : tokens.Balanced (start + opened) (last + 1)) :
    opened = 0 ∧ closed = 0 := by
  have hrunOpened := openBrackets_run hframed.opened_kind
  have hrunClosed := openBrackets_run hframed.closed_kind
  rw [show bracketStep .parenthesisOpen = 1 from rfl] at hrunOpened
  rw [show bracketStep .parenthesisClose = -1 from rfl] at hrunClosed
  obtain ⟨hfrontEnd, -⟩ := hfront.openBrackets
  obtain ⟨hinnerEnd, hinnerLe⟩ := hinner.openBrackets
  obtain ⟨houterEnd, -⟩ := hframed.balanced.openBrackets
  -- At `middle` all brackets left out in front are closed, but in a balanced span no fewer are open
  -- there than where it starts.
  have hmiddle := hinnerLe middle hopened hlast
  omega

end Framed

private theorem Places.framed (hordered : tokens.InOrder) {stop : Nat}
    (hplaced : tokens.Places start stop expr) :
    ∃ opened last closed, stop = last + 1 + closed ∧ tokens.Framed start opened last closed expr := by
  induction hplaced with
  | @whole start stop form hlt hbalanced =>
    obtain ⟨last, rfl⟩ : ∃ last, stop = last + 1 := ⟨stop - 1, by omega⟩
    exact ⟨0, last, 0, rfl, .whole (Nat.le_of_lt_succ hlt) hbalanced⟩
  | joined _ _ hplain _ ihLeft ihRight =>
    obtain ⟨leftOpened, leftLast, leftClosed, rfl, hleft⟩ := ihLeft
    obtain ⟨rightOpened, last, rightClosed, rfl, hright⟩ := ihRight
    exact ⟨leftOpened, last, rightClosed, rfl, hleft.join hordered hplain hright⟩
  | grouped hopen _ hclose ih =>
    obtain ⟨opened, last, closed, rfl, hframed⟩ := ih
    exact ⟨opened + 1, last, closed + 1, rfl, hframed.grouped hopen hclose⟩

/-- The span of an expression by how it was read. Parentheses that group it as a whole do
not count. -/
theorem Places.trims (hordered : tokens.InOrder) {stop : Nat}
    (hplaced : tokens.Places start stop expr) :
    ∃ start opened last closed, tokens.Trims start opened last closed expr := by
  induction hplaced with
  | @whole start stop form hlt hbalanced =>
    obtain ⟨last, rfl⟩ : ∃ last, stop = last + 1 := ⟨stop - 1, by omega⟩
    have hframed : tokens.Framed start 0 last 0 ⟨tokens.spanBetween start (last + 1), form⟩ :=
      .whole (Nat.le_of_lt_succ hlt) hbalanced
    exact ⟨start, 0, last, 0, hframed, fun _ => hframed.within_iff hordered, by simpa using hbalanced,
      .inl ⟨rfl, rfl⟩⟩
  | @joined start _ _ operator left right hne hleftPlaced hplain hrightPlaced =>
    obtain ⟨leftOpened, leftLast, leftClosed, rfl, hleft⟩ := hleftPlaced.framed hordered
    obtain ⟨rightOpened, last, rightClosed, rfl, hright⟩ := hrightPlaced.framed hordered
    have hleftLe := hleft.le
    have hrightLe := hright.le
    have hframed : tokens.Framed start leftOpened last rightClosed
        ⟨left.span.join right.span, .binary operator left right⟩ := hleft.join hordered hplain hright
    -- The run of the left operand is balanced on its own and ends within the span.
    have hzero := hframed.eq_zero_of_balanced hleft.balanced (by omega) (by omega)
    refine ⟨start, leftOpened, last, rightClosed, hframed, fun _ => hframed.within_iff hordered,
      ⟨hzero, ?_⟩, .inr ⟨operator, left, right, leftLast, leftClosed, rightOpened, hne, rfl, hleft,
        hplain, hright⟩⟩
    rintro ⟨rfl, rfl⟩
    exact hframed.balanced
  | grouped _ _ _ ih => exact ih

end Tokens

/-! ## Modules -/

/-- The outermost level reads expressions that are written in its tokens. -/
theorem Parser.ensuresExprs_isWritten {tokens : Tokens} :
    EnsuresExprs tokens (Expr.IsWritten tokens) where
  expr _ _ _ hreads := (Level.expr_writes Level.outermost_writes hreads).written
  namedExpr _ _ _ hreads := (Level.namedExpr_writes Level.outermost_writes hreads).written
  starExpr _ _ _ hreads := (Level.starExpr_writes Level.outermost_writes hreads).written
  starExprs _ _ _ hreads := (Level.starExprs_writes Level.outermost_writes hreads).written
  starNamedExprs _ _ _ hreads := (Level.starNamedExprs_writes Level.outermost_writes hreads).written
  yieldOrStarExprs _ _ _ hreads :=
    (Level.yieldOrStarExprs_writes Level.outermost_writes hreads).written
  target _ _ _ hreads := (Level.target_writes Level.outermost_writes hreads).written
  targetList _ _ _ hreads := (Level.targetList_writes Level.outermost_writes hreads).written
  arguments _ _ _ hreads := by
    simpa using (Level.arguments_holdsTo Level.outermost_writes hreads).written
  params _ _ _ _ _ hreads :=
    Expr.allHave_flatMap.mp (Level.params_holdsTo Level.outermost_writes hreads).written

/-- The decorators of a form of statement. -/
def StmtForm.decorators : StmtForm → List Decorator
  | .classDef decorators .. => decorators
  | .functionDef decorators .. => decorators
  | _ => []

private theorem StmtForm.expression_mem_exprs {form : StmtForm} {decorator : Decorator}
    (hdecorator : decorator ∈ form.decorators) : decorator.expression ∈ form.exprs := by
  have hmem : decorator.expression ∈ form.decorators.map Decorator.expression :=
    List.mem_map_of_mem hdecorator
  unfold decorators at hmem
  split at hmem
  · exact List.mem_append_left _ (List.mem_append_left _ hmem)
  · exact List.mem_append_left _ (List.mem_append_left _ (List.mem_append_left _ hmem))
  · cases hmem

/-- The expression that a decorator is named after. -/
def Decorator.target (decorator : Decorator) : Expr :=
  match decorator.expression.form with
  | .call callee _ => callee
  | _ => decorator.expression

private theorem Decorator.descends_target (decorator : Decorator) :
    decorator.expression.Descends 0 decorator.target := by
  unfold target
  split
  · rename_i callee arguments hform
    exact .beside (by rw [hform]; exact List.mem_singleton_self callee) (.here callee)
  · exact .here _

private theorem Declaration.decoratorName_eq (source : List Char) (decorator : Decorator) :
    decoratorName source decorator =
      decorator.target.dottedName?.getD (textAt source decorator.target.span) :=
  rfl

/-- **Only binary operators leave parentheses out.** In a source that is a module, the span of every
expression, of those in decorators too, goes from one token to another, and the brackets in it are
balanced unless the expression is a binary operator other than a power. Then its span leaves out the
parentheses around its left operand in front and those around its right operand behind, and the
brackets are balanced only if there are none. A decorator that is named after no dotted name has the
text of such a span for a name. -/
theorem parseModule_brackets {source : String} {module : Module}
    (hparse : parseModule source = .ok module) :
    (∀ {stmt : Stmt} {expr below : Expr} {count : Nat}, Stmt.Within module.body stmt →
      expr ∈ stmt.form.exprs → expr.Descends count below →
      ∃ start opened last closed, (Tokens.ofSource source).Trims start opened last closed below) ∧
    ∀ {stmt : Stmt} {decorator : Decorator}, Stmt.Within module.body stmt →
      decorator ∈ stmt.form.decorators →
      decorator.target.dottedName? = some (Declaration.decoratorName source.toList decorator) ∨
      ∃ start opened last closed,
        (Tokens.ofSource source).Trims start opened last closed decorator.target ∧
        Declaration.decoratorName source.toList decorator = Declaration.textAt source.toList
          ⟨((Tokens.ofSource source).get (start + opened)).span.start,
            ((Tokens.ofSource source).get last).span.stop⟩ := by
  have htrims : ∀ {stmt : Stmt} {expr below : Expr} {count : Nat}, Stmt.Within module.body stmt →
      expr ∈ stmt.form.exprs → expr.Descends count below →
      ∃ start opened last closed, (Tokens.ofSource source).Trims start opened last closed below := by
    intro stmt expr below count hwithin hexpr hdescends
    obtain ⟨before, hreads⟩ := parseModule_wasRead hparse hwithin
    have hwritten := hreads.exprs Parser.ensuresExprs_isWritten expr hexpr
    obtain ⟨start, stop, hplaced⟩ := hwritten hdescends
    exact hplaced.trims (Tokens.inOrder_ofSource source)
  refine ⟨htrims, fun {stmt decorator} hwithin hdecorator => ?_⟩
  rw [Declaration.decoratorName_eq]
  cases hname : decorator.target.dottedName? with
  | some name => exact .inl rfl
  | none =>
    obtain ⟨start, opened, last, closed, htrimmed⟩ := htrims hwithin
      (StmtForm.expression_mem_exprs hdecorator) decorator.descends_target
    refine .inr ⟨start, opened, last, closed, htrimmed, ?_⟩
    rw [← htrimmed.span_eq]
    rfl

/-- A function with a sum for a decorator, whose left operand is in parentheses. -/
def decoratedBySum : String :=
  "@(a) + b\ndef f(): pass\n"

/-- The sum that decorates a function has the closing parenthesis of its left operand in its span,
but not the opening one. -/
theorem parseModule_sumDecorator :
    ∃ module stmt decorator, parseModule decoratedBySum = .ok module ∧
      Stmt.Within module.body stmt ∧ decorator ∈ stmt.form.decorators ∧
      decorator.target.dottedName? = none ∧ decorator.target.span = ⟨2, 8⟩ ∧
      Declaration.decoratorName decoratedBySum.toList decorator = "a) + b" := by
  have hreads : (parseModule decoratedBySum).toOption.any fun module =>
      module.body.any fun stmt => stmt.form.decorators.any fun decorator =>
        decorator.target.dottedName? = none ∧ decorator.target.span = ⟨2, 8⟩ ∧
        Declaration.decoratorName decoratedBySum.toList decorator = "a) + b" := by
    decide +kernel
  cases hparse : parseModule decoratedBySum with
  | error failure =>
    rw [hparse] at hreads
    cases hreads
  | ok module =>
    rw [hparse] at hreads
    obtain ⟨stmt, hstmt, hreads⟩ := List.any_eq_true.mp hreads
    obtain ⟨decorator, hdecorator, hreads⟩ := List.any_eq_true.mp hreads
    exact ⟨module, stmt, decorator, rfl, .among hstmt, hdecorator, of_decide_eq_true hreads⟩

/-- The span of a sum of operands in parentheses starts and ends inside of them. -/
theorem parseModule_brackets_sum :
    ∃ module stmt decorator, parseModule decoratedBySum = .ok module ∧
      Stmt.Within module.body stmt ∧ decorator ∈ stmt.form.decorators ∧
      ∃ start opened last closed,
        (Tokens.ofSource decoratedBySum).Trims start opened last closed decorator.target := by
  obtain ⟨module, stmt, decorator, hparse, hwithin, hdecorator, -⟩ := parseModule_sumDecorator
  exact ⟨module, stmt, decorator, hparse, hwithin, hdecorator, (parseModule_brackets hparse).1 hwithin
    (StmtForm.expression_mem_exprs hdecorator) decorator.descends_target⟩

/-- Between the tokens that the span goes from and to, more brackets are closed than opened. -/
theorem parseModule_brackets_cut :
    ∃ module stmt decorator, parseModule decoratedBySum = .ok module ∧
      Stmt.Within module.body stmt ∧ decorator.expression ∈ stmt.form.exprs ∧
      decorator.expression.Descends 0 decorator.target ∧
      decorator.target.span = ⟨((Tokens.ofSource decoratedBySum).get 2).span.start,
        ((Tokens.ofSource decoratedBySum).get 5).span.stop⟩ ∧
      ¬(Tokens.ofSource decoratedBySum).Balanced 2 6 ∧
      decorator.target.dottedName? = none ∧
      Declaration.decoratorName decoratedBySum.toList decorator = "a) + b" := by
  obtain ⟨module, stmt, decorator, hparse, hwithin, hdecorator, hnone, hspan, hname⟩ :=
    parseModule_sumDecorator
  have htokens : (⟨2, 8⟩ : Span) = ⟨((Tokens.ofSource decoratedBySum).get 2).span.start,
      ((Tokens.ofSource decoratedBySum).get 5).span.stop⟩ := by decide +kernel
  have hcount : (Tokens.ofSource decoratedBySum).openBrackets 6 ≠
      (Tokens.ofSource decoratedBySum).openBrackets 2 := by decide +kernel
  exact ⟨module, stmt, decorator, hparse, hwithin, StmtForm.expression_mem_exprs hdecorator,
    decorator.descends_target, hspan.trans htokens, fun hbalanced => hcount hbalanced.openBrackets.1,
    hnone, hname⟩

end PythonOutline
