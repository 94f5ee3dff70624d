import PythonOutline.Proofs.Parser.Loop
import PythonOutline.Proofs.Tree.Laminar

/-! # Parsers that lay out laminar trees

A parser lays out nodes if whatever it reads fits the tokens it takes. This module has the rules for
the building blocks of parsers, and `Fits` for the node of every list and option of a tree.
-/

namespace PythonOutline

namespace Tokens.Fits

variable {tokens : Tokens} {allowed : TokenKind → Prop} {start middle stop : Nat}
  {nodes : List Node}

/-- A token in front of a run. -/
theorem behindToken (hordered : tokens.InOrder) {kind : TokenKind}
    (hkind : (tokens.get start).kind = kind) (hallowed : allowed kind)
    (hfits : tokens.Fits allowed (start + 1) stop nodes) :
    tokens.Fits allowed start stop nodes :=
  append hordered (token hkind hallowed) hfits

/-- A token behind a run. -/
theorem thenToken (hordered : tokens.InOrder) (hfits : tokens.Fits allowed start stop nodes)
    {kind : TokenKind} (hkind : (tokens.get stop).kind = kind) (hallowed : allowed kind) :
    tokens.Fits allowed start (stop + 1) nodes := by
  have happend := hfits.append hordered (token hkind hallowed)
  rwa [List.append_nil] at happend

/-- A node that is a single token. -/
theorem leaf (kind : String) (hsolid : (tokens.get start).kind.IsSolid) :
    tokens.Fits TokenKind.IsSolid start (start + 1) [.mk kind (tokens.get start).span []] := by
  refine ⟨Nat.le_succ _, ?_, ?_, List.pairwise_singleton _ _⟩
  · intro index hstart hstop
    obtain rfl : index = start := by omega
    exact hsolid
  · intro node hnode
    obtain rfl := List.mem_singleton.mp hnode
    refine ⟨.mk (by simp) (by simp) .nil (by simp), start, start, Nat.le_refl _, Nat.le_refl _,
      Nat.lt_succ_self _, hsolid, hsolid, rfl⟩

/-- Nodes within a run of solid tokens become the children of a node with the span of the run. -/
theorem solid (hordered : tokens.InOrder)
    (hfits : tokens.Fits TokenKind.IsSolid start stop nodes) (kind : String) (hlt : start < stop) :
    tokens.Fits TokenKind.IsSolid start stop [.mk kind (tokens.spanBetween start stop) nodes] :=
  hfits.node hordered (fun _ hsolid => ⟨hsolid.2.2, hsolid.2.1⟩) kind (Nat.le_refl _) hlt
    (hfits.kinds start (Nat.le_refl _) hlt)

/-- Two nodes with a token between them become the children of a node that joins their spans. -/
theorem join (hordered : tokens.InOrder) {left right : Node}
    (hleft : tokens.Fits TokenKind.IsSolid start middle [left])
    (hkind : (tokens.get middle).kind.IsSolid)
    (hright : tokens.Fits TokenKind.IsSolid (middle + 1) stop [right]) (kind : String) :
    tokens.Fits TokenKind.IsSolid start stop
      [.mk kind (left.span.join right.span) [left, right]] := by
  have hboth := (hleft.thenToken hordered rfl hkind).append hordered hright
  obtain ⟨-, leftFirst, leftLast, hleftFirst, hleftLe, hleftLast, hleftFirstSolid, hleftLastSolid,
    hleftSpan⟩ := hleft.sits left (List.mem_singleton_self _)
  obtain ⟨-, rightFirst, rightLast, hrightFirst, hrightLe, hrightLast, hrightFirstSolid,
    hrightLastSolid, hrightSpan⟩ := hright.sits right (List.mem_singleton_self _)
  have hstarts := hordered.start_le_start (Nat.le_trans hleftLe (by omega)) hleftFirstSolid
    hrightFirstSolid
  have hstops := hordered.stop_le_stop (Nat.le_trans (by omega) hrightLe) hleftLastSolid
    hrightLastSolid
  have hjoin : left.span.join right.span =
      ⟨(tokens.get leftFirst).span.start, (tokens.get rightLast).span.stop⟩ := by
    rw [hleftSpan, hrightSpan, Span.join, Nat.min_eq_left hstarts, Nat.max_eq_right hstops]
  refine ⟨hboth.le, hboth.kinds, ?_, List.pairwise_singleton _ _⟩
  intro node hnode
  obtain rfl := List.mem_singleton.mp hnode
  refine ⟨.mk ?_ ?_ hboth.apart ?_, leftFirst, rightLast, hleftFirst, by omega, hrightLast,
    hleftFirstSolid, hrightLastSolid, hjoin⟩
  · intro child hchild
    exact (hboth.sits child hchild).isProper hordered
  · intro child hchild
    rw [hjoin]
    rcases List.mem_cons.mp hchild with rfl | hchild
    · rw [hleftSpan]
      exact ⟨Nat.le_refl _, hstops⟩
    · obtain rfl := List.mem_singleton.mp hchild
      rw [hrightSpan]
      exact ⟨hstarts, Nat.le_refl _⟩
  · intro child hchild
    exact (hboth.sits child hchild).1

end Tokens.Fits

namespace Parser

variable {α : Type} {tokens : Tokens} {allowed : TokenKind → Prop} {before after : Place}

/-- What a parser reads fits the tokens that it takes. -/
def Lays (parser : Parser α) (tokens : Tokens) (allowed : TokenKind → Prop)
    (nodes : α → List Node) : Prop :=
  ∀ ⦃before value after⦄, parser.Reads tokens before value after →
    tokens.Fits allowed before.next after.next (nodes value)

/-- Tokens that were only looked at do not count. -/
theorem Lays.look {parser : Parser α} {nodes : α → List Node}
    (hlays : parser.Lays tokens allowed nodes) {distance : Nat} {value : α}
    (hreads : parser.Reads tokens (before.look distance) value after) :
    tokens.Fits allowed before.next after.next (nodes value) :=
  @hlays (before.look distance) value after hreads

/-- A token that may be there holds no node. -/
theorem lays_accept {kind : TokenKind} (hallowed : allowed kind) :
    (accept kind).Lays tokens allowed fun _ => [] := by
  intro before value after hreads
  rw [reads_accept] at hreads
  split at hreads
  · rename_i hkind
    obtain ⟨-, rfl⟩ := hreads
    exact .token hkind hallowed
  · obtain ⟨-, rfl⟩ := hreads
    exact .nil _ _ _

/-- A look at the next token takes none. -/
theorem lays_nextIs {kind : TokenKind} : (nextIs kind).Lays tokens allowed fun _ => [] := by
  intro before value after hreads
  obtain ⟨-, rfl⟩ := reads_nextIs.mp hreads
  exact .nil _ _ _

/-- An identifier is text without a node. -/
theorem lays_identifier : identifier.Lays tokens TokenKind.IsSolid fun _ => [] := by
  intro before value after hreads
  obtain ⟨hkind, -, rfl⟩ := reads_identifier.mp hreads
  exact .token hkind (by decide)

variable {item : Parser α} {node : α → Node} {values : List α}

/-- What may be there is a node at most. -/
theorem Lays.ifAccepted (hordered : tokens.InOrder)
    (hitem : item.Lays tokens allowed fun value => [node value]) {kind : TokenKind}
    (hallowed : allowed kind) :
    (ifAccepted kind item).Lays tokens allowed fun value => value.toList.map node := by
  intro before value after hreads
  rw [reads_ifAccepted] at hreads
  split at hreads
  · rename_i hkind
    obtain ⟨value, hvalue, rfl⟩ := hreads
    exact (hitem hvalue).behindToken hordered hkind hallowed
  · obtain ⟨rfl, rfl⟩ := hreads
    exact .nil _ _ _

/-- The values of a repetition are nodes behind each other. -/
theorem Lays.repeats (hordered : tokens.InOrder) {condition : Parser Bool}
    (hstop : ∀ ⦃before after⦄, condition.Reads tokens before false after →
      tokens.Fits allowed before.next after.next [])
    (hitem : ∀ ⦃before start value after⦄, condition.Reads tokens before true start →
      item.Reads tokens start value after →
      tokens.Fits allowed before.next after.next [node value])
    (hrepeats : Repeats condition item tokens before values after) :
    tokens.Fits allowed before.next after.next (values.map node) := by
  induction hrepeats with
  | stop hcondition => exact hstop hcondition
  | item hcondition hvalue _ ih => exact (hitem hcondition hvalue).append hordered ih

/-- Items that are read while a token stands in front of them, which is taken. -/
theorem Lays.repeatsBehind (hordered : tokens.InOrder)
    (hitem : item.Lays tokens allowed fun value => [node value]) {kind : TokenKind}
    (hallowed : allowed kind)
    (hrepeats : Repeats (accept kind) item tokens before values after) :
    tokens.Fits allowed before.next after.next (values.map node) :=
  Lays.repeats hordered (fun _ _ hcondition => lays_accept hallowed hcondition)
    (fun _ _ _ _ hcondition hvalue =>
      (lays_accept hallowed hcondition).append hordered (hitem hvalue)) hrepeats

/-- The values of a list in brackets are nodes behind each other. -/
theorem Lays.lists (hordered : tokens.InOrder)
    (hitem : item.Lays tokens allowed fun value => [node value]) (hcomma : allowed .comma)
    {close : TokenKind} (hclose : allowed close)
    (hlists : Lists close item tokens before values after) :
    tokens.Fits allowed before.next after.next (values.map node) := by
  induction hlists with
  | close hkind => exact .token hkind hclose
  | last _ hvalue hkind => exact (hitem hvalue).thenToken hordered hkind hclose
  | item _ hvalue hkind _ ih =>
    exact ((hitem hvalue).thenToken hordered hkind hcomma).append hordered ih

/-- Further values behind separators are nodes behind each other. -/
theorem Lays.continues (hordered : tokens.InOrder)
    (hitem : item.Lays tokens allowed fun value => [node value]) {separator : TokenKind}
    (hseparator : allowed separator) {starts : TokenKind → Bool}
    (hcontinues : Continues separator starts item tokens before values after) :
    tokens.Fits allowed before.next after.next (values.map node) := by
  induction hcontinues with
  | stop => exact .nil _ _ _
  | trailing hkind => exact .token hkind hseparator
  | item hkind _ hvalue _ ih =>
    exact ((hitem hvalue).behindToken hordered hkind hseparator).append hordered ih

end Parser

/-! ## Lists and options of a tree as nodes -/

/-- An argument as a node. -/
def Argument.node (argument : Argument) : Node :=
  .mk "call_arg" argument.span [argument.value.node]

/-- A clause of a comprehension as a node. -/
def ForClause.node (clause : ForClause) : Node :=
  .mk "comprehension_for" clause.span
    (clause.target.node :: clause.iterable.node :: exprNodes clause.conditions)

/-- An entry of a dict display as a node. -/
def DictEntry.node (entry : DictEntry) : Node :=
  .mk "dict_entry" entry.span (exprNode? entry.key ++ [entry.value.node])

/-- A parameter as a node. -/
def Param.node (param : Param) : Node :=
  .mk "param" param.span (exprNode? param.typeHint ++ exprNode? param.defaultValue)

/-- An exception handler as a node. -/
def Handler.node (handler : Handler) : Node :=
  .mk "except_handler" handler.span (exprNode? handler.exception ++ stmtNodes handler.body)

/-- A case of a match statement as a node. -/
def MatchCase.node (case : MatchCase) : Node :=
  .mk "match_case" case.span (exprNode? case.guard ++ stmtNodes case.body)

@[simp]
theorem exprNodes_eq (exprs : List Expr) : exprNodes exprs = exprs.map Expr.node := by
  induction exprs with
  | nil => rfl
  | cons expr exprs ih => rw [exprNodes, ih, List.map_cons]

@[simp]
theorem exprNode?_eq (expr : Option Expr) : exprNode? expr = expr.toList.map Expr.node := by
  cases expr <;> rfl

@[simp]
theorem argumentNodes_eq (arguments : List Argument) :
    argumentNodes arguments = arguments.map Argument.node := by
  induction arguments with
  | nil => rfl
  | cons argument arguments ih =>
    cases argument
    rw [argumentNodes, ih, List.map_cons, Argument.node]

@[simp]
theorem forClauseNodes_eq (clauses : List ForClause) :
    forClauseNodes clauses = clauses.map ForClause.node := by
  induction clauses with
  | nil => rfl
  | cons clause clauses ih =>
    cases clause
    rw [forClauseNodes, ih, List.map_cons, ForClause.node]

@[simp]
theorem dictEntryNodes_eq (entries : List DictEntry) :
    dictEntryNodes entries = entries.map DictEntry.node := by
  induction entries with
  | nil => rfl
  | cons entry entries ih =>
    cases entry
    rw [dictEntryNodes, ih, List.map_cons, DictEntry.node]

@[simp]
theorem paramNodes_eq (params : List Param) : paramNodes params = params.map Param.node := by
  induction params with
  | nil => rfl
  | cons param params ih =>
    cases param
    rw [paramNodes, ih, List.map_cons, Param.node]

@[simp]
theorem stmtNodes_eq (stmts : List Stmt) : stmtNodes stmts = stmts.map Stmt.node := by
  induction stmts with
  | nil => rfl
  | cons stmt stmts ih => rw [stmtNodes, ih, List.map_cons]

@[simp]
theorem handlerNodes_eq (handlers : List Handler) :
    handlerNodes handlers = handlers.map Handler.node := by
  induction handlers with
  | nil => rfl
  | cons handler handlers ih =>
    cases handler
    rw [handlerNodes, ih, List.map_cons, Handler.node]

@[simp]
theorem matchCaseNodes_eq (cases : List MatchCase) :
    matchCaseNodes cases = cases.map MatchCase.node := by
  induction cases with
  | nil => rfl
  | cons case cases ih =>
    cases case
    rw [matchCaseNodes, ih, List.map_cons, MatchCase.node]

end PythonOutline
