import PythonOutline.Proofs.Text.Slice
import PythonOutline.Proofs.Tree.AlikeEq
import PythonOutline.Proofs.Tree.StmtStart

/-! # Alike statements in front of a place

A pattern that was read stands for a run of tokens with text, so it holds text. Statements that were
read are therefore the same as those that may differ from them behind a place only, if all their
spans end in front of it. -/

namespace PythonOutline

/-- The cases of a match statement. -/
def StmtForm.cases : StmtForm → List MatchCase
  | .matchCases _ cases => cases
  | _ => []

/-- Simple statements have no cases. -/
theorem StmtForm.cases_of_isCompound {form : StmtForm} (hsimple : form.isCompound = false) :
    form.cases = [] := by
  cases form <;> first | rfl | cases hsimple

/-! ## Patterns -/

/-- Spans that hold text join to one that does. -/
theorem Span.IsProper.join {source : List Char} {left right : Span} (hleft : left.IsProper source)
    (hright : right.IsProper source) : (left.join right).IsProper source where
  start_lt := Nat.lt_of_le_of_lt (Nat.min_le_left _ _)
    (Nat.lt_of_lt_of_le hleft.start_lt (Nat.le_max_left _ _))
  stop_le := Nat.max_le.mpr ⟨hleft.stop_le, hright.stop_le⟩
  start_isBoundary := by
    rcases Nat.le_total left.start right.start with hle | hle
    · rw [Span.join, Nat.min_eq_left hle]
      exact hleft.start_isBoundary
    · rw [Span.join, Nat.min_eq_right hle]
      exact hright.start_isBoundary
  stop_isBoundary := by
    rcases Nat.le_total left.stop right.stop with hle | hle
    · rw [Span.join, Nat.max_eq_right hle]
      exact hright.stop_isBoundary
    · rw [Span.join, Nat.max_eq_left hle]
      exact hleft.stop_isBoundary

/-- The span of a token with text is a proper one of the source. -/
theorem Tokens.InOrder.isProper {tokens : Tokens} (hordered : tokens.InOrder) {index : Nat}
    (hsolid : (tokens.get index).kind.IsSolid) :
    (tokens.get index).span.IsProper tokens.source where
  start_lt := hordered.start_lt index hsolid
  stop_le := (hordered.stop_isBoundary index hsolid).le_byteLength
  start_isBoundary := hordered.start_isBoundary index hsolid
  stop_isBoundary := hordered.stop_isBoundary index hsolid

namespace Parser

variable {tokens : Tokens} {before after : Place} {stmt : Stmt} {block : Parser (List Stmt)}
  (hordered : tokens.InOrder)

include hordered

/-- The tokens of a pattern are joined to a span that holds text. -/
theorem patternSpan?_isProper :
    patternSpan?.Ensures tokens fun span => ∀ proper ∈ span, proper.IsProper tokens.source := by
  intro before span after hreads
  simp only [patternSpan?, reads_iterate] at hreads
  obtain ⟨count, -, hiterates⟩ := hreads
  generalize hstate : ((0, none) : Nat × Option Span) = state at hiterates
  have hspan : ∀ proper ∈ state.2, proper.IsProper tokens.source := by
    rw [← hstate]
    simp
  clear hstate
  induction hiterates with
  | @done state before after result hstep =>
    simp at hstep
    obtain ⟨-, rfl, -⟩ := hstep
    exact hspan
  | @next _ state state' before middle after _ hstep _ ih =>
    simp at hstep
    obtain ⟨-, ⟨hend, hvalid, hsignificant⟩, -, rfl⟩ := hstep
    have htoken := hordered.isProper ⟨hsignificant, hend, hvalid⟩
    refine ih ?_
    rintro proper ⟨⟩
    cases hjoin : state.2 with
    | none => exact htoken
    | some other => exact htoken.join (hspan other hjoin)

private theorem casePattern_ne : casePattern.Ensures tokens fun pattern => pattern ≠ "" := by
  intro before pattern after hreads
  obtain ⟨span, hspan, rfl⟩ := reads_casePattern.mp hreads
  have hproper := patternSpan?_isProper hordered hspan span rfl
  have hslice := Text.slice_ne_nil hproper.start_isBoundary hproper.stop_isBoundary hproper.start_lt
  intro hempty
  exact hslice (by simpa using congrArg String.toList hempty)

private theorem matchCase_pattern_ne :
    (matchCase block).Ensures tokens fun case => case.pattern ≠ "" := by
  intro before case after hreads
  obtain ⟨pattern, _, hpattern, _, _, -, body, -, rfl⟩ := reads_matchCase.mp hreads
  exact casePattern_ne hordered hpattern

omit hordered in
/-- Only match statements have cases. -/
theorem ReadsCompound.reads_matchStmt? (hcompound : ReadsCompound block tokens before stmt after)
    {case : MatchCase} (hcase : case ∈ stmt.form.cases) :
    (matchStmt? block).Reads tokens (before.look 1) (some stmt) after := by
  cases hcompound with
  | definition _ hreads =>
    obtain ⟨_, _, form, -, rfl, ⟨-, hclass⟩ | ⟨-, hfunction⟩⟩ := reads_definition hreads
    · obtain ⟨_, _, _, _, _, _, _, -, -, -, -, -, rfl⟩ := reads_classDef hclass
      cases hcase
    · obtain ⟨_, _, _, _, _, _, _, _, _, _, _, -, -, -, -, -, -, -, -, rfl⟩ :=
        reads_functionDef hfunction
      cases hcase
  | loop _ hreads =>
    obtain ⟨_, _, _, _, _, _, _, _, _, -, -, -, -, -, -, -, rfl⟩ := reads_forStmt hreads
    cases hcase
  | context _ hreads =>
    obtain ⟨_, _, _, _, _, -, -, -, -, rfl⟩ := reads_withStmt hreads
    cases hcase
  | conditional _ hreads =>
    obtain ⟨_, _, -, hcompletes⟩ := reads_ifStmt hreads
    cases hcompletes <;> cases hcase
  | attempt _ hreads =>
    obtain ⟨-, _, _, _, _, -, -, _, _, rfl, -⟩ := reads_tryStmt hreads
    cases hcase
  | whileLoop _ hreads =>
    obtain ⟨-, _, _, -, _, _, -, _, -, rfl⟩ := reads_whileStmt.mp hreads
    cases hcase
  | cases _ hreads => exact hreads

omit hordered in
/-- A statement with cases was read as a match statement. -/
theorem ReadsStmt.reads_matchStmt? (hreads : ReadsStmt tokens before stmt) {case : MatchCase}
    (hcase : case ∈ stmt.form.cases) :
    ∃ depth start after, (matchStmt? (blockWithin depth)).Reads tokens start (some stmt) after := by
  cases hreads with
  | simple hreads =>
    rw [StmtForm.cases_of_isCompound (simpleStmt_isCompound hreads)] at hcase
    cases hcase
  | compound _ hcompound => exact ⟨_, _, _, hcompound.reads_matchStmt? hcase⟩
  | elif _ hcompletes => cases hcompletes <;> cases hcase

/-- The patterns of a statement that was read hold text. -/
theorem ReadsStmt.pattern_ne (hreads : ReadsStmt tokens before stmt) :
    ∀ case ∈ stmt.form.cases, case.pattern ≠ "" := by
  intro case hcase
  obtain ⟨depth, start, after, hmatch⟩ := hreads.reads_matchStmt? hcase
  obtain ⟨_, _, _, _, -, hcases, -, -, rfl⟩ := reads_matchStmt?_some hmatch
  exact (matchCase_pattern_ne hordered).repeats hcases case hcase

end Parser

/-! ## Statements -/

variable {size : Nat} {tokens : Tokens}

mutual

/-- Statements that were read and are alike in front of a place are the same. -/
theorem Stmt.Alike.eq (hordered : tokens.InOrder) :
    ∀ {stmt stmt' : Stmt}, stmt.Alike (.upTo size) stmt' → stmt.node.EndsBy size →
    Parser.WasRead tokens stmt → stmt' = stmt
  | ⟨_, _⟩, _, ⟨hspan, hform⟩, hends, ⟨_, hreads⟩ => by
    rw [Stmt.node, Node.endsBy_mk] at hends
    rw [hspan hends.1, hform.eq hordered hends.2 hreads.inner (hreads.pattern_ne hordered)]
termination_by structural stmt => stmt

/-- Forms of statements that were read and are alike in front of a place are the same. -/
theorem StmtForm.Alike.eq (hordered : tokens.InOrder) :
    ∀ {form form' : StmtForm}, form.Alike (.upTo size) form' →
    (∀ child ∈ form.children, child.EndsBy size) →
    (∀ stmt ∈ form.stmts, Parser.WasRead tokens stmt) →
    (∀ case ∈ form.cases, case.pattern ≠ "") → form' = form
  | .annotate _ _ _, _, .annotate htarget hhint hvalue, hbelow, _, _ => by
    rw [StmtForm.children, List.forall_mem_cons, List.forall_mem_cons] at hbelow
    rw [htarget.eq hbelow.1, hhint.eq hbelow.2.1, expr?_eq hvalue hbelow.2.2]
  | .assert _ _, _, .assert htest hmessage, hbelow, _, _ => by
    rw [StmtForm.children, List.forall_mem_cons] at hbelow
    rw [htest.eq hbelow.1, expr?_eq hmessage hbelow.2]
  | .assign _ _, _, .assign htargets hvalue, hbelow, _, _ => by
    rw [StmtForm.children, List.forall_mem_append, List.forall_mem_singleton] at hbelow
    rw [exprs_eq htargets hbelow.1, hvalue.eq hbelow.2]
  | .augment _ _ _, _, .augment htarget hvalue, hbelow, _, _ => by
    rw [StmtForm.children, List.forall_mem_cons, List.forall_mem_singleton] at hbelow
    rw [htarget.eq hbelow.1, hvalue.eq hbelow.2]
  | .break, _, .break, _, _, _ => rfl
  | .classDef _ _ _ _ _, _, .classDef hdecorators hname htypeParams harguments hbody, hbelow,
    hread, _ => by
    rw [StmtForm.children, List.forall_mem_append, List.forall_mem_append, List.forall_mem_append,
      List.forall_mem_cons, Name.node, Node.leaf, Node.endsBy_mk] at hbelow
    obtain ⟨⟨⟨hdecoratorsEnd, hnameEnds, htypeParamsEnd⟩, hargumentsEnd⟩, hbodyEnds⟩ := hbelow
    rw [items_eq Decorator.Alike.eq hdecorators hdecoratorsEnd, hname.eq hnameEnds.1,
      items_eq TypeParam.Alike.eq htypeParams htypeParamsEnd, arguments_eq harguments hargumentsEnd,
      stmts_eq hordered hbody hbodyEnds hread]
  | .continue, _, .continue, _, _, _ => rfl
  | .delete _, _, .delete htargets, hbelow, _, _ => by
    rw [exprs_eq htargets hbelow]
  | .expression _, _, .expression hvalue, hbelow, _, _ => by
    rw [StmtForm.children, List.forall_mem_singleton] at hbelow
    rw [hvalue.eq hbelow]
  | .forLoop _ _ _ _ _, _, .forLoop htarget hiterable hbody horElse, hbelow, hread, _ => by
    rw [StmtForm.children, List.forall_mem_cons, List.forall_mem_cons,
      List.forall_mem_append] at hbelow
    rw [StmtForm.stmts, List.forall_mem_append] at hread
    rw [htarget.eq hbelow.1, hiterable.eq hbelow.2.1, stmts_eq hordered hbody hbelow.2.2.1 hread.1,
      stmts_eq hordered horElse hbelow.2.2.2 hread.2]
  | .functionDef _ _ _ _ _ _ _, _,
    .functionDef hdecorators hname htypeParams hparams hreturns hbody, hbelow, hread, _ => by
    rw [StmtForm.children, List.forall_mem_append, List.forall_mem_append, List.forall_mem_append,
      List.forall_mem_append, List.forall_mem_cons, Name.node, Node.leaf, Node.endsBy_mk] at hbelow
    obtain ⟨⟨⟨⟨hdecoratorsEnd, hnameEnds, htypeParamsEnd⟩, hparamsEnd⟩, hreturnsEnds⟩, hbodyEnds⟩ :=
      hbelow
    rw [items_eq Decorator.Alike.eq hdecorators hdecoratorsEnd, hname.eq hnameEnds.1,
      items_eq TypeParam.Alike.eq htypeParams htypeParamsEnd, params_eq hparams hparamsEnd,
      expr?_eq hreturns hreturnsEnds, stmts_eq hordered hbody hbodyEnds hread]
  | .global _, _, .global, _, _, _ => rfl
  | .conditional _ _ _, _, .conditional htest hconsequent halternate, hbelow, hread, _ => by
    rw [StmtForm.children, List.forall_mem_cons, List.forall_mem_append] at hbelow
    rw [StmtForm.stmts, List.forall_mem_append] at hread
    rw [htest.eq hbelow.1, stmts_eq hordered hconsequent hbelow.2.1 hread.1,
      stmts_eq hordered halternate hbelow.2.2 hread.2]
  | .importModules _, _, .importModules hnames, hbelow, _, _ => by
    rw [items_eq ImportAlias.Alike.eq hnames hbelow]
  | .importFrom _ _ .all, _, .importFrom .all, _, _, _ => rfl
  | .importFrom _ _ (.specific _), _, .importFrom (.specific hnames), hbelow, _, _ => by
    rw [items_eq ImportAlias.Alike.eq hnames hbelow]
  | .matchCases _ _, _, .matchCases hsubject hcases, hbelow, hread, hpatterns => by
    rw [StmtForm.children, List.forall_mem_cons] at hbelow
    rw [hsubject.eq hbelow.1, matchCases_eq hordered hcases hbelow.2 hread hpatterns]
  | .nonlocal _, _, .nonlocal, _, _, _ => rfl
  | .pass, _, .pass, _, _, _ => rfl
  | .raise _ _, _, .raise hexception hcause, hbelow, _, _ => by
    rw [StmtForm.children, List.forall_mem_append] at hbelow
    rw [expr?_eq hexception hbelow.1, expr?_eq hcause hbelow.2]
  | .return _, _, .return hvalue, hbelow, _, _ => by
    rw [expr?_eq hvalue hbelow]
  | .tryBlock _ _ _ _ _, _, .tryBlock hbody hhandlers horElse hfinal, hbelow, hread, _ => by
    rw [StmtForm.children, List.forall_mem_append, List.forall_mem_append,
      List.forall_mem_append] at hbelow
    rw [StmtForm.stmts, List.forall_mem_append, List.forall_mem_append,
      List.forall_mem_append] at hread
    obtain ⟨⟨⟨hbodyEnds, hhandlersEnd⟩, horElseEnds⟩, hfinalEnds⟩ := hbelow
    obtain ⟨⟨⟨hbodyRead, hhandlersRead⟩, horElseRead⟩, hfinalRead⟩ := hread
    rw [stmts_eq hordered hbody hbodyEnds hbodyRead,
      handlers_eq hordered hhandlers hhandlersEnd hhandlersRead,
      stmts_eq hordered horElse horElseEnds horElseRead,
      stmts_eq hordered hfinal hfinalEnds hfinalRead]
  | .typeAlias _ _ _, _, .typeAlias htypeParams hvalue, hbelow, _, _ => by
    rw [StmtForm.children, List.forall_mem_append, List.forall_mem_singleton] at hbelow
    rw [items_eq TypeParam.Alike.eq htypeParams hbelow.1, hvalue.eq hbelow.2]
  | .whileLoop _ _ _, _, .whileLoop htest hbody horElse, hbelow, hread, _ => by
    rw [StmtForm.children, List.forall_mem_cons, List.forall_mem_append] at hbelow
    rw [StmtForm.stmts, List.forall_mem_append] at hread
    rw [htest.eq hbelow.1, stmts_eq hordered hbody hbelow.2.1 hread.1,
      stmts_eq hordered horElse hbelow.2.2 hread.2]
  | .withBlock _ _ _, _, .withBlock hitems hbody, hbelow, hread, _ => by
    rw [StmtForm.children, List.forall_mem_append] at hbelow
    rw [items_eq WithItem.Alike.eq hitems hbelow.1, stmts_eq hordered hbody hbelow.2 hread]
termination_by structural form => form

/-- Lists of such statements are the same. -/
theorem stmts_eq (hordered : tokens.InOrder) : ∀ {stmts stmts' : List Stmt},
    List.Forall₂ (Stmt.Alike (.upTo size)) stmts stmts' →
    (∀ child ∈ stmtNodes stmts, child.EndsBy size) → (∀ stmt ∈ stmts, Parser.WasRead tokens stmt) →
    stmts' = stmts
  | [], _, .nil, _, _ => rfl
  | _ :: _, _, .cons hstmt hstmts, hbelow, hread => by
    rw [stmtNodes, List.forall_mem_cons] at hbelow
    rw [List.forall_mem_cons] at hread
    rw [hstmt.eq hordered hbelow.1 hread.1, stmts_eq hordered hstmts hbelow.2 hread.2]
termination_by structural stmts => stmts

private theorem handlers_eq (hordered : tokens.InOrder) : ∀ {handlers handlers' : List Handler},
    List.Forall₂ (Handler.Alike (.upTo size)) handlers handlers' →
    (∀ child ∈ handlerNodes handlers, child.EndsBy size) →
    (∀ stmt ∈ handlers.flatMap Handler.body, Parser.WasRead tokens stmt) → handlers' = handlers
  | [], _, .nil, _, _ => rfl
  | ⟨_, _, _, _⟩ :: _, _, .cons ⟨hspan, hexception, hbody⟩ hhandlers, hbelow, hread => by
    rw [handlerNodes, List.forall_mem_cons, Node.endsBy_mk, List.forall_mem_append] at hbelow
    rw [List.flatMap_cons, List.forall_mem_append] at hread
    obtain ⟨⟨hstop, hexceptionEnds, hbodyEnds⟩, hhandlersEnd⟩ := hbelow
    rw [hspan hstop, expr?_eq hexception hexceptionEnds, stmts_eq hordered hbody hbodyEnds hread.1,
      handlers_eq hordered hhandlers hhandlersEnd hread.2]
termination_by structural handlers => handlers

private theorem matchCases_eq (hordered : tokens.InOrder) : ∀ {cases cases' : List MatchCase},
    List.Forall₂ (MatchCase.Alike (.upTo size)) cases cases' →
    (∀ child ∈ matchCaseNodes cases, child.EndsBy size) →
    (∀ stmt ∈ cases.flatMap MatchCase.body, Parser.WasRead tokens stmt) →
    (∀ case ∈ cases, case.pattern ≠ "") → cases' = cases
  | [], _, .nil, _, _, _ => rfl
  | ⟨_, _, _, _⟩ :: _, _, .cons ⟨hspan, hpattern, hguard, hbody⟩ hcases, hbelow, hread, hpatterns => by
    rw [matchCaseNodes, List.forall_mem_cons, Node.endsBy_mk, List.forall_mem_append] at hbelow
    rw [List.flatMap_cons, List.forall_mem_append] at hread
    rw [List.forall_mem_cons] at hpatterns
    obtain ⟨⟨hstop, hguardEnds, hbodyEnds⟩, hcasesEnd⟩ := hbelow
    rw [hspan hstop, hpattern hpatterns.1, expr?_eq hguard hguardEnds,
      stmts_eq hordered hbody hbodyEnds hread.1,
      matchCases_eq hordered hcases hcasesEnd hread.2 hpatterns.2]
termination_by structural cases => cases

end

end PythonOutline
