import PythonOutline.Proofs.Grammar.Module
import PythonOutline.Proofs.Parser.Ensures

/-! # Where statements start

Every statement of a module was read where a line of statements starts, where a simple statement of
a line starts, or where an `elif` starts the statement that it is. A statement of any depth is found
by going from a statement to those of its blocks, and each of these steps keeps that the statement
was read by the parser of its kind. -/

namespace PythonOutline

/-- The statements in the blocks of a form of statement. -/
def StmtForm.stmts : StmtForm → List Stmt
  | .classDef _ _ _ _ body => body
  | .forLoop _ _ _ body orElse => body ++ orElse
  | .functionDef _ _ _ _ _ _ body => body
  | .conditional _ consequent alternate => consequent ++ alternate
  | .matchCases _ cases => cases.flatMap MatchCase.body
  | .tryBlock body handlers orElse finalBody _ =>
    body ++ handlers.flatMap Handler.body ++ orElse ++ finalBody
  | .whileLoop _ body orElse => body ++ orElse
  | .withBlock _ _ body => body
  | _ => []

/-- A statement is one of some statements, or inside one of them. -/
inductive Stmt.Within : List Stmt → Stmt → Prop where
  | among {stmts : List Stmt} {stmt : Stmt} (hstmt : stmt ∈ stmts) : Within stmts stmt
  | inside {stmts : List Stmt} {outer stmt : Stmt} (houter : outer ∈ stmts)
      (hrest : Within outer.form.stmts stmt) : Within stmts stmt

/-- Simple statements have no blocks. -/
theorem StmtForm.stmts_of_isCompound {form : StmtForm} (hsimple : form.isCompound = false) :
    form.stmts = [] := by
  cases form <;> first | rfl | cases hsimple

namespace Parser

variable {tokens : Tokens} {before after : Place} {stmt : Stmt} {stmts : List Stmt}
  {block line : Parser (List Stmt)}

/-- A statement was read at a place by the parser of simple statements, by that of lines, or as an
`elif`. -/
inductive ReadsStmt (tokens : Tokens) (before : Place) (stmt : Stmt) : Prop where
  | simple {after : Place} (hreads : simpleStmt.Reads tokens before stmt after)
  | compound {depth : Nat} {after : Place}
      (hline : (stmtLineOver (blockWithin depth)).Reads tokens before [stmt] after)
      (hcompound : ReadsCompound (blockWithin depth) tokens before stmt after)
  | elif {depth : Nat} {clause : IfClause} {middle after : Place}
      (hclause : (ifClause (blockWithin depth)).Reads tokens before clause middle)
      (hcompletes : Completes (blockWithin depth) tokens clause middle stmt after)

/-- A statement was read somewhere. -/
def WasRead (tokens : Tokens) (stmt : Stmt) : Prop :=
  ∃ before, ReadsStmt tokens before stmt

/-- All statements that a parser reads were read where they start. -/
abbrev ReadsStmts (parser : Parser (List Stmt)) (tokens : Tokens) : Prop :=
  parser.Ensures tokens fun stmts => ∀ stmt ∈ stmts, WasRead tokens stmt

private theorem simpleStmts_readsStmts : simpleStmts.ReadsStmts tokens := by
  intro before stmts after hreads
  have hstmt : simpleStmt.Ensures tokens (WasRead tokens) := fun before _ _ hstmt =>
    ⟨before, .simple hstmt⟩
  obtain ⟨first, _, others, _, hfirst, hothers, -, -, rfl⟩ := reads_simpleStmts hreads
  exact List.forall_mem_cons.mpr ⟨hstmt hfirst, hstmt.continues hothers⟩

/-- The statements of a line are each read at some place. -/
theorem stmtLineOver_readsStmts (depth : Nat) :
    (stmtLineOver (blockWithin depth)).ReadsStmts tokens := by
  intro before stmts after hreads
  rcases reads_stmtLineOver hreads with ⟨stmt, rfl, hcompound⟩ | ⟨-, start, -, hsimple⟩
  · exact List.forall_mem_singleton.mpr ⟨before, .compound hreads hcompound⟩
  · exact simpleStmts_readsStmts hsimple

/-- The statements of lines are each read at some place. -/
theorem stmtsOver_readsStmts {stop : TokenKind} (hline : line.ReadsStmts tokens) :
    (stmtsOver line stop).ReadsStmts tokens := by
  intro before stmts after hreads
  have hlines := reads_stmtsOver hreads
  clear hreads
  induction hlines with
  | stop => exact List.forall_mem_nil _
  | line _ _ hfirst _ ih => exact List.forall_mem_append.mpr ⟨hline hfirst, ih⟩

private theorem blockWithin_readsStmts (depth : Nat) : (blockWithin depth).ReadsStmts tokens := by
  cases depth with
  | zero => exact ensures_failNext
  | succ depth =>
    intro before stmts after hreads
    obtain ⟨-, hrest⟩ := reads_blockOver.mp hreads
    split at hrest
    · obtain ⟨-, last, hstmts, -, -⟩ := hrest
      exact stmtsOver_readsStmts (stmtLineOver_readsStmts depth) hstmts
    · exact simpleStmts_readsStmts hrest

/-! ## The statements in the blocks of a statement -/

section

variable (hblock : block.ReadsStmts tokens)

include hblock

private theorem elseBlock_readsStmts : (elseBlock block).ReadsStmts tokens := by
  intro before stmts after hreads
  rw [reads_elseBlock] at hreads
  split at hreads
  · exact hblock hreads
  · rw [hreads.1]
    exact List.forall_mem_nil _

private theorem ifClause_readsStmts :
    (ifClause block).Ensures tokens fun clause => ∀ stmt ∈ clause.body, WasRead tokens stmt := by
  intro before clause after hreads
  obtain ⟨-, _, _, -, body, hbody, rfl⟩ := reads_ifClause.mp hreads
  exact hblock hbody

private theorem handler_readsStmts : (handler block).Ensures tokens
    fun handled => ∀ stmt ∈ handled.1.body, WasRead tokens stmt := by
  rintro before ⟨handled, star⟩ after hreads
  obtain ⟨_, _, _, _, _, body, -, -, -, hbody, rfl⟩ := reads_handler hreads
  exact hblock hbody

private theorem tryStmt_readsStmts : (tryStmt block).Ensures tokens
    fun stmt => ∀ inner ∈ stmt.form.stmts, WasRead tokens inner := by
  intro before stmt after hreads
  obtain ⟨-, body, _, handlers, last, hreadsBody, hreadsHandlers, orElse, finalBody, rfl, hrest⟩ :=
    reads_tryStmt hreads
  have hbody := hblock hreadsBody
  have hhandlers := (handler_readsStmts hblock).repeats hreadsHandlers
  have hothers : (∀ inner ∈ orElse, WasRead tokens inner) ∧
      ∀ inner ∈ finalBody, WasRead tokens inner := by
    split at hrest
    · obtain ⟨-, rfl, hfinal⟩ := hrest
      exact ⟨List.forall_mem_nil _, hblock hfinal⟩
    · obtain ⟨final, helse, hrest⟩ := hrest
      refine ⟨elseBlock_readsStmts hblock helse, ?_⟩
      split at hrest
      · exact hblock hrest
      · rw [hrest.1]
        exact List.forall_mem_nil _
  have hhandled : ∀ inner ∈ (handlers.map Prod.fst).flatMap Handler.body, WasRead tokens inner := by
    simp only [List.mem_flatMap, List.mem_map]
    rintro inner ⟨_, ⟨handled, hmem, rfl⟩, hinner⟩
    exact hhandlers handled hmem inner hinner
  exact List.forall_mem_append.mpr ⟨List.forall_mem_append.mpr
    ⟨List.forall_mem_append.mpr ⟨hbody, hhandled⟩, hothers.1⟩, hothers.2⟩

private theorem matchStmt?_readsStmts
    (hreads : (matchStmt? block).Reads tokens before (some stmt) after) :
    ∀ inner ∈ stmt.form.stmts, WasRead tokens inner := by
  obtain ⟨_, _, cases, _, -, hreadsCases, -, -, rfl⟩ := reads_matchStmt?_some hreads
  have hcase : (matchCase block).Ensures tokens
      fun case => ∀ stmt ∈ case.body, WasRead tokens stmt := by
    intro before case after hreads
    obtain ⟨_, _, -, _, _, -, body, hbody, rfl⟩ := reads_matchCase.mp hreads
    exact hblock hbody
  have hcases := hcase.repeats hreadsCases
  intro inner hinner
  obtain ⟨case, hmem, hinner⟩ := List.mem_flatMap.mp hinner
  exact hcases case hmem inner hinner

private theorem definition_readsStmts : (definition block).Ensures tokens
    fun stmt => ∀ inner ∈ stmt.form.stmts, WasRead tokens inner := by
  intro before stmt after hreads
  obtain ⟨_, _, form, -, rfl, ⟨-, hclass⟩ | ⟨-, hfunction⟩⟩ := reads_definition hreads
  · obtain ⟨_, _, _, _, _, _, body, -, -, -, -, hbody, rfl⟩ := reads_classDef hclass
    exact hblock hbody
  · obtain ⟨_, _, _, _, _, _, _, _, _, _, body, -, -, -, -, -, -, -, hbody, rfl⟩ :=
      reads_functionDef hfunction
    exact hblock hbody

end

/-- What completes a clause holds the statements of its block and of those behind it, or the `elif`
that comes next. -/
theorem Completes.readsStmts {depth : Nat} {clause : IfClause}
    (hcompletes : Completes (blockWithin depth) tokens clause before stmt after)
    (hclause : ∀ inner ∈ clause.body, WasRead tokens inner) :
    ∀ inner ∈ stmt.form.stmts, WasRead tokens inner := by
  cases hcompletes with
  | last _ helse =>
    have horElse := elseBlock_readsStmts (blockWithin_readsStmts depth) helse
    exact List.forall_mem_append.mpr ⟨hclause, horElse⟩
  | elif _ hnext hrest =>
    have hinner : WasRead tokens _ := ⟨_, .elif hnext hrest⟩
    exact List.forall_mem_append.mpr ⟨hclause, List.forall_mem_singleton.mpr hinner⟩

private theorem compound_readsStmts {depth : Nat}
    (hcompound : ReadsCompound (blockWithin depth) tokens before stmt after) :
    ∀ inner ∈ stmt.form.stmts, WasRead tokens inner := by
  have hblock : (blockWithin depth).ReadsStmts tokens := blockWithin_readsStmts depth
  cases hcompound with
  | definition _ hreads => exact definition_readsStmts hblock hreads
  | loop _ hreads =>
    obtain ⟨_, _, _, _, _, _, body, _, orElse, -, -, -, -, -, hbody, horElse, rfl⟩ :=
      reads_forStmt hreads
    exact List.forall_mem_append.mpr ⟨hblock hbody, elseBlock_readsStmts hblock horElse⟩
  | context _ hreads =>
    obtain ⟨_, _, _, _, body, -, -, -, hbody, rfl⟩ := reads_withStmt hreads
    exact hblock hbody
  | conditional _ hreads =>
    obtain ⟨first, middle, hfirst, hcompletes⟩ := reads_ifStmt hreads
    exact hcompletes.readsStmts (ifClause_readsStmts hblock hfirst)
  | attempt _ hreads => exact tryStmt_readsStmts hblock hreads
  | whileLoop _ hreads =>
    obtain ⟨-, _, _, -, body, _, hbody, orElse, horElse, rfl⟩ := reads_whileStmt.mp hreads
    exact List.forall_mem_append.mpr ⟨hblock hbody, elseBlock_readsStmts hblock horElse⟩
  | cases _ hreads => exact matchStmt?_readsStmts hblock hreads

/-- The statements of the blocks of a statement were read as well. -/
theorem ReadsStmt.inner (hreads : ReadsStmt tokens before stmt) :
    ∀ inner ∈ stmt.form.stmts, WasRead tokens inner := by
  cases hreads with
  | simple hreads =>
    rw [StmtForm.stmts_of_isCompound (simpleStmt_isCompound hreads)]
    exact List.forall_mem_nil _
  | compound _ hcompound => exact compound_readsStmts hcompound
  | elif hclause hcompletes =>
    exact hcompletes.readsStmts (ifClause_readsStmts (blockWithin_readsStmts _) hclause)

/-- Inside statements that were read where they start, all are. -/
theorem wasRead_of_within (hstmts : ∀ stmt ∈ stmts, WasRead tokens stmt)
    (hwithin : Stmt.Within stmts stmt) : WasRead tokens stmt := by
  induction hwithin with
  | among hstmt => exact hstmts _ hstmt
  | inside houter _ ih =>
    obtain ⟨before, hreads⟩ := hstmts _ houter
    exact ih hreads.inner

end Parser

/-- Every statement of a module was read where it starts. -/
theorem parseModule_wasRead {source : String} {module : Module} {stmt : Stmt}
    (hparse : parseModule source = .ok module) (hwithin : Stmt.Within module.body stmt) :
    Parser.WasRead (.ofSource source) stmt := by
  obtain ⟨body, last, hbody, -, -, rfl⟩ := reads_of_parseModule hparse
  exact Parser.wasRead_of_within
    (Parser.stmtsOver_readsStmts (Parser.stmtLineOver_readsStmts _) hbody) hwithin

end PythonOutline
