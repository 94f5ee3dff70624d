import PythonOutline.Proofs.Grammar.Module
import PythonOutline.Proofs.Lexer.Layout

/-! # Blocks of statements

Most blocks of a compound statement cannot be left out: only what stands behind `else` and `finally`
may be missing. A block that cannot be left out holds a statement, as long as no level of
indentation ends directly behind its start. In a source without line joins at the start of a level
there is no such level; with one, a block may hold nothing. -/

namespace PythonOutline

mutual

/-- The blocks in a statement that cannot be left out, those of the statements inside
it included. -/
def Stmt.blocks : Stmt → List (List Stmt)
  | ⟨_, form⟩ => form.blocks

/-- The blocks in a form of statement that cannot be left out. -/
def StmtForm.blocks : StmtForm → List (List Stmt)
  | .classDef _ _ _ _ body => body :: blocksOf body
  | .forLoop _ _ _ body orElse => body :: (blocksOf body ++ blocksOf orElse)
  | .functionDef _ _ _ _ _ _ body => body :: blocksOf body
  | .conditional _ consequent alternate =>
    consequent :: (blocksOf consequent ++ blocksOf alternate)
  | .matchCases _ cases => caseBlocks cases
  | .tryBlock body handlers orElse finalBody _ =>
    body :: (blocksOf body ++ handlerBlocks handlers ++ blocksOf orElse ++ blocksOf finalBody)
  | .whileLoop _ body orElse => body :: (blocksOf body ++ blocksOf orElse)
  | .withBlock _ _ body => body :: blocksOf body
  | _ => []

/-- The blocks in statements that cannot be left out. -/
def blocksOf : List Stmt → List (List Stmt)
  | [] => []
  | stmt :: stmts => stmt.blocks ++ blocksOf stmts

/-- The blocks of exception handlers and in them. -/
def handlerBlocks : List Handler → List (List Stmt)
  | [] => []
  | ⟨_, _, _, body⟩ :: handlers => body :: (blocksOf body ++ handlerBlocks handlers)

/-- The blocks of cases and in them. -/
def caseBlocks : List MatchCase → List (List Stmt)
  | [] => []
  | ⟨_, _, _, body⟩ :: cases => body :: (blocksOf body ++ caseBlocks cases)

end

@[simp]
theorem Stmt.blocks_eq (stmt : Stmt) : stmt.blocks = stmt.form.blocks := by
  cases stmt
  rfl

attribute [local simp] StmtForm.blocks blocksOf handlerBlocks caseBlocks

/-- Whether blocks all hold a statement. -/
def NoneEmpty (blocks : List (List Stmt)) : Prop :=
  ∀ block ∈ blocks, block ≠ []

@[simp]
theorem noneEmpty_nil : NoneEmpty [] :=
  List.forall_mem_nil _

@[simp]
theorem noneEmpty_cons {block : List Stmt} {blocks : List (List Stmt)} :
    NoneEmpty (block :: blocks) ↔ block ≠ [] ∧ NoneEmpty blocks :=
  List.forall_mem_cons

@[simp]
theorem noneEmpty_append {first others : List (List Stmt)} :
    NoneEmpty (first ++ others) ↔ NoneEmpty first ∧ NoneEmpty others :=
  List.forall_mem_append

private theorem blocksOf_append (first others : List Stmt) :
    blocksOf (first ++ others) = blocksOf first ++ blocksOf others := by
  induction first with
  | nil => rfl
  | cons stmt stmts ih => simp [ih]

/-- A block that holds a statement, with blocks in it that all do. -/
def Filled (block : List Stmt) : Prop :=
  block ≠ [] ∧ NoneEmpty (blocksOf block)

private theorem noneEmpty_handlers {handlers : List Handler}
    (hbodies : ∀ handler ∈ handlers, Filled handler.body) : NoneEmpty (handlerBlocks handlers) := by
  induction handlers with
  | nil => exact noneEmpty_nil
  | cons handler handlers ih =>
    obtain ⟨_, _, _, body⟩ := handler
    obtain ⟨hbody, hothers⟩ := List.forall_mem_cons.mp hbodies
    simpa using ⟨hbody.1, hbody.2, ih hothers⟩

private theorem noneEmpty_cases {cases : List MatchCase}
    (hbodies : ∀ case ∈ cases, Filled case.body) : NoneEmpty (caseBlocks cases) := by
  induction cases with
  | nil => exact noneEmpty_nil
  | cons case cases ih =>
    obtain ⟨_, _, _, body⟩ := case
    obtain ⟨hbody, hothers⟩ := List.forall_mem_cons.mp hbodies
    simpa using ⟨hbody.1, hbody.2, ih hothers⟩

private theorem StmtForm.blocks_of_isCompound {form : StmtForm}
    (hsimple : form.isCompound = false) :
    form.blocks = [] := by
  cases form <;> first | rfl | cases hsimple

/-- Simple statements have no blocks. -/
theorem noneEmpty_of_isCompound {stmts : List Stmt}
    (hsimple : ∀ stmt ∈ stmts, stmt.form.isCompound = false) : NoneEmpty (blocksOf stmts) := by
  induction stmts with
  | nil => exact noneEmpty_nil
  | cons stmt stmts ih =>
    obtain ⟨hfirst, hothers⟩ := List.forall_mem_cons.mp hsimple
    rw [blocksOf, Stmt.blocks_eq, StmtForm.blocks_of_isCompound hfirst]
    exact ih hothers

namespace Parser

variable {tokens : Tokens} {before after : Place} {stmt : Stmt} {block : Parser (List Stmt)}

/-- A parser reads at least one statement, and none with an empty block in it. -/
def Fills (parser : Parser (List Stmt)) (tokens : Tokens) : Prop :=
  ∀ ⦃before stmts after⦄, parser.Reads tokens before stmts after → Filled stmts

private theorem simpleStmts_fills : simpleStmts.Fills tokens := by
  intro before stmts after hreads
  have hsimple := simpleStmts_isCompound hreads
  obtain ⟨first, _, others, _, -, -, -, -, rfl⟩ := reads_simpleStmts hreads
  exact ⟨List.cons_ne_nil _ _, noneEmpty_of_isCompound hsimple⟩

section

variable (hblock : block.Fills tokens)

include hblock

/-! ## Compound statements -/

/-- What may be left out has no empty block in it if it is there. -/
theorem elseBlock_noneEmpty {stmts : List Stmt}
    (hreads : (elseBlock block).Reads tokens before stmts after) : NoneEmpty (blocksOf stmts) := by
  rw [reads_elseBlock] at hreads
  split at hreads
  · exact (hblock hreads).2
  · rw [hreads.1]
    exact noneEmpty_nil

private theorem ifClause_filled {clause : IfClause}
    (hreads : (ifClause block).Reads tokens before clause after) : Filled clause.body := by
  obtain ⟨-, _, _, -, body, hbody, rfl⟩ := reads_ifClause.mp hreads
  exact hblock hbody

private theorem Completes.noneEmpty {clause : IfClause}
    (hcompletes : Completes block tokens clause before stmt after)
    (hclause : Filled clause.body) : NoneEmpty stmt.blocks := by
  induction hcompletes with
  | last _ helse =>
    have horElse := elseBlock_noneEmpty hblock helse
    simpa [IfClause.close] using ⟨hclause.1, hclause.2, horElse⟩
  | elif _ hnext _ ih =>
    have hinner := ih (ifClause_filled hblock hnext)
    rw [Stmt.blocks_eq] at hinner
    simpa [IfClause.close] using ⟨hclause.1, hclause.2, hinner⟩

private theorem ifStmt_noneEmpty (hreads : (ifStmt block).Reads tokens before stmt after) :
    NoneEmpty stmt.blocks := by
  obtain ⟨first, middle, hfirst, hcompletes⟩ := reads_ifStmt hreads
  exact hcompletes.noneEmpty hblock (ifClause_filled hblock hfirst)

private theorem whileStmt_noneEmpty (hreads : (whileStmt block).Reads tokens before stmt after) :
    NoneEmpty stmt.blocks := by
  obtain ⟨-, _, _, -, body, last, hbody, orElse, horElse, rfl⟩ := reads_whileStmt.mp hreads
  have hfilled := hblock hbody
  have hothers := elseBlock_noneEmpty hblock horElse
  simpa using ⟨hfilled.1, hfilled.2, hothers⟩

private theorem forStmt_noneEmpty (hreads : (forStmt block).Reads tokens before stmt after) :
    NoneEmpty stmt.blocks := by
  obtain ⟨_, _, _, _, _, _, body, _, orElse, -, -, -, -, -, hbody, horElse, rfl⟩ :=
    reads_forStmt hreads
  have hfilled := hblock hbody
  have hothers := elseBlock_noneEmpty hblock horElse
  simpa using ⟨hfilled.1, hfilled.2, hothers⟩

private theorem handlers_filled {handlers : List (Handler × Bool)}
    (hrepeats : Repeats (nextIs .keywordExcept) (handler block) tokens before handlers after) :
    ∀ handler ∈ handlers.map Prod.fst, Filled handler.body := by
  induction hrepeats with
  | stop => simp
  | item _ hitem _ ih =>
    obtain ⟨_, _, _, _, _, body, -, -, -, hbody, hhandler⟩ := reads_handler hitem
    refine List.forall_mem_cons.mpr ⟨?_, ih⟩
    rw [hhandler]
    exact hblock hbody

private theorem tryStmt_noneEmpty (hreads : (tryStmt block).Reads tokens before stmt after) :
    NoneEmpty stmt.blocks := by
  obtain ⟨-, body, _, handlers, last, hbody, hhandlers, orElse, finalBody, rfl, hrest⟩ :=
    reads_tryStmt hreads
  have hfilled := hblock hbody
  have hhandled := noneEmpty_handlers (handlers_filled hblock hhandlers)
  have hothers : NoneEmpty (blocksOf orElse) ∧ NoneEmpty (blocksOf finalBody) := by
    split at hrest
    · obtain ⟨-, rfl, hfinal⟩ := hrest
      exact ⟨noneEmpty_nil, (hblock hfinal).2⟩
    · obtain ⟨final, horElse, hrest⟩ := hrest
      refine ⟨elseBlock_noneEmpty hblock horElse, ?_⟩
      split at hrest
      · exact (hblock hrest).2
      · rw [hrest.1]
        exact noneEmpty_nil
  simpa using ⟨hfilled.1, hfilled.2, hhandled, hothers⟩

private theorem withStmt_noneEmpty (hreads : (withStmt block).Reads tokens before stmt after) :
    NoneEmpty stmt.blocks := by
  obtain ⟨_, _, _, _, body, -, -, -, hbody, rfl⟩ := reads_withStmt hreads
  have hfilled := hblock hbody
  simpa [Filled] using hfilled

private theorem cases_filled {cases : List MatchCase}
    (hrepeats : Repeats (nextIsWord "case") (matchCase block) tokens before cases after) :
    ∀ case ∈ cases, Filled case.body := by
  induction hrepeats with
  | stop => simp
  | item _ hitem _ ih =>
    obtain ⟨_, _, -, _, _, -, body, hbody, rfl⟩ := reads_matchCase.mp hitem
    exact List.forall_mem_cons.mpr ⟨hblock hbody, ih⟩

private theorem matchStmt?_noneEmpty
    (hreads : (matchStmt? block).Reads tokens before (some stmt) after) :
    NoneEmpty stmt.blocks := by
  obtain ⟨_, _, cases, _, -, hcases, -, -, rfl⟩ := reads_matchStmt?_some hreads
  simpa using noneEmpty_cases (cases_filled hblock hcases)

private theorem definition_noneEmpty (hreads : (definition block).Reads tokens before stmt after) :
    NoneEmpty stmt.blocks := by
  obtain ⟨_, _, form, -, rfl, ⟨-, hclass⟩ | ⟨-, hfunction⟩⟩ := reads_definition hreads
  · obtain ⟨_, _, _, _, _, _, body, -, -, -, -, hbody, rfl⟩ := reads_classDef hclass
    simpa [Filled] using hblock hbody
  · obtain ⟨_, _, _, _, _, _, _, _, _, _, body, -, -, -, -, -, -, -, hbody, rfl⟩ :=
      reads_functionDef hfunction
    simpa [Filled] using hblock hbody

private theorem compound_noneEmpty (hcompound : ReadsCompound block tokens before stmt after) :
    NoneEmpty stmt.blocks := by
  cases hcompound with
  | definition _ hreads => exact definition_noneEmpty hblock hreads
  | loop _ hreads => exact forStmt_noneEmpty hblock hreads
  | context _ hreads => exact withStmt_noneEmpty hblock hreads
  | conditional _ hreads => exact ifStmt_noneEmpty hblock hreads
  | attempt _ hreads => exact tryStmt_noneEmpty hblock hreads
  | whileLoop _ hreads => exact whileStmt_noneEmpty hblock hreads
  | cases _ hreads => exact matchStmt?_noneEmpty hblock hreads

/-! ## Blocks -/

private theorem stmtLineOver_fills : (stmtLineOver block).Fills tokens := by
  intro before stmts after hreads
  rcases reads_stmtLineOver hreads with ⟨stmt, rfl, hcompound⟩ | ⟨-, start, -, hsimple⟩
  · exact ⟨List.cons_ne_nil _ _, by simpa using compound_noneEmpty hblock hcompound⟩
  · exact simpleStmts_fills hsimple

end

variable {line : Parser (List Stmt)} {stop : TokenKind} {stmts : List Stmt}

/-- Lines of statements have no empty block in them, and are none only where the lines end at
once. -/
theorem Lines.noneEmpty (hline : line.Fills tokens)
    (hlines : Lines line stop tokens before stmts after) :
    NoneEmpty (blocksOf stmts) ∧ (tokens.kindAt before ≠ stop → stmts ≠ []) := by
  induction hlines with
  | stop hstop => exact ⟨noneEmpty_nil, fun hgoes => absurd hstop hgoes⟩
  | line _ _ hfirst _ ih =>
    obtain ⟨hsome, hfilled⟩ := hline hfirst
    rw [blocksOf_append, noneEmpty_append]
    exact ⟨⟨hfilled, ih.1⟩, fun _ => List.append_ne_nil_of_left_ne_nil hsome _⟩

/-- An indented block is empty only where its level ends as soon as it starts. -/
theorem blockOver_fills
    (hlevels : ∀ index, (tokens.get index).kind = .indent →
      (tokens.get (index + 1)).kind ≠ .dedent)
    (hline : line.Fills tokens) : (blockOver line).Fills tokens := by
  intro before stmts after hreads
  obtain ⟨-, hrest⟩ := reads_blockOver.mp hreads
  split at hrest
  · obtain ⟨hindent, last, hstmts, -, -⟩ := hrest
    obtain ⟨hfilled, hsome⟩ := (reads_stmtsOver hstmts).noneEmpty hline
    exact ⟨hsome (hlevels _ hindent), hfilled⟩
  · exact simpleStmts_fills hrest

private theorem blockWithin_fills
    (hlevels : ∀ index, (tokens.get index).kind = .indent →
      (tokens.get (index + 1)).kind ≠ .dedent)
    (depth : Nat) : (blockWithin depth).Fills tokens := by
  induction depth with
  | zero =>
    intro before stmts after hreads
    exact (reads_failNext.mp hreads).elim
  | succ depth ih => exact blockOver_fills hlevels (stmtLineOver_fills ih)

end Parser

/-- A level that does not start with a line join does not end as soon as it starts. -/
theorem Tokens.ne_dedent_of_indent {source : String}
    (hjoin : ∀ step ∈ Lexer.run source, step.1.kind = .indent →
      step.2.cursor.peek? ≠ some '\\')
    {index : Nat} (hindent : ((Tokens.ofSource source).get index).kind = .indent) :
    ((Tokens.ofSource source).get (index + 1)).kind ≠ .dedent := by
  rw [get_ofSource_eq_next, Lexer.after_succ]
  have hnext := hindent
  rw [get_ofSource_eq_next] at hnext
  have hstep : (Lexer.run source)[index]? = some ((Lexer.ofSource source).after index).next := by
    cases hstep : (Lexer.run source)[index]? with
    | some step => rw [Lexer.runFor_getElem? hstep]
    | none =>
      rw [get_ofSource, hstep] at hindent
      cases hindent
  have htext := hjoin _ (List.mem_of_getElem? hstep) hnext
  rcases (Lexer.ofSource_reading source).reading_after index with hreading | hended
  · rcases hreading.next_of_indent hnext htext with hinvalid | hsolid
    · rw [hinvalid]
      decide
    · intro hdedent
      rw [hdedent] at hsolid
      exact absurd hsolid (by decide)
  · rw [hended] at hnext
    cases hnext

/-- **No block is empty, unless a level starts with a line join.** In a module whose source has no
backslash at the start of a line that opens a level of indentation, every block that cannot be left
out holds a statement. -/
theorem parseModule_blocks {source : String} {module : Module}
    (hparse : parseModule source = .ok module)
    (hjoin : ∀ step ∈ Lexer.run source, step.1.kind = .indent →
      step.2.cursor.peek? ≠ some '\\') :
    ∀ block ∈ blocksOf module.body, block ≠ [] := by
  obtain ⟨body, last, hbody, -, -, rfl⟩ := reads_of_parseModule hparse
  have hblock : Parser.block.Fills (.ofSource source) :=
    Parser.blockWithin_fills (fun _ hindent => Tokens.ne_dedent_of_indent hjoin hindent) _
  exact ((Parser.reads_stmtsOver hbody).noneEmpty (Parser.stmtLineOver_fills hblock)).1

/-- A blank line, a comment and a line join behind the first text of a level leave no
block empty. -/
theorem parseModule_blocks_commented :
    ∃ module, parseModule "if a:\n\n  # c\n  b; \\\n\nelse:\n  c\n" = .ok module ∧
      ∀ block ∈ blocksOf module.body, block ≠ [] := by
  have hparses : (parseModule "if a:\n\n  # c\n  b; \\\n\nelse:\n  c\n").isOk := by decide +kernel
  cases hparse : parseModule "if a:\n\n  # c\n  b; \\\n\nelse:\n  c\n" with
  | error failure =>
    rw [hparse] at hparses
    cases hparses
  | ok module => exact ⟨module, rfl, parseModule_blocks hparse (by decide +kernel)⟩

/-- A line join that nothing follows makes a block of no statements. -/
theorem parseModule_blocks_joined :
    ∃ module, parseModule "if x:\n \\\n" = .ok module ∧ [] ∈ blocksOf module.body := by
  have hempty : (parseModule "if x:\n \\\n").toOption.any fun module =>
      (blocksOf module.body).any List.isEmpty := by
    decide +kernel
  cases hparse : parseModule "if x:\n \\\n" with
  | error failure =>
    rw [hparse] at hempty
    cases hempty
  | ok module =>
    rw [hparse] at hempty
    obtain ⟨block, hblock, hnone⟩ := List.any_eq_true.mp hempty
    rw [List.isEmpty_iff.mp hnone] at hblock
    exact ⟨module, rfl, hblock⟩

end PythonOutline
